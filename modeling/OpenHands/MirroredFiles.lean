/-
# The remote of the batched web hook

What a batch does at the remote against what its calls did to the wrapped store, over every
sequence of calls and every cut into batches.

A batch holds the last update of each path at the place of the path's first update
(`PyDict.set`).  A deletion also takes the paths below it, so the order matters: a batch
can take a path away that was written again after the deletion, and leave a path that the
deletion removed.  `Send.Keeps` is the exact condition.
-/
import OpenHands.BatchedWebHook
import OpenHands.Lib.Run
import OpenHands.Lib.UpdateLog

namespace OpenHands.WebHook

open UpdateLog

/-! ## Updates of a log -/

/-- The bytes that an update leaves at its path. -/
def QueuedUpdate.value (update : QueuedUpdate) : Option ByteArray :=
  update.contents.map Contents.toBytes

/-- The queued updates as a log of writes and removals. -/
def logOf (updates : List (String × QueuedUpdate)) : List (String × Option ByteArray) :=
  updates.map fun entry => (entry.1, entry.2.value)

theorem isBelow_self (path : String) : isBelow path path :=
  decide_eq_true (Or.inl rfl)

/-- The content of an item that writes is what was written. -/
theorem getContent_batchItem (path : String) (contents : Contents) :
    (batchItem path (.ofWrite contents)).getContent = .ok contents.toBytes := by
  cases contents with
  | str s => rfl
  | bytes b =>
      unfold batchItem QueuedUpdate.ofWrite
      dsimp only
      cases hdecoded : String.fromUTF8? b with
      | some content =>
          unfold String.fromUTF8? at hdecoded
          split_ifs at hdecoded
          cases hdecoded
          rfl
      | none => exact b64decode_b64encode b

/-- An item does at the remote what its update did. -/
theorem receiveItem_batchItem (files : Files) (entry : String × QueuedUpdate) :
    receiveItem files (batchItem entry.1 entry.2)
      = apply isBelow files (entry.1, entry.2.value) := by
  obtain ⟨path, operation, contents, valid⟩ := entry
  cases contents with
  | none =>
      have hdelete : operation = .delete := by
        cases operation with
        | write => simp at valid
        | delete => rfl
      subst hdelete
      rfl
  | some contents =>
      have hwrite : operation = .write := valid.mp rfl
      subst hwrite
      have hcontent := getContent_batchItem path contents
      have hpath : (batchItem path (.ofWrite contents)).path = path
          ∧ (batchItem path (.ofWrite contents)).method = .POST := by
        cases contents with
        | str s => exact ⟨rfl, rfl⟩
        | bytes b =>
            unfold batchItem QueuedUpdate.ofWrite
            dsimp only
            cases String.fromUTF8? b with
            | some content => exact ⟨rfl, rfl⟩
            | none => exact ⟨rfl, rfl⟩
      show receiveItem files (batchItem path (.ofWrite contents)) = _
      unfold receiveItem
      rw [hpath.2, hcontent, hpath.1]
      rfl

/-- A batch does at the remote what its entries say. -/
theorem foldl_receiveItem (files : Files) (batch : PyDict String QueuedUpdate) :
    (sendBatchRequest batch).foldl receiveItem files
      = applyAll isBelow files (logOf batch.entries) := by
  unfold sendBatchRequest applyAll logOf
  rw [List.foldl_map, List.foldl_map]
  exact List.foldl_ext _ _ files fun files entry _ => receiveItem_batchItem files entry

theorem remoteAfter_nil (files : Files) : remoteAfter files [] = files := rfl

theorem remoteAfter_cons (files : Files) (batch : PyDict String QueuedUpdate)
    (batches : List (PyDict String QueuedUpdate)) :
    remoteAfter files (batch :: batches)
      = remoteAfter (applyAll isBelow files (logOf batch.entries)) batches := by
  unfold remoteAfter sendBatch
  by_cases hempty : batch.entries = []
  · rw [List.filterMap_cons, if_pos hempty, hempty]
    rfl
  · rw [List.filterMap_cons, if_neg hempty, List.foldl_cons, foldl_receiveItem]

/-- The log of the entries is the dictionary of the log. -/
theorem logOf_entries_ofEntries (updates : List (String × QueuedUpdate)) :
    logOf (PyDict.ofEntries updates).entries = (PyDict.ofEntries (logOf updates)).entries := by
  unfold logOf
  rw [PyDict.ofEntries_map]
  rfl

/-! ## Calls -/

/-- A call of the store, or its timer. -/
inductive Call
  | write (path : String) (contents : Contents)
  | delete (path : String)
  | timer
  | flush

/-- The update that a call queues. -/
def Call.updates : Call → List (String × QueuedUpdate)
  | .write path contents => [(path, .ofWrite contents)]
  | .delete path => [(path, .ofDelete)]
  | .timer => []
  | .flush => []

/-- One call. -/
def BatchedWebHookFileStore.step (self : BatchedWebHookFileStore) : Call → BatchedWebHookFileStore
  | .write path contents => self.write path contents
  | .delete path => self.delete path
  | .timer => self.enqueueBatchFromTimer
  | .flush => self.flush

/-- A batch that was taken out of the queue: the updates since the batch before, and the files
of the wrapped store at the batch before and now. -/
structure Send where
  updates : List (String × QueuedUpdate)
  before : Files
  after : Files

/-- The store with its history: the batches so far, and since the last of them the files at its
start and the updates. -/
structure Recorded where
  store : BatchedWebHookFileStore
  opened : Files
  updates : List (String × QueuedUpdate) := []
  sends : List Send := []

namespace Recorded

/-- Nothing queued, nothing sent. -/
def start (files : Files) (limit : Option Int) : Recorded where
  store := .init files limit
  opened := files

/-- One call, with the history: a batch is out when there is one more than before. -/
def step (r : Recorded) (call : Call) : Recorded :=
  let store := r.store.step call
  let updates := r.updates ++ call.updates
  if r.store.submitted.length < store.submitted.length then
    { store
      opened := store.fileStore
      sends := r.sends ++ [⟨updates, r.opened, store.fileStore⟩] }
  else { r with store, updates }

end Recorded

/-! ## What a call does -/

/-- The batch with more updates. -/
def queueAll (batch : PyDict String QueuedUpdate) (updates : List (String × QueuedUpdate)) :
    PyDict String QueuedUpdate :=
  updates.foldl (fun batch entry => batch.set entry.1 entry.2) batch

/-- A queued update is in the batch, and the batch stays in the queue or is sent. -/
theorem queueUpdate_cases (self : BatchedWebHookFileStore) (path : String)
    (update : QueuedUpdate) :
    (self.queueUpdate path update).fileStore = self.fileStore ∧
    (((self.queueUpdate path update).batch = self.batch.set path update ∧
        (self.queueUpdate path update).submitted = self.submitted) ∨
      ((self.queueUpdate path update).batch = .empty ∧
        (self.queueUpdate path update).submitted
          = self.submitted ++ [self.batch.set path update])) := by
  unfold BatchedWebHookFileStore.queueUpdate
  extract_lets previous queued
  split_ifs with hlimit
  · exact ⟨rfl, Or.inr ⟨rfl, rfl⟩⟩
  · exact ⟨rfl, Or.inl ⟨rfl, rfl⟩⟩

/-- A call changes the wrapped store by its update, and its batch stays or is sent. -/
theorem step_cases (self : BatchedWebHookFileStore) (call : Call) :
    (self.step call).fileStore = applyAll isBelow self.fileStore (logOf call.updates) ∧
    (((self.step call).batch = queueAll self.batch call.updates ∧
        (self.step call).submitted = self.submitted) ∨
      ((self.step call).batch = .empty ∧
        (self.step call).submitted = self.submitted ++ [queueAll self.batch call.updates])) := by
  cases call with
  | write path contents =>
      exact queueUpdate_cases { self with fileStore := self.fileStore.write path contents } path _
  | delete path =>
      exact queueUpdate_cases { self with fileStore := self.fileStore.delete path } path _
  | timer => exact ⟨rfl, Or.inr ⟨rfl, rfl⟩⟩
  | flush => exact ⟨rfl, Or.inr ⟨rfl, rfl⟩⟩

/-! ## The history of a run -/

/-- Each batch starts from the files at which the batch before ended. -/
def Linked : Files → List Send → Files → Prop
  | files, [], opened => opened = files
  | files, send :: sends, opened =>
    send.before = files ∧ send.after = applyAll isBelow files (logOf send.updates) ∧
      Linked send.after sends opened

theorem linked_concat {files opened : Files} {sends : List Send} {send : Send}
    (h : Linked files sends opened) (hbefore : send.before = opened)
    (hafter : send.after = applyAll isBelow opened (logOf send.updates)) :
    Linked files (sends ++ [send]) send.after := by
  induction sends generalizing files with
  | nil =>
      cases h
      exact ⟨hbefore, hafter, rfl⟩
  | cons first sends ih =>
      obtain ⟨hfirst, hend, hlinked⟩ := h
      exact ⟨hfirst, hend, ih hlinked⟩

/-- What the history says about the store. -/
structure Faithful (files : Files) (r : Recorded) : Prop where
  batch_eq : r.store.batch = PyDict.ofEntries r.updates
  fileStore_eq : r.store.fileStore = applyAll isBelow r.opened (logOf r.updates)
  submitted_eq : r.store.submitted = r.sends.map fun send => PyDict.ofEntries send.updates
  linked : Linked files r.sends r.opened

theorem faithful_start (files : Files) (limit : Option Int) :
    Faithful files (.start files limit) where
  batch_eq := rfl
  fileStore_eq := rfl
  submitted_eq := rfl
  linked := rfl

/-- **Every call keeps the history true.** -/
theorem Faithful.step {files : Files} {r : Recorded} (h : Faithful files r) (call : Call) :
    Faithful files (r.step call) := by
  obtain ⟨hfiles, hbatch⟩ := step_cases r.store call
  have hqueued : queueAll r.store.batch call.updates
      = PyDict.ofEntries (r.updates ++ call.updates) := by
    rw [h.batch_eq]
    exact List.foldl_append.symm
  have hlog : (r.store.step call).fileStore
      = applyAll isBelow r.opened (logOf (r.updates ++ call.updates)) := by
    rw [hfiles, h.fileStore_eq, ← applyAll_append]
    unfold logOf
    rw [List.map_append]
  rcases hbatch with ⟨hbatch, hsubmitted⟩ | ⟨hbatch, hsubmitted⟩
  · have hsame : ¬(r.store.submitted.length < (r.store.step call).submitted.length) := by
      rw [hsubmitted]
      exact lt_irrefl _
    unfold Recorded.step
    simp only [if_neg hsame]
    exact ⟨hbatch.trans hqueued, hlog, hsubmitted.trans h.submitted_eq, h.linked⟩
  · have hmore : r.store.submitted.length < (r.store.step call).submitted.length := by
      rw [hsubmitted, List.length_append]
      exact Nat.lt_succ_self _
    unfold Recorded.step
    simp only [if_pos hmore]
    refine ⟨hbatch, rfl, ?_, linked_concat h.linked rfl hlog⟩
    rw [hsubmitted, h.submitted_eq, hqueued, List.map_append, List.map_singleton]

theorem Faithful.run {files : Files} {r : Recorded} (h : Faithful files r) (calls : List Call) :
    Faithful files (Run.run Recorded.step r calls) :=
  Run.run_invariant (C := fun _ _ => True) (fun _ call h _ => h.step call) h
    fun _ _ => trivial

/-! ## The remote after every batch -/

/-- A batch keeps what its calls did to the wrapped store, at every path: a path that was
written last was removed after that exactly when a directory above it whose last call is a
deletion entered the batch after the path did, and a stored path that is not in the batch but
below a deleted directory is below one whose last call is the deletion. -/
def Send.Keeps (send : Send) : Prop :=
  ∀ path, UpdateLog.Keeps isBelow (logOf send.updates) path send.before

theorem keeps_iff {send : Send} :
    send.Keeps ↔ applyAll isBelow send.before (logOf (PyDict.ofEntries send.updates).entries)
      = applyAll isBelow send.before (logOf send.updates) := by
  unfold Send.Keeps
  rw [logOf_entries_ofEntries, funext_iff]
  exact forall_congr' fun path =>
    (applyAll_entries_iff isBelow (logOf send.updates) path isBelow_self send.before).symm

/-- The remote agrees with the wrapped store after every batch exactly when all batches keep
what their calls did. -/
theorem remoteAfter_take_iff {sends : List Send} {files opened : Files}
    (h : Linked files sends opened) :
    (∀ i (hi : i < sends.length),
        remoteAfter files ((sends.map fun send => PyDict.ofEntries send.updates).take (i + 1))
          = sends[i].after)
      ↔ ∀ send ∈ sends, send.Keeps := by
  induction sends generalizing files with
  | nil => simp
  | cons send sends ih =>
      obtain ⟨rfl, hafter, hlinked⟩ := h
      have hfirst : remoteAfter send.before [PyDict.ofEntries send.updates] = send.after
          ↔ send.Keeps := by
        rw [remoteAfter_cons, remoteAfter_nil, hafter, keeps_iff]
      rw [List.forall_mem_cons, ← ih hlinked, ← hfirst]
      have hrest : ∀ i, remoteAfter send.before [PyDict.ofEntries send.updates] = send.after →
          remoteAfter send.before
              (((send :: sends).map fun send => PyDict.ofEntries send.updates).take (i + 1 + 1))
            = remoteAfter send.after
              ((sends.map fun send => PyDict.ofEntries send.updates).take (i + 1)) := by
        intro i heq
        rw [remoteAfter_cons, remoteAfter_nil] at heq
        rw [List.map_cons, List.take_succ_cons, remoteAfter_cons, heq]
      constructor
      · intro hall
        have hnow := hall 0 (Nat.succ_pos _)
        refine ⟨hnow, fun i hi => ?_⟩
        rw [← hrest i hnow]
        exact hall (i + 1) (Nat.succ_lt_succ hi)
      · rintro ⟨hnow, hlater⟩ i hi
        cases i with
        | zero => exact hnow
        | succ i =>
            rw [hrest i hnow]
            exact hlater i (Nat.lt_of_succ_lt_succ hi)

/-- When all batches keep what their calls did, the remote ends where the last batch ended. -/
theorem remoteAfter_of_keeps {sends : List Send} {files opened : Files}
    (h : Linked files sends opened) (hkeeps : ∀ send ∈ sends, send.Keeps) :
    remoteAfter files (sends.map fun send => PyDict.ofEntries send.updates) = opened := by
  induction sends generalizing files with
  | nil => exact h.symm
  | cons send sends ih =>
      obtain ⟨rfl, hafter, hlinked⟩ := h
      rw [List.forall_mem_cons, keeps_iff, ← hafter] at hkeeps
      rw [List.map_cons, remoteAfter_cons, hkeeps.1]
      exact ih hlinked hkeeps.2

/-- The run of the calls with a flush at the end. -/
def flushed (files : Files) (limit : Option Int) (calls : List Call) : Recorded :=
  Run.run Recorded.step (.start files limit) (calls ++ [.flush])

theorem flushed_eq (files : Files) (limit : Option Int) (calls : List Call) :
    flushed files limit calls
      = (Run.run Recorded.step (.start files limit) calls).step .flush := by
  unfold flushed Run.run
  rw [List.foldl_append]
  rfl

/-- A flush leaves nothing queued. -/
theorem updates_step_flush (r : Recorded) : (r.step .flush).updates = [] := by
  have hmore : r.store.submitted.length < (r.store.step .flush).submitted.length := by
    show _ < (r.store.submitted ++ [r.store.batch]).length
    rw [List.length_append]
    exact Nat.lt_succ_self _
  unfold Recorded.step
  simp only [if_pos hmore]

/-- **The remote and the wrapped store.**  In a run that is flushed at the end, the remote
agrees with the wrapped store after every batch exactly when every batch keeps what its calls
did; then it agrees after the flush. -/
theorem remote_eq_fileStore_iff (files : Files) (limit : Option Int) (calls : List Call) :
    ((∀ i (hi : i < (flushed files limit calls).sends.length),
        remoteAfter files ((flushed files limit calls).store.submitted.take (i + 1))
          = ((flushed files limit calls).sends[i]).after)
      ↔ ∀ send ∈ (flushed files limit calls).sends, send.Keeps) ∧
    ((∀ send ∈ (flushed files limit calls).sends, send.Keeps) →
      remoteAfter files (flushed files limit calls).store.submitted
        = (flushed files limit calls).store.fileStore) := by
  have hfaithful : Faithful files (flushed files limit calls) :=
    (faithful_start files limit).run _
  refine ⟨?_, fun hkeeps => ?_⟩
  · rw [hfaithful.submitted_eq]
    exact remoteAfter_take_iff hfaithful.linked
  · have hnone : (flushed files limit calls).updates = [] := by
      rw [flushed_eq]
      exact updates_step_flush _
    rw [hfaithful.submitted_eq, remoteAfter_of_keeps hfaithful.linked hkeeps,
      hfaithful.fileStore_eq, hnone]
    rfl

/-- A file that is written, removed with its directory and written again: the batch writes it
first and then removes the directory. -/
def rewritten : List Call :=
  [.write "a/b" (.str "x"), .delete "a", .write "a/b" (.str "y")]

/-- The remote has lost the file that was written last. -/
theorem remote_ne_fileStore :
    remoteAfter (fun _ => none) (flushed (fun _ => none) none rewritten).store.submitted
      ≠ (flushed (fun _ => none) none rewritten).store.fileStore := by
  intro h
  have hremote : (remoteAfter (fun _ => none)
      (flushed (fun _ => none) none rewritten).store.submitted "a/b").isSome = false := by decide
  have hlocal : ((flushed (fun _ => none) none rewritten).store.fileStore "a/b").isSome = true := by
    decide
  rw [h, hlocal] at hremote
  exact Bool.noConfusion hremote

end OpenHands.WebHook
