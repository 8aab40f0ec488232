/-
# The size of the queued batch

The batched web hook keeps the size of its batch next to the batch: an update adds its own bytes
and takes off those of the update of the path before.  After every call the kept size is the
number of bytes in the batch, no batch is as large as the limit, and a timer runs for what is
queued.  A limit below zero is taken as it is, and then no size is below it.
-/
import OpenHands.MirroredFiles

namespace OpenHands.WebHook

/-! ## Calls that raise -/

/-- A call of the store or its timer, or a call that raises before the queue is reached: the
wrapped store raises, or the text of a write has no bytes.  Any files may be left then. -/
inductive Attempt
  | call (call : Call)
  | raises (files : Files)

/-- One call, successful or not. -/
def BatchedWebHookFileStore.attempt (self : BatchedWebHookFileStore) :
    Attempt → BatchedWebHookFileStore
  | .call call => self.step call
  | .raises files => { self with fileStore := files }

/-- The store after a sequence of calls. -/
def afterCalls (files : Files) (limit : Option Int) (calls : List Attempt) :
    BatchedWebHookFileStore :=
  Run.run BatchedWebHookFileStore.attempt (.init files limit) calls

/-! ## The size of a batch -/

/-- The number of bytes that an update writes. -/
def QueuedUpdate.bytes (update : QueuedUpdate) : ℤ :=
  match update.value with
  | some value => value.size
  | none => 0

/-- The number of bytes pending in a batch. -/
def pendingBytes (batch : PyDict String QueuedUpdate) : ℤ :=
  (batch.entries.map fun entry => entry.2.bytes).sum

/-- The kept size is that of the batch, and is below the limit; what is queued has a timer. -/
structure Sized (store : BatchedWebHookFileStore) : Prop where
  size_eq : store.batchSize = pendingBytes store.batch
  nonneg : 0 ≤ store.batchSize
  below : store.batchSize < store.batchSizeLimitBytes
  armed : store.batch.entries ≠ [] → store.batchTimer = true

/-- The size that is computed is the number of bytes. -/
theorem contentSize_eq (update : QueuedUpdate) : contentSize update.contents = update.bytes := by
  obtain ⟨operation, contents, valid⟩ := update
  cases contents with
  | none => rfl
  | some contents =>
    cases contents with
    | str s =>
      show ((s.utf8ByteSize : ℕ) : ℤ) = ((s.toUTF8.size : ℕ) : ℤ)
      rw [String.toUTF8_eq_toByteArray, String.size_toByteArray]
    | bytes b => rfl

theorem bytes_nonneg (update : QueuedUpdate) : 0 ≤ update.bytes := by
  unfold QueuedUpdate.bytes
  cases update.value with
  | none => exact le_refl _
  | some value => exact Int.natCast_nonneg _

theorem pendingBytes_nonneg (batch : PyDict String QueuedUpdate) : 0 ≤ pendingBytes batch := by
  apply List.sum_nonneg
  intro size hsize
  obtain ⟨entry, -, rfl⟩ := List.mem_map.mp hsize
  exact bytes_nonneg entry.2

/-- An update takes the place of the one of its path before. -/
theorem pendingBytes_set (batch : PyDict String QueuedUpdate) (path : String)
    (update : QueuedUpdate) :
    pendingBytes (batch.set path update)
      = pendingBytes batch - ((batch.get? path).map QueuedUpdate.bytes).getD 0 + update.bytes := by
  unfold pendingBytes PyDict.get?
  show ((PyDict.setEntries path update batch.entries).map _).sum = _
  induction batch.entries with
  | nil => simp [PyDict.setEntries]
  | cons entry entries ih =>
    unfold PyDict.setEntries
    by_cases hpath : entry.1 = path
    · rw [if_pos hpath, List.find?_cons_of_pos (by simpa using hpath), List.map_cons,
        List.map_cons, List.sum_cons, List.sum_cons]
      simp only [Option.map_some, Option.getD_some]
      omega
    · rw [if_neg hpath, List.find?_cons_of_neg (by simpa using hpath), List.map_cons,
        List.map_cons, List.sum_cons, List.sum_cons, ih]
      omega

/-! ## What a call keeps -/

variable {store : BatchedWebHookFileStore}

/-- A batch that was sent leaves nothing behind. -/
theorem sized_enqueueBatchFromLock (store : BatchedWebHookFileStore)
    (hlimit : 0 < store.batchSizeLimitBytes) : Sized store.enqueueBatchFromLock where
  size_eq := rfl
  nonneg := le_refl _
  below := hlimit
  armed := fun hne => absurd rfl hne

/-- The size after an update is that of the new batch; the batch stays and gets a timer, or it is
sent. -/
theorem Sized.queueUpdate (h : Sized store) (path : String) (update : QueuedUpdate) :
    Sized (store.queueUpdate path update) := by
  have hlimit : 0 < store.batchSizeLimitBytes := lt_of_le_of_lt h.nonneg h.below
  unfold BatchedWebHookFileStore.queueUpdate
  extract_lets previous queued
  have hsize : queued.batchSize = pendingBytes queued.batch := by
    show store.batchSize - previous + contentSize update.contents
      = pendingBytes (store.batch.set path update)
    have hold : previous = ((store.batch.get? path).map QueuedUpdate.bytes).getD 0 := by
      dsimp only [previous]
      cases store.batch.get? path with
      | none => rfl
      | some update => exact contentSize_eq update
    rw [pendingBytes_set, contentSize_eq, h.size_eq, hold]
  split_ifs with hfull
  · exact sized_enqueueBatchFromLock queued hlimit
  · refine ⟨hsize, ?_, ?_, fun _ => rfl⟩
    · show 0 ≤ queued.batchSize
      rw [hsize]
      exact pendingBytes_nonneg _
    · show queued.batchSize < queued.batchSizeLimitBytes
      omega

/-- The files are no part of it. -/
theorem Sized.withFiles (h : Sized store) (files : Files) :
    Sized { store with fileStore := files } :=
  ⟨h.size_eq, h.nonneg, h.below, h.armed⟩

/-- **Every call keeps the size.** -/
theorem Sized.attempt (h : Sized store) (call : Attempt) : Sized (store.attempt call) := by
  have hlimit : 0 < store.batchSizeLimitBytes := lt_of_le_of_lt h.nonneg h.below
  cases call with
  | raises files => exact h.withFiles files
  | call call =>
    cases call with
    | write path contents => exact (h.withFiles _).queueUpdate path _
    | delete path => exact (h.withFiles _).queueUpdate path _
    | timer => exact sized_enqueueBatchFromLock store hlimit
    | flush => exact sized_enqueueBatchFromLock store hlimit

/-- A new store has nothing queued; its limit is positive unless it is given a negative one. -/
theorem sized_init (files : Files) {limit : Option Int} (hlimit : ∀ bytes ∈ limit, 0 ≤ bytes) :
    Sized (.init files limit) where
  size_eq := rfl
  nonneg := le_refl _
  below := by
    unfold BatchedWebHookFileStore.init
    cases limit with
    | none =>
      show (0 : ℤ) < BatchedWebHookFileStore.webhookBatchSizeLimitBytes
      decide
    | some bytes =>
      have hbytes := hlimit bytes rfl
      show 0 < if bytes = 0 then _ else bytes
      split_ifs with hzero
      · decide
      · omega
  armed := fun hne => absurd rfl hne

/-- **The size is kept through every sequence of calls**, in a store whose limit is not negative:
no limit and the limit zero are the default. -/
theorem sized_afterCalls (files : Files) (limit : Option Int) (calls : List Attempt)
    (hlimit : ∀ bytes ∈ limit, 0 ≤ bytes) : Sized (afterCalls files limit calls) :=
  Run.run_invariant (C := fun _ _ => True) (fun _ call h _ => h.attempt call)
    (sized_init files hlimit) fun _ _ => trivial

/-- Overwriting a text by bytes, and a write that raises between. -/
theorem sized_afterCalls_overwrite :
    Sized (afterCalls (fun _ => none) (some 4)
      [.call (.write "a" (.str "é")), .raises fun _ => none,
        .call (.write "a" (.bytes ⟨#[0, 1, 2]⟩))]) := by
  apply sized_afterCalls
  rintro bytes ⟨⟩
  decide

/-- With the limit `-1` every update is sent at once, and no size is below the limit. -/
theorem not_sized_negativeLimit : ¬ ∀ (files : Files) (limit : Option Int) (calls : List Attempt),
    Sized (afterCalls files limit calls) := by
  intro h
  have hbelow := (h (fun _ => none) (some (-1)) [.call (.delete "a")]).below
  exact absurd hbelow (by decide)

end OpenHands.WebHook
