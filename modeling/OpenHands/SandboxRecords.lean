/-
# Records of remote sandboxes

The remote service keeps a record of every sandbox.  A start adds the record to the session of
the database and then asks the runtime API for a runtime; a deletion takes the record out and
then looks the runtime up and stops it.  When a request fails the start raises and the deletion
returns `False`, and the caller commits the session all the same.

Records stay in step with the sandboxes exactly as long as no request fails behind a change of
the session.
-/
import OpenHands.Lib.Run
import OpenHands.Sandboxes

namespace OpenHands.SandboxRecords

open Run Sandboxes

/-- How the runtime API answers a request. -/
inductive Response where
  | success
  /-- An answer of 400 or more. -/
  | status (code : ℕ)
  | timeout
  deriving DecidableEq, Repr

/-- `raise_for_status` passes. -/
def Response.ok (response : Response) : Bool := response = .success

/-- The table `v1_remote_sandbox`. -/
abbrev Table := PyDict String StoredRemoteSandbox

/-- A session of the database: what is committed, and what the session sees. -/
structure DbSession where
  committed : Table
  current : Table

def DbSession.begin (table : Table) : DbSession := ⟨table, table⟩

def DbSession.commit (session : DbSession) : DbSession := ⟨session.current, session.current⟩

/-- What a start raises. -/
inductive StartError where
  /-- Before the record is added: the specification is not found, or old sandboxes cannot be
  paused. -/
  | notPrepared
  | sandboxError
  deriving DecidableEq, Repr

/-- `_get_stored_sandbox`. -/
def getStoredSandbox (userId : Option String) (table : Table) (sandboxId : String) :
    Option StoredRemoteSandbox :=
  RemoteSandboxService.getStoredSandbox
    { userId := userId
      stored := table.get?
      runtimes := fun _ => none } sandboxId

/-- `start_sandbox` with its random id; `post` is the answer to the request for the runtime. -/
def startSandbox (userId : Option String) (prepared : Bool) (sandboxSpecId sandboxId : String)
    (post : Response) (session : DbSession) : DbSession × Except StartError Unit :=
  if ¬ prepared then (session, .error .notPrepared)
  else
    let session := { session with
      current := session.current.set sandboxId ⟨userId, sandboxSpecId⟩ }
    (session, if post.ok then .ok () else .error .sandboxError)

/-- `delete_sandbox`: the runtime is looked up and stopped. -/
def deleteSandbox (userId : Option String) (sandboxId : String) (get stop : Response)
    (session : DbSession) : DbSession × Bool :=
  match getStoredSandbox userId session.current sandboxId with
  | none => (session, false)
  | some _ =>
    let session := { session with current := session.current.pop sandboxId }
    (session, get.ok && (stop = .status 404 || stop.ok))

/-- A call of the service in a session of its own, which the caller commits. -/
inductive Move where
  | start (userId : Option String) (prepared : Bool) (sandboxSpecId sandboxId : String)
      (post : Response)
  | delete (userId : Option String) (sandboxId : String) (get stop : Response)

/-- The records, and of the past which sandboxes were started without an error and not deleted
with `True` since. -/
structure World where
  stored : Table
  present : String → Bool

/-- The records at the start are those of sandboxes that are present. -/
def World.ofStored (stored : Table) : World := ⟨stored, stored.contains⟩

namespace World

variable (w : World)

/-- The random id of a start is not one that is in use. -/
def perform : Move → World
  | .start userId prepared sandboxSpecId sandboxId post =>
    if w.stored.contains sandboxId then w
    else
      let result := startSandbox userId prepared sandboxSpecId sandboxId post (.begin w.stored)
      { stored := result.1.commit.committed
        present := match result.2 with
          | .ok _ => Function.update w.present sandboxId true
          | .error _ => w.present }
  | .delete userId sandboxId get stop =>
    let result := deleteSandbox userId sandboxId get stop (.begin w.stored)
    { stored := result.1.commit.committed
      present := if result.2 then Function.update w.present sandboxId false else w.present }

/-- The records are those of the sandboxes that are present. -/
def Matches : Prop := ∀ sandboxId, w.stored.contains sandboxId = w.present sandboxId

/-- The runtime of a sandbox is gone: it is not found, or no longer when it is to be stopped. -/
def Gone (get stop : Response) : Prop :=
  get = .status 404 ∨ get = .success ∧ stop = .status 404

/-- After a call the records match, and a sandbox whose runtime is gone is deleted. -/
structure InStep (move : Move) : Prop where
  matched : (w.perform move).Matches
  deleted : ∀ userId sandboxId get stop, move = .delete userId sandboxId get stop →
    (getStoredSandbox userId w.stored sandboxId).isSome = true → Gone get stop →
      (deleteSandbox userId sandboxId get stop (.begin w.stored)).2 = true ∧
        (w.perform move).stored.contains sandboxId = false

/-- No request fails behind a change of the session. -/
def Succeeds : Move → Prop
  | .start _ prepared _ sandboxId post =>
    w.stored.contains sandboxId = false → prepared = true → post.ok = true
  | .delete userId sandboxId get stop =>
    (getStoredSandbox userId w.stored sandboxId).isSome = true →
      get.ok = true ∧ (stop = .status 404 ∨ stop.ok = true)

end World

/-! ## One call -/

variable {w : World} {sandboxId : String}

/-- The keys after `d[k] = v`. -/
theorem contains_set (table : Table) (k j : String) (row : StoredRemoteSandbox) :
    (table.set k row).contains j = (decide (j = k) || table.contains j) := by
  rw [← PyDict.isSome_get?, ← PyDict.isSome_get?, PyDict.get?_set]
  by_cases hj : j = k
  · simp [hj]
  · simp [hj]

theorem contains_pop (table : Table) (k j : String) :
    (table.pop k).contains j = (decide (j ≠ k) && table.contains j) := by
  rw [← PyDict.isSome_get?, ← PyDict.isSome_get?, PyDict.get?_pop]
  by_cases hj : j = k
  · simp [hj]
  · simp [hj]

/-- A stored sandbox that a user sees has a record. -/
theorem contains_of_stored {userId : Option String} {table : Table}
    (h : (getStoredSandbox userId table sandboxId).isSome = true) :
    table.contains sandboxId = true := by
  obtain ⟨row, hrow⟩ := Option.isSome_iff_exists.mp h
  have hget : table.get? sandboxId = some row := (Option.filter_eq_some_iff.mp hrow).1
  rw [← PyDict.isSome_get?, hget]
  rfl

/-- The records after a start: its record is there whether the request has succeeded or not. -/
theorem matches_start_iff (h : w.Matches) (userId : Option String) (prepared : Bool)
    (sandboxSpecId sandboxId : String) (post : Response) :
    (w.perform (.start userId prepared sandboxSpecId sandboxId post)).Matches ↔
      w.Succeeds (.start userId prepared sandboxSpecId sandboxId post) := by
  dsimp only [World.perform, World.Succeeds]
  cases hused : w.stored.contains sandboxId with
  | true => exact iff_of_true h fun hfalse => by cases hfalse
  | false =>
    cases prepared with
    | false => exact iff_of_true h fun _ hfalse => by cases hfalse
    | true =>
      have habsent : w.present sandboxId = false := (h sandboxId).symm.trans hused
      have hrecord : ∀ j, (w.stored.set sandboxId ⟨userId, sandboxSpecId⟩).contains j
          = (decide (j = sandboxId) || w.present j) := by
        intro j
        rw [contains_set, h j]
      cases hpost : post.ok with
      | true =>
        refine iff_of_true (fun j => ?_) fun _ _ => rfl
        simp only [startSandbox, hpost]
        show (w.stored.set sandboxId _).contains j = Function.update w.present sandboxId true j
        rw [hrecord]
        by_cases hj : j = sandboxId
        · simp [hj]
        · simp [hj]
      | false =>
        -- the record of the sandbox that could not be started is committed
        refine iff_of_false (fun hmatches => ?_) fun hsucceeds => by cases hsucceeds rfl rfl
        have hthere := hmatches sandboxId
        simp only [startSandbox, hpost] at hthere
        change (w.stored.set sandboxId _).contains sandboxId = w.present sandboxId at hthere
        rw [hrecord, habsent] at hthere
        simp at hthere

/-- Without a record nothing is requested. -/
theorem deleteSandbox_of_none {userId : Option String} {table : Table}
    (hstored : getStoredSandbox userId table sandboxId = none) (get stop : Response) :
    deleteSandbox userId sandboxId get stop (.begin table) = (.begin table, false) := by
  unfold deleteSandbox
  change (match getStoredSandbox userId table sandboxId with
    | none => _
    | some _ => _) = _
  rw [hstored]

/-- The record is taken out before the requests are made. -/
theorem deleteSandbox_of_some {userId : Option String} {table : Table}
    {row : StoredRemoteSandbox} (hstored : getStoredSandbox userId table sandboxId = some row)
    (get stop : Response) :
    deleteSandbox userId sandboxId get stop (.begin table)
      = ({ committed := table, current := table.pop sandboxId },
        get.ok && (stop = .status 404 || stop.ok)) := by
  unfold deleteSandbox
  change (match getStoredSandbox userId table sandboxId with
    | none => _
    | some _ => _) = _
  rw [hstored]
  rfl

/-- The records after a deletion: the record is gone whether the deletion has succeeded or
not. -/
theorem matches_delete_iff (h : w.Matches) (userId : Option String) (sandboxId : String)
    (get stop : Response) : (w.perform (.delete userId sandboxId get stop)).Matches ↔
      w.Succeeds (.delete userId sandboxId get stop) := by
  dsimp only [World.perform, World.Succeeds]
  cases hstored : getStoredSandbox userId w.stored sandboxId with
  | none =>
    rw [deleteSandbox_of_none hstored]
    exact iff_of_true h fun hfalse => by cases hfalse
  | some row =>
    have hthere : w.present sandboxId = true :=
      (h sandboxId).symm.trans (contains_of_stored (by rw [hstored]; rfl))
    have hcond : (get.ok && (stop = .status 404 || stop.ok)) = true ↔
        get.ok = true ∧ (stop = .status 404 ∨ stop.ok = true) := by
      simp
    rw [deleteSandbox_of_some hstored]
    cases hok : get.ok && (stop = .status 404 || stop.ok) with
    | true =>
      refine iff_of_true (fun j => ?_) fun _ => hcond.mp hok
      show (w.stored.pop sandboxId).contains j = Function.update w.present sandboxId false j
      rw [contains_pop, h j]
      by_cases hj : j = sandboxId
      · simp [hj]
      · simp [hj]
    | false =>
      refine iff_of_false (fun hmatches => ?_) fun hsucceeds => ?_
      · have hgone := hmatches sandboxId
        change (w.stored.pop sandboxId).contains sandboxId = w.present sandboxId at hgone
        rw [contains_pop, hthere] at hgone
        simp at hgone
      · rw [hcond.mpr (hsucceeds rfl)] at hok
        cases hok

/-- A sandbox is deleted if no request fails. -/
theorem deleted_of_succeeds {userId : Option String} {get stop : Response}
    (hstored : (getStoredSandbox userId w.stored sandboxId).isSome = true)
    (h : w.Succeeds (.delete userId sandboxId get stop)) :
    (deleteSandbox userId sandboxId get stop (.begin w.stored)).2 = true ∧
      (w.perform (.delete userId sandboxId get stop)).stored.contains sandboxId = false := by
  obtain ⟨hget, hstop⟩ := h hstored
  obtain ⟨row, hrow⟩ := Option.isSome_iff_exists.mp hstored
  have hanswer : (get.ok && (stop = .status 404 || stop.ok)) = true := by
    simp [hget, hstop]
  dsimp only [World.perform]
  rw [deleteSandbox_of_some hrow, hanswer]
  refine ⟨rfl, ?_⟩
  show (w.stored.pop sandboxId).contains sandboxId = false
  rw [contains_pop]
  simp

/-- A call leaves the records in step exactly when no request fails behind a change. -/
theorem inStep_iff (h : w.Matches) (move : Move) : w.InStep move ↔ w.Succeeds move := by
  cases move with
  | start userId prepared sandboxSpecId sandboxId post =>
    rw [← matches_start_iff h]
    exact ⟨fun hstep => hstep.matched, fun hmatched => ⟨hmatched, fun _ _ _ _ heq => by cases heq⟩⟩
  | delete userId sandboxId get stop =>
    rw [← matches_delete_iff h]
    refine ⟨fun hstep => hstep.matched, fun hmatched => ⟨hmatched, ?_⟩⟩
    rintro _ _ _ _ ⟨⟩ hstored -
    exact deleted_of_succeeds hstored ((matches_delete_iff h _ _ _ _).mp hmatched)

/-- **The records are in step with the sandboxes throughout a run if and only if no request
fails behind a change of the session.** -/
theorem inStep_steps_iff (stored : Table) (moves : List Move) :
    (∀ p ∈ steps World.perform (.ofStored stored) moves, p.1.InStep p.2) ↔
      ∀ p ∈ steps World.perform (.ofStored stored) moves, p.1.Succeeds p.2 :=
  forall_steps_iff (I := World.Matches) (fun _ move h => inStep_iff h move)
    (fun _ move h hsucceeds => ((inStep_iff h move).mpr hsucceeds).matched) fun _ => rfl

/-- A start whose request times out leaves a record, and the deletion of a sandbox whose runtime
is gone returns `False`. -/
theorem not_inStep_failed :
    (¬ ∀ p ∈ steps World.perform (.ofStored PyDict.empty)
        [.start (some "alice") true "spec" "sandbox" .timeout], p.1.InStep p.2) ∧
      ¬ ∀ p ∈ steps World.perform (.ofStored (PyDict.empty.set "sandbox" ⟨some "alice", "spec"⟩))
        [.delete (some "alice") "sandbox" (.status 404) .success], p.1.InStep p.2 := by
  constructor
  · intro h
    have hrecord := (h _ (List.mem_singleton_self _)).matched "sandbox"
    exact absurd hrecord (by decide)
  · intro h
    have hdeleted := ((h _ (List.mem_singleton_self _)).deleted _ _ _ _ rfl (by decide)
      (Or.inl rfl)).1
    exact absurd hdeleted (by decide)

end OpenHands.SandboxRecords
