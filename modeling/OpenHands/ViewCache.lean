/-
# The cached view of a state

`State.view` caches the view of the history under the length of the history.  The
controller appends to the history, cuts it in a loop recovery and replaces it when a
history is rebuilt, so a history of the same length need not be the same.

The main result compares the histories of consecutive reads: the reads are right exactly
when histories of equal length have equal views.
-/
import OpenHands.LoopRecovery

namespace OpenHands

/-- What happens to the history of a state, and reads of its view. -/
inductive HistoryOp where
  | addHistory (event : Event)
  | truncateMemory (recoveryPoint : ℤ)
  | initHistory (stream : EventLog)
  | close (stream : EventLog)
  | readView

/-- The state after an operation. -/
def HistoryOp.apply : HistoryOp → State → State
  | addHistory event, s => StateTracker.addHistory s event
  | truncateMemory recoveryPoint, s => truncateMemoryToPoint s recoveryPoint
  | initHistory stream, s => StateTracker.initHistory s stream
  | close stream, s => StateTracker.close s stream
  | readView, s => s.view.2

/-- One read: the history at the moment of the read and the view it returned. -/
structure ViewRead where
  history : List Event
  view : View
  deriving DecidableEq, Repr

/-- The reads of a sequence of operations. -/
def viewReads : State → List HistoryOp → List ViewRead
  | _, [] => []
  | s, .readView :: ops => ⟨s.history, s.view.1⟩ :: viewReads s.view.2 ops
  | s, op :: ops => viewReads (op.apply s) ops

/-- Every read returns the view of the history at that moment. -/
def ReadsCoherent (s : State) (ops : List HistoryOp) : Prop :=
  ∀ r ∈ viewReads s ops, r.view = View.fromEvents r.history

/-- Histories of equal length have equal views. -/
def SameLengthSameView (h h' : List Event) : Prop :=
  h.length = h'.length → View.fromEvents h = View.fromEvents h'

/-! ## The cache -/

/-- The cache holds the view of the history of the last read, if there was one. -/
def CacheOf (s : State) (lastRead : Option (List Event)) : Prop :=
  s.viewCache = lastRead.map fun h => (h.length, View.fromEvents h)

/-- Only reads touch the cache. -/
theorem viewCache_apply {op : HistoryOp} (hop : op ≠ .readView) (s : State) :
    (op.apply s).viewCache = s.viewCache := by
  cases op with
  | addHistory event =>
    show (if _ then _ else _ : State).viewCache = _
    split_ifs <;> rfl
  | truncateMemory recoveryPoint =>
    show (if _ then _ else _ : State).viewCache = _
    split_ifs <;> rfl
  | initHistory stream =>
    show (StateTracker.initHistory s stream).viewCache = _
    rw [initHistory_eq]
  | close stream => rfl
  | readView => exact absurd rfl hop

/-- An operation that is no read adds none. -/
theorem viewReads_cons {op : HistoryOp} (hop : op ≠ .readView) (s : State)
    (ops : List HistoryOp) : viewReads s (op :: ops) = viewReads (op.apply s) ops := by
  cases op with
  | readView => exact absurd rfl hop
  | _ => rfl

/-- A read that finds no history of the same length in the cache. -/
theorem view_of_length_ne {s : State} {lastRead : Option (List Event)} (hcache : CacheOf s lastRead)
    (hlen : ∀ h ∈ lastRead, h.length ≠ s.history.length) :
    s.view = (View.fromEvents s.history,
      { s with viewCache := some (s.history.length, View.fromEvents s.history) }) := by
  unfold State.view
  rw [hcache]
  cases lastRead with
  | none => rfl
  | some h =>
    have hne := hlen h rfl
    show (if s.history.length ≠ h.length then _ else _) = _
    rw [if_pos (Ne.symm hne)]
    rfl

/-- A read that finds a history of the same length in the cache. -/
theorem view_of_length_eq {s : State} {h : List Event} (hcache : CacheOf s (some h))
    (hlen : h.length = s.history.length) : s.view = (View.fromEvents h, s) := by
  unfold State.view
  rw [hcache]
  show (if s.history.length ≠ h.length then _ else _) = _
  rw [if_neg (by simp [hlen])]

/-! ## When the reads are right -/

/-- A chain behind an optional first element. -/
theorem isChain_toList_append {α : Type*} {R : α → α → Prop} (first : Option α) (a : α)
    (l : List α) :
    (first.toList ++ a :: l).IsChain R ↔ (∀ b ∈ first, R b a) ∧ (a :: l).IsChain R := by
  cases first with
  | none => simp
  | some b => simp

/-- The reads after some earlier read. -/
theorem readsCoherent_iff_isChain (ops : List HistoryOp) :
    ∀ (s : State) (lastRead : Option (List Event)), CacheOf s lastRead →
      (ReadsCoherent s ops ↔
        (lastRead.toList ++ (viewReads s ops).map ViewRead.history).IsChain
          SameLengthSameView) := by
  induction ops with
  | nil =>
    intro s lastRead _
    cases lastRead <;> simp [ReadsCoherent, viewReads]
  | cons op ops ih =>
    intro s lastRead hcache
    by_cases hop : op = .readView
    · subst hop
      rw [ReadsCoherent, viewReads, List.forall_mem_cons, List.map_cons, isChain_toList_append]
      -- the rest of the reads, once this one is right
      have hrest : CacheOf s.view.2 (some s.history) →
          ((∀ r ∈ viewReads s.view.2 ops, r.view = View.fromEvents r.history) ↔
            (s.history :: (viewReads s.view.2 ops).map ViewRead.history).IsChain
              SameLengthSameView) := fun h => ih s.view.2 (some s.history) h
      by_cases hhit : ∃ h ∈ lastRead, h.length = s.history.length
      · -- the lengths agree: the view of the earlier history is returned
        obtain ⟨h, hlast, hlen⟩ := hhit
        rw [Option.mem_def] at hlast
        subst hlast
        have hview := view_of_length_eq hcache hlen
        constructor
        · rintro ⟨hread, hreads⟩
          have hsame : View.fromEvents h = View.fromEvents s.history := by
            rw [hview] at hread
            exact hread
          refine ⟨?_, (hrest ?_).mp hreads⟩
          · rintro b hb -
            rw [Option.mem_some_iff] at hb
            rw [← hb]
            exact hsame
          · rw [hview, CacheOf, hcache, Option.map_some, Option.map_some, hsame, hlen]
        · rintro ⟨hlink, hchain⟩
          have hsame : View.fromEvents h = View.fromEvents s.history := hlink h rfl hlen
          refine ⟨?_, (hrest ?_).mpr hchain⟩
          · rw [hview]
            exact hsame
          · rw [hview, CacheOf, hcache, Option.map_some, Option.map_some, hsame, hlen]
      · push Not at hhit
        have hview := view_of_length_ne hcache hhit
        have hcache' : CacheOf s.view.2 (some s.history) := by
          rw [hview]
          rfl
        constructor
        · rintro ⟨-, hreads⟩
          exact ⟨fun b hb hlen => absurd hlen (hhit b hb), (hrest hcache').mp hreads⟩
        · rintro ⟨-, hchain⟩
          refine ⟨?_, (hrest hcache').mpr hchain⟩
          rw [hview]
    · rw [ReadsCoherent, viewReads_cons hop]
      refine ih (op.apply s) lastRead ?_
      rw [CacheOf, viewCache_apply hop]
      exact hcache

/-- **When the cached view is right**: for a state without a cached view, as it is created
and restored, every read returns the view of the history of that moment exactly when
consecutive reads of histories of equal length meet equal views. -/
theorem readsCoherent_iff (s : State) (hs : s.viewCache = none) (ops : List HistoryOp) :
    ReadsCoherent s ops ↔
      ((viewReads s ops).map ViewRead.history).IsChain SameLengthSameView :=
  readsCoherent_iff_isChain ops s none hs

/-- Reads of a history that only grows are right. -/
theorem readsCoherent_taskAndThought :
    ReadsCoherent {} [.addHistory { id := 0, body := .action (.message { content := "task" }) },
      .readView, .addHistory { id := 1, body := .action (.agentThink "") }, .readView] := by
  refine (readsCoherent_iff {} rfl _).mpr ?_
  refine .cons_cons ?_ (.singleton _)
  intro hlen
  revert hlen
  decide

/-- A loop recovery takes back one event and the user sends a message instead: the history
has the old length, and the view of the old history is returned. -/
theorem readView_stale_after_recovery :
    ¬ ReadsCoherent {}
      [.addHistory { id := 0, body := .action (.message { content := "task" }) },
       .addHistory { id := 1, body := .action (.agentThink "") },
       .readView, .truncateMemory 1,
       .addHistory { id := 2, body := .action (.message { content := "go on" }) },
       .readView] := by
  unfold ReadsCoherent
  decide

end OpenHands
