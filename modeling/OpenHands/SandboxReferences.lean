/-
# Sandboxes of deleted conversations

The request to delete a conversation deletes it, commits, and leaves its sandbox to a task in
the background, which deletes the sandbox whatever the deletion of the conversation returned and
whoever else is in the sandbox.

Sandboxes of conversations that are left stay as long as every request that comes to its end
deletes its conversation without a failing step, together with all others in the sandbox.
-/
import OpenHands.DeletedSubtrees

namespace OpenHands.ConversationDeletions

open AppServer Run

/-- A task in the background: the sandbox that it is to delete, and whether the conversation was
deleted. -/
structure Scheduled where
  sandboxId : String
  deleted : Bool
  deriving DecidableEq, Repr

/-- What goes wrong in a request. -/
structure RequestFaults where
  /-- `get_app_conversation_info`. -/
  lookup : Bool := false
  deletion : Faults := {}
  commit : Bool := false

/-- `_try_delete_v1_conversation`: what is committed, the result, and the task. -/
def tryDeleteV1Conversation (userId : Option String) (conversationId : String)
    (faults : RequestFaults) (db : Database) : Database × Option Bool × Option Scheduled :=
  if faults.lookup then (db, none, none)
  else
    match getAppConversation userId db.conversations conversationId with
    | none => (db, none, none)
    | some row =>
      match row.sandboxId with
      -- a conversation of the app server has a sandbox, or it cannot be read
      | none => (db, none, none)
      | some sandboxId =>
        let deleted := deleteAppConversation userId conversationId faults.deletion db
        if faults.commit then (db, some deleted.2, none)
        else (deleted.1, some deleted.2, some ⟨sandboxId, deleted.2⟩)

/-- A request, or a task in the background with what `delete_sandbox` returns to it. -/
inductive Move where
  | request (userId : Option String) (conversationId : String) (faults : RequestFaults)
  | background (task : ℕ) (result : Bool)

structure World where
  db : Database
  pending : List Scheduled

namespace World

variable (w : World)

def perform : Move → World
  | .request userId conversationId faults =>
    let answer := tryDeleteV1Conversation userId conversationId faults w.db
    { db := answer.1, pending := w.pending ++ answer.2.2.toList }
  | .background task _ => { w with pending := w.pending.eraseIdx task }

/-- No conversation that is stored is in the sandbox. -/
def Unreferenced (sandboxId : String) : Prop :=
  ∀ x row, w.db.conversations.get? x = some row → row.sandboxId ≠ some sandboxId

/-- A sandbox is deleted only after the deletion of its conversation, and if no one else is left
in it. -/
def KeepsSandboxes : Move → Prop
  | .request .. => True
  | .background task result => result = true → ∀ scheduled ∈ w.pending[task]?,
    scheduled.deleted = true ∧ w.Unreferenced scheduled.sandboxId

/-- A request that comes to its end deletes its conversation without a failing step, and with it
all others in the sandbox. -/
def OwnsSandbox : Move → Prop
  | .background .. => True
  | .request userId conversationId faults =>
    faults.lookup = false → faults.commit = false → ∀ row sandboxId,
      getAppConversation userId w.db.conversations conversationId = some row →
      row.sandboxId = some sandboxId → row.parentConversationId ≠ some conversationId ∧
      faults.deletion.Reaches ∧ faults.deletion.conversation = none ∧
      ∀ x other, w.db.conversations.get? x = some other → other.sandboxId = some sandboxId →
        x = conversationId ∨ other.parentConversationId = some conversationId ∧
          other.visible userId = true ∧ Deletes (faults.deletion.subConversation x)

/-- What waits to be deleted may be deleted. -/
def Inv : Prop :=
  ∀ scheduled ∈ w.pending, scheduled.deleted = true ∧ w.Unreferenced scheduled.sandboxId

end World

/-! ## One request -/

variable {userId : Option String} {conversationId sandboxId x : String} {db : Database}
  {row other : StoredConversationMetadata} {w : World}

/-- A request takes rows out and changes none. -/
theorem get?_of_tryDelete {faults : RequestFaults}
    (h : (tryDeleteV1Conversation userId conversationId faults db).1.conversations.get? x
      = some row) : db.conversations.get? x = some row := by
  unfold tryDeleteV1Conversation at h
  split at h
  next => exact h
  next =>
    split at h
    next => exact h
    next =>
      split at h
      next => exact h
      next =>
        dsimp only at h
        split at h
        next => exact h
        next => exact get?_of_deleteAppConversation h

theorem tryDelete_eq {faults : RequestFaults} (hlookup : faults.lookup = false)
    (hcommit : faults.commit = false)
    (hrow : getAppConversation userId db.conversations conversationId = some row)
    (hsandbox : row.sandboxId = some sandboxId) :
    tryDeleteV1Conversation userId conversationId faults db
      = ((deleteAppConversation userId conversationId faults.deletion db).1,
        some (deleteAppConversation userId conversationId faults.deletion db).2,
        some ⟨sandboxId, (deleteAppConversation userId conversationId faults.deletion db).2⟩) := by
  unfold tryDeleteV1Conversation
  simp only [hlookup, hrow, hsandbox, hcommit]
  rfl

/-- A request schedules one task if it comes to its end, and none otherwise. -/
theorem scheduled_of_tryDelete {faults : RequestFaults} {scheduled : Scheduled}
    (h : (tryDeleteV1Conversation userId conversationId faults db).2.2 = some scheduled) :
    faults.lookup = false ∧ faults.commit = false ∧
      ∃ row, getAppConversation userId db.conversations conversationId = some row ∧
        row.sandboxId = some scheduled.sandboxId ∧
        scheduled.deleted
          = (deleteAppConversation userId conversationId faults.deletion db).2 ∧
        (tryDeleteV1Conversation userId conversationId faults db).1
          = (deleteAppConversation userId conversationId faults.deletion db).1 := by
  unfold tryDeleteV1Conversation at h ⊢
  cases hlookup : faults.lookup with
  | true =>
    rw [hlookup] at h
    cases h
  | false =>
    rw [hlookup] at h
    cases hrow : getAppConversation userId db.conversations conversationId with
    | none =>
      rw [hrow] at h
      cases h
    | some row =>
      cases hsandbox : row.sandboxId with
      | none =>
        simp only [hrow, hsandbox] at h
        cases h
      | some sandboxId =>
        cases hcommit : faults.commit with
        | true =>
          simp only [hrow, hsandbox, hcommit] at h
          cases h
        | false =>
          simp only [hrow, hsandbox, hcommit] at h ⊢
          obtain rfl := Option.some.inj h
          exact ⟨trivial, trivial, row, rfl, hsandbox, rfl, rfl⟩

/-- What is left in a sandbox after the deletion of its conversation. -/
theorem unreferenced_iff {faults : Faults} (hreach : faults.Reaches)
    (hown : faults.conversation = none)
    (hseen : getAppConversation userId db.conversations conversationId = some row) :
    (∀ x other, (deleteAppConversation userId conversationId faults db).1.conversations.get? x
        = some other → other.sandboxId ≠ some sandboxId) ↔
      ∀ x other, db.conversations.get? x = some other → other.sandboxId = some sandboxId →
        x = conversationId ∨ other.parentConversationId = some conversationId ∧
          other.visible userId = true ∧ Deletes (faults.subConversation x) := by
  have hiff : ∀ x other, db.conversations.get? x = some other →
      ((deleteAppConversation userId conversationId faults db).1.conversations.get? x = some other ↔
        ¬ (x = conversationId ∨ other.parentConversationId = some conversationId ∧
          other.visible userId = true ∧ Deletes (faults.subConversation x))) := by
    intro x other hget
    rw [get?_deleteAppConversation_iff hreach (by rw [hseen]; rfl), and_iff_right hget, hown,
      ← not_or, or_comm]
    refine not_congr (or_congr (and_iff_left (Or.inl rfl)) ?_)
    constructor
    · rintro ⟨⟨row', hrow', hparent⟩, hdeletes⟩
      obtain ⟨hget', hvisible⟩ := Option.filter_eq_some_iff.mp hrow'
      obtain rfl : other = row' := Option.some.inj (hget.symm.trans hget')
      exact ⟨hparent, hvisible, hdeletes⟩
    · rintro ⟨hparent, hvisible, hdeletes⟩
      exact ⟨⟨other, Option.filter_eq_some_iff.mpr ⟨hget, hvisible⟩, hparent⟩, hdeletes⟩
  constructor
  · intro h x other hget hsandbox
    by_contra hkept
    exact h x other ((hiff x other hget).mpr hkept) hsandbox
  · intro h x other hget hsandbox
    have hstored := get?_of_deleteAppConversation hget
    exact (hiff x other hstored).mp hget (h x other hstored hsandbox)

/-! ## Runs -/

namespace World

/-- What a request schedules may be deleted, if the condition holds. -/
theorem scheduled_of_ownsSandbox {faults : RequestFaults} {scheduled : Scheduled}
    (h : w.OwnsSandbox (.request userId conversationId faults))
    (hscheduled : (tryDeleteV1Conversation userId conversationId faults w.db).2.2
      = some scheduled) :
    scheduled.deleted = true ∧
      (w.perform (.request userId conversationId faults)).Unreferenced scheduled.sandboxId := by
  obtain ⟨hlookup, hcommit, row, hrow, hsandbox, hdeleted, hdb⟩ :=
    scheduled_of_tryDelete hscheduled
  obtain ⟨hself, hreach, hown, hothers⟩ := h hlookup hcommit row _ hrow hsandbox
  refine ⟨?_, fun x other hget => ?_⟩
  · rw [hdeleted, deleteAppConversation_result hreach hrow hself, hown]
    rfl
  · dsimp only [perform] at hget
    rw [hdb] at hget
    exact (unreferenced_iff hreach hown hrow).mpr hothers x other hget

/-- No one comes into a sandbox by a request. -/
theorem Unreferenced.perform (h : w.Unreferenced sandboxId) (move : Move) :
    (w.perform move).Unreferenced sandboxId := by
  intro x row hget
  cases move with
  | request userId conversationId faults => exact h x row (get?_of_tryDelete hget)
  | background task result => exact h x row hget

theorem Inv.perform (h : w.Inv) (move : Move) (howns : w.OwnsSandbox move) :
    (w.perform move).Inv := by
  intro scheduled hmem
  cases move with
  | request userId conversationId faults =>
    rcases List.mem_append.mp hmem with hold | hnew
    · -- a sandbox without conversations gets none
      obtain ⟨hdeleted, hunreferenced⟩ := h scheduled hold
      exact ⟨hdeleted, hunreferenced.perform _⟩
    · exact scheduled_of_ownsSandbox howns (Option.mem_toList.mp hnew)
  | background task result =>
    obtain ⟨hdeleted, hunreferenced⟩ := h scheduled (List.mem_of_mem_eraseIdx hmem)
    exact ⟨hdeleted, hunreferenced.perform (.background task result)⟩

theorem Inv.keepsSandboxes (h : w.Inv) (move : Move) : w.KeepsSandboxes move := by
  cases move with
  | request userId conversationId faults => trivial
  | background task result =>
    exact fun _ scheduled hscheduled => h scheduled (List.mem_of_getElem? hscheduled)

/-- **In a run whose requests meet the condition no sandbox is deleted that is still in use, and
none after a deletion that failed.** -/
theorem keepsSandboxes_run (db : Database) (moves : List Move)
    (h : ∀ p ∈ steps perform ⟨db, []⟩ moves, p.1.OwnsSandbox p.2) :
    ∀ p ∈ steps perform ⟨db, []⟩ moves, p.1.KeepsSandboxes p.2 := by
  have hinv : ∀ p ∈ steps perform ⟨db, []⟩ moves, p.1.Inv :=
    forall_steps_of_invariant (fun _ move hinv howns => hinv.perform move howns)
      (fun _ hmem => (List.not_mem_nil hmem).elim) h
  exact fun p hp => (hinv p hp).keepsSandboxes p.2

/-- A request that does not meet the condition is followed by a deletion that should not be. -/
theorem ownsSandbox_iff {faults : RequestFaults}
    (hself : ∀ row, w.db.conversations.get? conversationId = some row →
      row.parentConversationId ≠ some conversationId) :
    w.OwnsSandbox (.request userId conversationId faults) ↔
      (w.perform (.request userId conversationId faults)).KeepsSandboxes
        (.background w.pending.length true) := by
  have htask : (w.perform (.request userId conversationId faults)).pending[w.pending.length]?
      = (tryDeleteV1Conversation userId conversationId faults w.db).2.2 := by
    dsimp only [perform]
    rw [List.getElem?_append_right (Nat.le_refl _), Nat.sub_self]
    cases (tryDeleteV1Conversation userId conversationId faults w.db).2.2 with
    | none => rfl
    | some scheduled => rfl
  constructor
  · intro howns _ scheduled hscheduled
    rw [htask] at hscheduled
    exact scheduled_of_ownsSandbox howns hscheduled
  · intro hkeeps hlookup hcommit row sandboxId hrow hsandbox
    have heq := tryDelete_eq hlookup hcommit hrow hsandbox
    obtain ⟨hdeleted, hunreferenced⟩ := hkeeps rfl ⟨sandboxId, _⟩ (by rw [htask, heq]; rfl)
    have hparent := hself row (Option.filter_eq_some_iff.mp hrow).1
    have hreach : faults.deletion.Reaches := by
      -- otherwise the deletion answers `False` and is scheduled all the same
      by_contra hnot
      rw [deleteAppConversation_of_not_reaches fun hboth => hnot hboth.1] at hdeleted
      cases hdeleted
    have hown : faults.deletion.conversation = none :=
      of_decide_eq_true ((deleteAppConversation_result hreach hrow hparent).symm.trans hdeleted)
    refine ⟨hparent, hreach, hown, (unreferenced_iff hreach hown hrow).mp fun x other hget => ?_⟩
    refine hunreferenced x other ?_
    dsimp only [perform]
    rw [heq]
    exact hget

end World

/-! ## Two conversations in a sandbox, and a deletion that fails -/

/-- A conversation is deleted with the one below it, and then the sandbox of both. -/
theorem keepsSandboxes_run_child :
    (World.perform ⟨⟨created plainSdk rootAndChild, []⟩, []⟩
      (.request (some "alice") "root" {})).KeepsSandboxes (.background 0 true) := by
  refine World.keepsSandboxes_run ⟨created plainSdk rootAndChild, []⟩
    [.request (some "alice") "root" {}, .background 0 true] (fun p hp => ?_) _
    (List.mem_cons_of_mem _ (List.mem_singleton_self _))
  simp only [steps_cons, steps_nil, List.mem_cons, List.not_mem_nil, or_false] at hp
  rcases hp with rfl | rfl
  · intro _ _ row sandboxId hrow _
    have hself : row.parentConversationId ≠ some "root" := by
      intro hparent
      rcases get?_rootAndChild (Option.filter_eq_some_iff.mp hrow).1 with ⟨-, hnone⟩ | ⟨hne, -⟩
      · cases hnone.symm.trans hparent
      · exact absurd hne (by decide)
    refine ⟨hself, ⟨rfl, by decide, rfl⟩, rfl, fun x other hother _ => ?_⟩
    rcases get?_rootAndChild hother with ⟨hx, -⟩ | ⟨-, hparent, hvisible⟩
    · exact Or.inl hx
    · exact Or.inr ⟨hparent, hvisible, Or.inl rfl⟩
  · trivial

/-- A sub-conversation takes the sandbox of the conversation above it away, and a conversation
whose deletion failed loses its sandbox. -/
theorem not_keepsSandboxes :
    (¬ ∀ p ∈ steps World.perform ⟨⟨created plainSdk [startBelow none "root",
        startBelow (some "root") "child"], []⟩, []⟩
      [.request (some "alice") "child" {}, .background 0 true], p.1.KeepsSandboxes p.2) ∧
    ¬ ∀ p ∈ steps World.perform ⟨⟨created plainSdk [startBelow none "root"], []⟩, []⟩
      [.request (some "alice") "root" { deletion := { getSubConversationIds := true } },
        .background 0 true], p.1.KeepsSandboxes p.2 := by
  constructor
  · intro h
    have hkeeps := h _ (List.mem_cons_of_mem _ (List.mem_singleton_self _))
    have hroot : ((World.perform ⟨⟨created plainSdk [startBelow none "root",
        startBelow (some "root") "child"], []⟩, []⟩ (.request (some "alice") "child"
        {})).db.conversations.get? "root").map (·.sandboxId) = some (some "sandbox") := by decide
    obtain ⟨row, hget, hsandbox⟩ := Option.map_eq_some_iff.mp hroot
    exact (hkeeps rfl _ rfl).2 "root" row hget hsandbox
  · intro h
    have hkeeps := h _ (List.mem_cons_of_mem _ (List.mem_singleton_self _))
    exact absurd (hkeeps rfl _ rfl).1 (by decide)

end OpenHands.ConversationDeletions
