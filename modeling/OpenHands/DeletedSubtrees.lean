/-
# Deleting a conversation with what was started below it

Conversations are started below others to any depth, and only below one that the user sees.
The deletion of a conversation takes those out that were started directly below it, as far as
the user sees them.  What is left is a forest without anything below the conversation exactly if
there was nothing else below it.
-/
import OpenHands.ConversationDeletions
import OpenHands.Lib.Forest

namespace OpenHands.ConversationDeletions

open AppServer Forest Run

/-! ## Forests that starts create -/

def parentOf (table : Table) (x : String) : Option String :=
  (table.get? x).bind (·.parentConversationId)

/-- A start by a user, with what is answered to it. -/
structure Start where
  userId : Option String
  request : StartRequest
  started : Option Started

/-- A start; the id that the agent server makes up is not in use. -/
def performStart (sdk : Sdk) (table : Table) (start : Start) : Table :=
  if start.started.any fun started => table.contains started.conversationId then table
  else startAppConversation sdk start.userId start.request start.started table

/-- The table after a number of starts. -/
def created (sdk : Sdk) (starts : List Start) : Table :=
  run (performStart sdk) PyDict.empty starts

/-- Parents are stored, and were so before. -/
structure IsForest (table : Table) : Prop where
  closed : ∀ x row, table.get? x = some row → ∀ p, row.parentConversationId = some p →
    table.contains p = true
  ranked : ∃ rank, Ranked (parentOf table) rank

/-- What the deletion of a conversation is to leave of a table. -/
structure CascadeComplete (table table' : Table) (c : String) : Prop where
  noDescendant : ∀ x, table'.contains x = true → ¬ Descends (parentOf table) c x
  parents : ∀ x row, table'.get? x = some row → ∀ p, row.parentConversationId = some p →
    table'.contains p = true
  outside : ∀ x row, table.get? x = some row → x ≠ c → ¬ Descends (parentOf table) c x →
    table'.get? x = some row

/-- There are only conversations directly below, and the user sees all of them. -/
def OnlySeenChildren (userId : Option String) (table : Table) (c : String) : Prop :=
  ∀ x row, table.get? x = some row → Descends (parentOf table) c x →
    row.parentConversationId = some c ∧ row.visible userId = true

variable {sdk : Sdk} {userId : Option String} {table : Table} {x c : String}

theorem contains_iff : table.contains x = true ↔ ∃ row, table.get? x = some row := by
  rw [← PyDict.isSome_get?, Option.isSome_iff_exists]

theorem saveAppConversationInfo_cases (sdk : Sdk) (userId : Option String)
    (info : AppConversationInfo) (table : Table) :
    (saveAppConversationInfo sdk userId info table).getD table = table ∨
      (saveAppConversationInfo sdk userId info table).getD table
        = table.set info.id (sdk.toStored info (table.get? info.id)) := by
  unfold saveAppConversationInfo
  dsimp only
  split
  next => exact Or.inr rfl
  next => exact Or.inl rfl

theorem contains_of_getAppConversationInfo {info : AppConversationInfo}
    (h : getAppConversationInfo sdk userId table x = some (some info)) :
    table.contains x = true := by
  unfold getAppConversationInfo at h
  cases hrow : (table.get? x).filter (·.visible userId) with
  | none =>
    rw [hrow] at h
    cases h
  | some row => exact contains_iff.mpr ⟨row, (Option.filter_eq_some_iff.mp hrow).1⟩

/-- What a start does: nothing, or it adds a row below a conversation that is stored. -/
theorem startAppConversation_cases (sdk : Sdk) (userId : Option String) (request : StartRequest)
    (started : Option Started) (table : Table) :
    startAppConversation sdk userId request started table = table ∨
      ∃ answer row, started = some answer ∧
        startAppConversation sdk userId request started table
          = table.set answer.conversationId row ∧
        ∀ p, row.parentConversationId = some p → table.contains p = true := by
  unfold startAppConversation
  cases hparent : request.parentConversationId with
  | none =>
    cases started with
    | none => exact Or.inl rfl
    | some answer =>
      refine (saveAppConversationInfo_cases sdk userId _ table).imp id fun hset => ?_
      exact ⟨answer, _, rfl, hset, fun p hp => by cases hparent.symm.trans hp⟩
  | some parentConversationId =>
    dsimp only
    cases hinfo : getAppConversationInfo sdk userId table parentConversationId with
    | none => exact Or.inl rfl
    | some found =>
      cases found with
      | none => exact Or.inl rfl
      | some parentInfo =>
        cases started with
        | none => exact Or.inl rfl
        | some answer =>
          refine (saveAppConversationInfo_cases sdk userId _ table).imp id fun hset => ?_
          refine ⟨answer, _, rfl, hset, fun p hp => ?_⟩
          have heq : parentConversationId = p := Option.some.inj (hparent.symm.trans hp)
          exact heq ▸ contains_of_getAppConversationInfo hinfo

/-- The parents after a row was added. -/
theorem parentOf_set (table : Table) (k : String) (row : StoredConversationMetadata) :
    parentOf (table.set k row) = Function.update (parentOf table) k row.parentConversationId := by
  funext x
  unfold parentOf
  rw [PyDict.get?_set]
  by_cases hx : x = k
  · rw [if_pos hx, hx, Function.update_self, Option.bind_some]
  · rw [if_neg hx, Function.update_of_ne hx]

/-- A start keeps the forest. -/
theorem IsForest.performStart (h : IsForest table) (start : Start) :
    IsForest (performStart sdk table start) := by
  unfold ConversationDeletions.performStart
  split
  next => exact h
  next hnew =>
    rcases startAppConversation_cases sdk start.userId start.request start.started table with
      hsame | ⟨answer, row, hstarted, hset, hparent⟩
    · rw [hsame]
      exact h
    · rw [hstarted, Option.any_some] at hnew
      rw [hset]
      obtain ⟨rank, hrank⟩ := h.ranked
      -- the id is new, so no row that is stored has it as its parent
      have hkeeps : ∀ p, table.contains p = true →
          (table.set answer.conversationId row).contains p = true := by
        intro p hp
        obtain ⟨found, hget⟩ := contains_iff.mp hp
        refine contains_iff.mpr ⟨found, ?_⟩
        rw [PyDict.get?_set, if_neg fun heq => hnew (by rw [← heq]; exact hp), hget]
      constructor
      · intro x found hget p hp
        rw [PyDict.get?_set] at hget
        split at hget
        next =>
          rw [← Option.some.inj hget] at hp
          exact hkeeps p (hparent p hp)
        next => exact hkeeps p (h.closed x found hget p hp)
      · rw [parentOf_set]
        refine ⟨_, hrank.update (fun y hy => hnew ?_) fun heq => hnew (hparent _ heq)⟩
        obtain ⟨found, hget, hp⟩ := Option.bind_eq_some_iff.mp hy
        exact h.closed y found hget _ hp

/-- Starts create a forest. -/
theorem isForest_created (sdk : Sdk) (starts : List Start) : IsForest (created sdk starts) := by
  have hempty : IsForest (PyDict.empty : Table) :=
    ⟨fun x row hget => (by cases hget), fun _ => 0, fun x p hp => (by cases hp)⟩
  exact run_invariant (C := fun _ _ => True) (fun _ start h _ => h.performStart start) hempty
    fun _ _ => trivial

/-! ## What a deletion leaves of a forest -/

theorem parentOf_eq_some_iff {p : String} : parentOf table x = some p ↔
    ∃ row, table.get? x = some row ∧ row.parentConversationId = some p :=
  Option.bind_eq_some_iff

/-- What a stored row says of its parent and of who sees it. -/
theorem parentOf_iff_of_get? {row : StoredConversationMetadata} (hget : table.get? x = some row)
    (p : String) : parentOf table x = some p ↔ row.parentConversationId = some p := by
  unfold parentOf
  rw [hget, Option.bind_some]

theorem seen_iff_of_get? {row : StoredConversationMetadata} (hget : table.get? x = some row) :
    (getAppConversation userId table x).isSome = true ↔ row.visible userId = true := by
  unfold getAppConversation
  rw [hget]
  cases hv : row.visible userId with
  | true => simp [Option.filter, hv]
  | false => simp [Option.filter, hv]

theorem onlySeenChildren_iff : OnlySeenChildren userId table c ↔
    ∀ x, table.contains x = true → Descends (parentOf table) c x →
      parentOf table x = some c ∧ (getAppConversation userId table x).isSome = true := by
  constructor
  · intro honly x hx hbelow
    obtain ⟨row, hget⟩ := contains_iff.mp hx
    rw [parentOf_iff_of_get? hget, seen_iff_of_get? hget]
    exact honly x row hget hbelow
  · intro honly x row hget hbelow
    rw [← parentOf_iff_of_get? hget, ← seen_iff_of_get? hget]
    exact honly x (contains_iff.mpr ⟨row, hget⟩) hbelow

section Deletion

variable {startTasks : List StartTask}

/-- A deletion that succeeds is one of a conversation that the user sees. -/
theorem seen_of_deleted {faults : Faults} {db : Database}
    (h : (deleteAppConversation userId c faults db).2 = true) :
    (getAppConversation userId db.conversations c).isSome = true := by
  by_contra hunseen
  rw [deleteAppConversation_of_not_reaches fun hboth => hunseen hboth.2] at h
  cases h

/-- What a deletion without a failing step leaves. -/
theorem get?_deleted_iff {row : StoredConversationMetadata}
    (h : (deleteAppConversation userId c {} ⟨table, startTasks⟩).2 = true) :
    (deleteAppConversation userId c {} ⟨table, startTasks⟩).1.conversations.get? x = some row ↔
      table.get? x = some row ∧
        ¬ (row.parentConversationId = some c ∧ row.visible userId = true) ∧ x ≠ c := by
  have hreach : Faults.Reaches {} := ⟨rfl, by decide, rfl⟩
  rw [get?_deleteAppConversation_iff hreach (seen_of_deleted h)]
  refine and_congr_right fun hget => and_congr (not_congr ?_) (not_congr ?_)
  · constructor
    · rintro ⟨⟨row', hrow', hparent⟩, -⟩
      obtain ⟨hget', hvisible⟩ := Option.filter_eq_some_iff.mp hrow'
      obtain rfl : row = row' := Option.some.inj (hget.symm.trans hget')
      exact ⟨hparent, hvisible⟩
    · rintro ⟨hparent, hvisible⟩
      exact ⟨⟨row, Option.filter_eq_some_iff.mpr ⟨hget, hvisible⟩, hparent⟩, Or.inl rfl⟩
  · exact and_iff_left (Or.inl rfl)

/-- A conversation is removed if it is the one that is deleted or is seen directly below it. -/
theorem removed_iff (h : (deleteAppConversation userId c {} ⟨table, startTasks⟩).2 = true)
    (hx : table.contains x = true) :
    ¬ (deleteAppConversation userId c {} ⟨table, startTasks⟩).1.conversations.contains x = true ↔
      x = c ∨ parentOf table x = some c ∧ (getAppConversation userId table x).isSome = true := by
  obtain ⟨row, hget⟩ := contains_iff.mp hx
  rw [contains_iff, parentOf_iff_of_get? hget, seen_iff_of_get? hget]
  constructor
  · intro hgone
    by_contra hkept
    rw [not_or] at hkept
    exact hgone ⟨row, (get?_deleted_iff h).mpr ⟨hget, hkept.2, hkept.1⟩⟩
  · rintro hgone ⟨row', hget'⟩
    obtain ⟨hsame, hchild, hne⟩ := (get?_deleted_iff h).mp hget'
    obtain rfl : row = row' := Option.some.inj (hget.symm.trans hsame)
    exact hgone.elim hne hchild

end Deletion

/-- **After a deletion without a failing step nothing is left below the conversation, and all
parents are stored, if and only if there were only conversations directly below it that the user
sees.** -/
theorem cascadeComplete_iff (sdk : Sdk) (starts : List Start) (startTasks : List StartTask)
    (userId : Option String) (c : String)
    (h : (deleteAppConversation userId c {} ⟨created sdk starts, startTasks⟩).2 = true) :
    CascadeComplete (created sdk starts)
        (deleteAppConversation userId c {} ⟨created sdk starts, startTasks⟩).1.conversations c ↔
      OnlySeenChildren userId (created sdk starts) c := by
  have hforest := isForest_created sdk starts
  generalize created sdk starts = table at h hforest ⊢
  obtain ⟨rank, hrank⟩ := hforest.ranked
  have hclosed : ∀ x, table.contains x = true → ∀ p, parentOf table x = some p →
      table.contains p = true := by
    intro x _ p hparent
    obtain ⟨row, hget, hp⟩ := parentOf_eq_some_iff.mp hparent
    exact hforest.closed x row hget p hp
  have hremoval := removal_iff hclosed (not_descends_self hrank c) fun x hx => removed_iff h hx
  simp only [not_not] at hremoval
  rw [onlySeenChildren_iff, ← hremoval]
  constructor
  · intro hcomplete
    have hparents : ∀ x, table.contains x = true → (deleteAppConversation userId c {}
        ⟨table, startTasks⟩).1.conversations.contains x = true → ∀ p, parentOf table x = some p →
        table.contains p = true ∧ (deleteAppConversation userId c {}
          ⟨table, startTasks⟩).1.conversations.contains p = true := by
      intro x hx hkept p hp
      obtain ⟨row', hget'⟩ := contains_iff.mp hkept
      obtain ⟨row'', hget'', hparent⟩ := parentOf_eq_some_iff.mp hp
      obtain rfl : row' = row'' :=
        Option.some.inj (((get?_deleted_iff h).mp hget').1.symm.trans hget'')
      exact ⟨hclosed x hx p hp, hcomplete.parents x row' hget' p hparent⟩
    exact ⟨fun x _ hkept => hcomplete.noDescendant x hkept, hparents⟩
  · rintro ⟨hnone, hparents⟩
    refine ⟨fun x hkept => ?_, fun x row hget p hp => ?_, fun x row hget hne hbelow => ?_⟩
    · obtain ⟨row, hget⟩ := contains_iff.mp hkept
      exact hnone x (contains_iff.mpr ⟨row, ((get?_deleted_iff h).mp hget).1⟩) hkept
    · have hstored := ((get?_deleted_iff h).mp hget).1
      exact (hparents x (contains_iff.mpr ⟨row, hstored⟩) (contains_iff.mpr ⟨row, hget⟩) p
        (parentOf_eq_some_iff.mpr ⟨row, hstored, hp⟩)).2
    · refine (get?_deleted_iff h).mpr ⟨hget, fun hchild => hbelow (.child ?_), hne⟩
      exact parentOf_eq_some_iff.mpr ⟨row, hget, hchild.1⟩

/-! ## A conversation below one that is below another -/

/-- A start by a user, with the id that it gets. -/
def startBelow (parentConversationId : Option String) (conversationId : String) : Start where
  userId := some "alice"
  request := { parentConversationId }
  started := some
    { conversationId
      newSandboxId := "sandbox"
      llmModel := "model"
      now := 0 }

/-- A conversation and one that was started below it, in its sandbox. -/
def rootAndChild : List Start :=
  [startBelow none "root", startBelow (some "root") "child"]

theorem get?_rootAndChild {row : StoredConversationMetadata}
    (hget : (created plainSdk rootAndChild).get? x = some row) :
    x = "root" ∧ row.parentConversationId = none ∨
      x = "child" ∧ row.parentConversationId = some "root" ∧ row.visible (some "alice") = true := by
  rcases List.mem_cons.mp (PyDict.mem_entries_of_get? hget) with hroot | hchild
  · obtain ⟨hx, hrow⟩ := Prod.mk.inj hroot
    exact Or.inl ⟨hx, hrow ▸ rfl⟩
  · obtain ⟨hx, hrow⟩ := Prod.mk.inj (List.mem_singleton.mp hchild)
    exact Or.inr ⟨hx, hrow ▸ rfl, hrow ▸ (by decide)⟩

/-- A conversation is deleted with the one below it. -/
theorem cascadeComplete_iff_child : CascadeComplete (created plainSdk rootAndChild)
    (deleteAppConversation (some "alice") "root" {}
      ⟨created plainSdk rootAndChild, []⟩).1.conversations "root" := by
  refine (cascadeComplete_iff plainSdk rootAndChild [] (some "alice") "root"
    (by decide)).mpr fun x row hget hbelow => ?_
  rcases get?_rootAndChild hget with ⟨rfl, hparent⟩ | ⟨-, hchild⟩
  · -- the root is below nothing
    have hnone : ∀ p, parentOf (created plainSdk rootAndChild) "root" ≠ some p := by
      intro p hp
      cases hparent.symm.trans ((parentOf_iff_of_get? hget p).mp hp)
    cases hbelow with
    | child h => exact absurd h (hnone _)
    | step h _ => exact absurd h (hnone _)
  · exact hchild

/-- What is below a sub-conversation stays when the conversation above both is deleted. -/
theorem not_cascadeComplete_nested :
    (deleteAppConversation (some "alice") "root" {} ⟨created plainSdk [startBelow none "root",
        startBelow (some "root") "child", startBelow (some "child") "leaf"], []⟩).2 = true ∧
      ¬ CascadeComplete (created plainSdk [startBelow none "root",
          startBelow (some "root") "child", startBelow (some "child") "leaf"])
        (deleteAppConversation (some "alice") "root" {} ⟨created plainSdk [startBelow none "root",
          startBelow (some "root") "child", startBelow (some "child") "leaf"], []⟩).1.conversations
        "root" := by
  refine ⟨by decide, fun hcomplete => ?_⟩
  have hleaf : parentOf (created plainSdk [startBelow none "root", startBelow (some "root") "child",
    startBelow (some "child") "leaf"]) "leaf" = some "child" := by decide
  have hchild : parentOf (created plainSdk [startBelow none "root",
    startBelow (some "root") "child", startBelow (some "child") "leaf"]) "child"
      = some "root" := by decide
  exact hcomplete.noDescendant "leaf" (by decide) (.step hleaf (.child hchild))

end OpenHands.ConversationDeletions
