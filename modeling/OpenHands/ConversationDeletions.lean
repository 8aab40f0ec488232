/-
# Starting and deleting conversations of the app server

A conversation may be started below another one, of which it takes over what the request does
not name: the sandbox first of all.  The deletion of a conversation deletes those that were
started directly below it, then itself.  A step of a deletion may raise, and then what the
session has seen before stays changed.
-/
import OpenHands.WebhookUpdates

namespace OpenHands.ConversationDeletions

open AppServer

/-! ## Starting -/

/-- What the start of a conversation reads of its request. -/
structure StartRequest where
  parentConversationId : Option String := none
  sandboxId : Option String := none
  selectedRepository : Option String := none
  selectedBranch : Option String := none
  gitProvider : Option ProviderType := none
  llmModel : Option String := none
  trigger : Option ConversationTrigger := none
  prNumber : List ℤ := []

/-- `_inherit_configuration_from_parent`. -/
def StartRequest.inheritConfigurationFromParent (request : StartRequest)
    (parentInfo : AppConversationInfo) : StartRequest :=
  { request with
    sandboxId := truthy request.sandboxId <|> some parentInfo.sandboxId
    selectedRepository := truthy request.selectedRepository <|> parentInfo.selectedRepository
    selectedBranch := truthy request.selectedBranch <|> parentInfo.selectedBranch
    gitProvider := request.gitProvider <|> parentInfo.gitProvider
    llmModel := truthy request.llmModel <|> truthy parentInfo.llmModel <|> request.llmModel }

/-- What the sandbox, its agent server and the clock answer to a start that succeeds. -/
structure Started where
  conversationId : String
  /-- The sandbox that is started where the request names none. -/
  newSandboxId : String
  llmModel : String
  now : ℤ

/-- `_start_app_conversation`: the table afterwards; `started` is `none` where a step fails. -/
def startAppConversation (sdk : Sdk) (userId : Option String) (request : StartRequest)
    (started : Option Started) (table : Table) : Table :=
  let inherited : Option StartRequest :=
    match request.parentConversationId with
    | none => some request
    | some parentConversationId =>
      match getAppConversationInfo sdk userId table parentConversationId with
      | some (some parentInfo) => some (request.inheritConfigurationFromParent parentInfo)
      | _ => none
  match inherited, started with
  | some request, some started =>
    let info : AppConversationInfo := {
      id := started.conversationId
      createdByUserId := userId
      sandboxId := (truthy request.sandboxId).getD started.newSandboxId
      selectedRepository := request.selectedRepository
      selectedBranch := request.selectedBranch
      gitProvider := request.gitProvider
      title := some (defaultTitle started.conversationId)
      trigger := request.trigger
      prNumber := request.prNumber
      llmModel := some started.llmModel
      parentConversationId := request.parentConversationId
      createdAt := started.now
      updatedAt := started.now }
    (saveAppConversationInfo sdk userId info table).getD table
  | _, _ => table

/-! ## Deleting -/

/-- What the deletion reads of a start task. -/
structure StartTask where
  createdByUserId : Option String
  appConversationId : Option String
  deriving DecidableEq, Repr

structure Database where
  conversations : Table
  startTasks : List StartTask

/-- The step that raises in the deletion of one conversation. -/
inductive Fault where
  | getAppConversation
  | deleteAppConversationInfo
  | deleteAppConversationStartTasks
  deriving DecidableEq, Repr

/-- The row is deleted, whatever comes after it. -/
def Deletes (fault : Option Fault) : Prop :=
  fault = none ∨ fault = some .deleteAppConversationStartTasks

instance (fault : Option Fault) : Decidable (Deletes fault) := inferInstanceAs (Decidable (_ ∨ _))

/-- What goes wrong in a deletion. -/
structure Faults where
  /-- The service is not the one of the database. -/
  notSql : Bool := false
  conversation : Option Fault := none
  getSubConversationIds : Bool := false
  subConversation : String → Option Fault := fun _ => none

/-- `get_app_conversation`: the row of a conversation that the user sees. -/
def getAppConversation (userId : Option String) (table : Table) (conversationId : String) :
    Option StoredConversationMetadata :=
  (table.get? conversationId).filter (·.visible userId)

def deleteAppConversationStartTasks (userId : Option String) (conversationId : String)
    (startTasks : List StartTask) : List StartTask × Bool :=
  let kept := startTasks.filter fun task =>
    ¬ (task.appConversationId = some conversationId ∧
      ∀ user ∈ truthy userId, task.createdByUserId = some user)
  (kept, kept.length < startTasks.length)

/-- `_delete_from_database`; `none` where it raises. -/
def deleteFromDatabase (userId : Option String) (conversationId : String) (fault : Option Fault)
    (db : Database) : Database × Option Bool :=
  if fault = some .deleteAppConversationInfo then (db, none)
  else
    let deletedInfo := deleteAppConversationInfo userId conversationId db.conversations
    if fault = some .deleteAppConversationStartTasks then
      ({ db with conversations := deletedInfo.1 }, none)
    else
      let deletedTasks := deleteAppConversationStartTasks userId conversationId db.startTasks
      ({ conversations := deletedInfo.1, startTasks := deletedTasks.1 },
        some (deletedInfo.2 || deletedTasks.2))

/-- One round of `_delete_sub_conversations`, which goes on after an error. -/
def deleteSubConversation (userId : Option String) (faults : String → Option Fault)
    (db : Database) (subId : String) : Database :=
  if faults subId = some .getAppConversation then db
  else
    match getAppConversation userId db.conversations subId with
    | none => db
    | some _ => (deleteFromDatabase userId subId (faults subId) db).1

def deleteSubConversations (userId : Option String) (parentConversationId : String)
    (faults : String → Option Fault) (db : Database) : Database :=
  (getSubConversationIds userId db.conversations parentConversationId).foldl
    (deleteSubConversation userId faults) db

/-- `delete_app_conversation`, with the session as it leaves it. -/
def deleteAppConversation (userId : Option String) (conversationId : String) (faults : Faults)
    (db : Database) : Database × Bool :=
  if faults.notSql ∨ faults.conversation = some .getAppConversation then (db, false)
  else
    match getAppConversation userId db.conversations conversationId with
    | none => (db, false)
    | some _ =>
      if faults.getSubConversationIds then (db, false)
      else
        let db := deleteSubConversations userId conversationId faults.subConversation db
        let deleted := deleteFromDatabase userId conversationId faults.conversation db
        (deleted.1, deleted.2.getD false)

/-! ## What a deletion leaves -/

variable {userId : Option String} {conversationId subId x : String} {table : Table}
  {db : Database} {faults : Faults} {fault : Option Fault} {row : StoredConversationMetadata}

theorem visible_of_getAppConversation
    (h : getAppConversation userId table conversationId = some row) :
    ∀ row, table.get? conversationId = some row → row.visible userId = true := by
  intro row' hget
  obtain ⟨hrow, hvisible⟩ := Option.filter_eq_some_iff.mp h
  rw [Option.some.inj (hget.symm.trans hrow)]
  exact hvisible

/-- A row that is gone already, or that the user sees, is gone after its deletion. -/
theorem get?_deleteAppConversationInfo
    (h : ∀ row, table.get? conversationId = some row → row.visible userId = true) (x : String) :
    (deleteAppConversationInfo userId conversationId table).1.get? x
      = if x = conversationId then none else table.get? x := by
  unfold deleteAppConversationInfo
  cases hget : table.get? conversationId with
  | none =>
    rw [if_neg (by simp)]
    by_cases hx : x = conversationId
    · rw [if_pos hx, hx, hget]
    · rw [if_neg hx]
  | some row =>
    have howner : (some row).any (fun row => ∀ user ∈ truthy userId, row.userId = user) = true :=
      decide_eq_true (of_decide_eq_true (h row hget)).2
    rw [if_pos howner, PyDict.get?_pop]

theorem get?_deleteFromDatabase
    (h : ∀ row, db.conversations.get? conversationId = some row → row.visible userId = true)
    (hfault : fault ≠ some .getAppConversation) (x : String) :
    (deleteFromDatabase userId conversationId fault db).1.conversations.get? x
      = if x = conversationId ∧ Deletes fault then none else db.conversations.get? x := by
  have hinfo := get?_deleteAppConversationInfo h x
  unfold deleteFromDatabase
  rcases fault with _ | _ | _ | _
  · simp only [and_iff_left (show Deletes none by decide)]
    exact hinfo
  · exact absurd rfl hfault
  · rw [if_neg (not_and_of_not_right _ (show ¬ Deletes (some .deleteAppConversationInfo) by decide))]
    rfl
  · simp only [and_iff_left (show Deletes (some .deleteAppConversationStartTasks) by decide)]
    exact hinfo

/-- The deletion of a conversation that the user sees succeeds unless a step raises. -/
theorem deleteFromDatabase_result
    (h : getAppConversation userId db.conversations conversationId = some row)
    (hfault : fault ≠ some .getAppConversation) :
    ((deleteFromDatabase userId conversationId fault db).2.getD false) = decide (fault = none) := by
  obtain ⟨hget, hvisible⟩ := Option.filter_eq_some_iff.mp h
  have hdeleted : (deleteAppConversationInfo userId conversationId db.conversations).2 = true := by
    unfold deleteAppConversationInfo
    have howner : (some row).any (fun row => ∀ user ∈ truthy userId, row.userId = user) = true :=
      decide_eq_true (of_decide_eq_true hvisible).2
    rw [hget, if_pos howner]
  unfold deleteFromDatabase
  rcases fault with _ | _ | _ | _
  · simp [hdeleted]
  · exact absurd rfl hfault
  · rfl
  · rfl

/-- A round takes out the sub-conversation that it is about, if the user sees it. -/
theorem get?_deleteSubConversation (userId : Option String) (faults : String → Option Fault) (db : Database)
    (subId x : String) :
    (deleteSubConversation userId faults db subId).conversations.get? x
      = if x = subId ∧ (getAppConversation userId db.conversations x).isSome ∧ Deletes (faults x)
        then none else db.conversations.get? x := by
  unfold deleteSubConversation
  by_cases hread : faults subId = some .getAppConversation
  · rw [if_pos hread, if_neg]
    rintro ⟨rfl, -, hdeletes⟩
    rw [hread] at hdeletes
    exact absurd hdeletes (by decide)
  rw [if_neg hread]
  cases hsub : getAppConversation userId db.conversations subId with
  | none =>
    rw [if_neg]
    rintro ⟨rfl, hseen, -⟩
    rw [hsub] at hseen
    cases hseen
  | some row =>
    dsimp only
    rw [get?_deleteFromDatabase (visible_of_getAppConversation hsub) hread]
    refine if_congr ⟨?_, ?_⟩ rfl rfl
    · rintro ⟨rfl, hdeletes⟩
      exact ⟨rfl, by rw [hsub]; rfl, hdeletes⟩
    · rintro ⟨rfl, -, hdeletes⟩
      exact ⟨rfl, hdeletes⟩

/-- The rounds take out what they are about; the induction is on their list. -/
theorem get?_foldl_deleteSubConversation (faults : String → Option Fault) (subIds : List String)
    (db : Database) (x : String) :
    (subIds.foldl (deleteSubConversation userId faults) db).conversations.get? x
      = if x ∈ subIds ∧ (getAppConversation userId db.conversations x).isSome ∧ Deletes (faults x)
        then none else db.conversations.get? x := by
  induction subIds generalizing db with
  | nil => rw [List.foldl_nil, if_neg fun h => List.not_mem_nil h.1]
  | cons subId subIds ih =>
    have hround := get?_deleteSubConversation userId faults db subId x
    have hseen : getAppConversation userId (deleteSubConversation userId faults db subId).conversations
        x = if x = subId ∧ (getAppConversation userId db.conversations x).isSome ∧
          Deletes (faults x) then none else getAppConversation userId db.conversations x := by
      unfold getAppConversation at hround ⊢
      rw [hround]
      split
      · rfl
      · rfl
    rw [List.foldl_cons, ih, hseen, hround]
    by_cases hx : x = subId ∧ (getAppConversation userId db.conversations x).isSome ∧
      Deletes (faults x)
    · rw [if_pos hx, if_pos hx, ite_self, if_pos ⟨by rw [hx.1]; exact List.mem_cons_self, hx.2⟩]
    · rw [if_neg hx, if_neg hx]
      refine if_congr ⟨fun h => ⟨List.mem_cons_of_mem _ h.1, h.2⟩, fun h => ⟨?_, h.2⟩⟩ rfl rfl
      exact (List.mem_cons.mp h.1).resolve_left fun heq => hx ⟨heq, h.2⟩

/-- The sub-conversations are those of the parent that the user sees. -/
theorem mem_getSubConversationIds {parentConversationId : String} :
    x ∈ getSubConversationIds userId table parentConversationId ↔
      ∃ row, getAppConversation userId table x = some row ∧
        row.parentConversationId = some parentConversationId := by
  unfold getSubConversationIds secureSelect getAppConversation
  simp only [List.mem_map, List.mem_filter, Option.filter_eq_some_iff, decide_eq_true_eq,
    Prod.exists, and_assoc]
  constructor
  · rintro ⟨_, row, hmem, hvisible, hparent, rfl⟩
    exact ⟨row, PyDict.get?_eq_some_iff.mpr hmem, hvisible, hparent⟩
  · rintro ⟨row, hget, hvisible, hparent⟩
    exact ⟨x, row, PyDict.get?_eq_some_iff.mp hget, hvisible, hparent, rfl⟩

/-- A sub-conversation that is deleted along with its parent. -/
def Cascades (userId : Option String) (table : Table) (parentConversationId : String)
    (faults : String → Option Fault) (x : String) : Prop :=
  (∃ row, getAppConversation userId table x = some row ∧
    row.parentConversationId = some parentConversationId) ∧ Deletes (faults x)

theorem get?_deleteSubConversations_iff (parentConversationId : String)
    (faults : String → Option Fault) (db : Database) (x : String) :
    (deleteSubConversations userId parentConversationId faults db).conversations.get? x = some row ↔
      db.conversations.get? x = some row ∧
        ¬ Cascades userId db.conversations parentConversationId faults x := by
  unfold deleteSubConversations
  rw [get?_foldl_deleteSubConversation]
  split
  next hgone =>
    refine iff_of_false (fun h => by cases h) fun h => h.2 ?_
    exact ⟨mem_getSubConversationIds.mp hgone.1, hgone.2.2⟩
  next hkept =>
    refine (and_iff_left fun hcascades => hkept ?_).symm
    obtain ⟨row, hrow, -⟩ := hcascades.1
    exact ⟨mem_getSubConversationIds.mpr hcascades.1, by rw [hrow]; rfl, hcascades.2⟩

/-- The deletion comes as far as the conversation's own row. -/
def Faults.Reaches (faults : Faults) : Prop :=
  faults.notSql = false ∧ faults.conversation ≠ some .getAppConversation ∧
    faults.getSubConversationIds = false

theorem deleteAppConversation_of_reaches (hreach : faults.Reaches)
    (hseen : getAppConversation userId db.conversations conversationId = some row) :
    deleteAppConversation userId conversationId faults db
      = ((deleteFromDatabase userId conversationId faults.conversation
          (deleteSubConversations userId conversationId faults.subConversation db)).1,
        (deleteFromDatabase userId conversationId faults.conversation
          (deleteSubConversations userId conversationId faults.subConversation db)).2.getD false) := by
  obtain ⟨hsql, hread, hlist⟩ := hreach
  unfold deleteAppConversation
  rw [if_neg (by rw [hsql]; simpa using hread), hseen]
  dsimp only
  rw [hlist]
  rfl

/-- A deletion that does not come that far changes nothing and returns `False`. -/
theorem deleteAppConversation_of_not_reaches
    (h : ¬ (faults.Reaches ∧ (getAppConversation userId db.conversations conversationId).isSome)) :
    deleteAppConversation userId conversationId faults db = (db, false) := by
  unfold deleteAppConversation
  by_cases hfirst : faults.notSql = true ∨ faults.conversation = some .getAppConversation
  · rw [if_pos hfirst]
  rw [if_neg hfirst]
  cases hseen : getAppConversation userId db.conversations conversationId with
  | none => rfl
  | some row =>
    have hlist : faults.getSubConversationIds = true := by
      by_contra hfalse
      rw [not_or, Bool.not_eq_true] at hfirst
      exact h ⟨⟨hfirst.1, hfirst.2, Bool.eq_false_iff.mpr hfalse⟩, by rw [hseen]; rfl⟩
    dsimp only
    rw [if_pos hlist]

/-- What is left when the deletion comes that far. -/
theorem get?_deleteAppConversation_iff (hreach : faults.Reaches)
    (hseen : (getAppConversation userId db.conversations conversationId).isSome = true) :
    (deleteAppConversation userId conversationId faults db).1.conversations.get? x = some row ↔
      db.conversations.get? x = some row ∧
        ¬ Cascades userId db.conversations conversationId faults.subConversation x ∧
        ¬ (x = conversationId ∧ Deletes faults.conversation) := by
  obtain ⟨own, hown⟩ := Option.isSome_iff_exists.mp hseen
  have hvisible : ∀ row, (deleteSubConversations userId conversationId faults.subConversation
      db).conversations.get? conversationId = some row → row.visible userId = true := by
    intro row hrow
    exact visible_of_getAppConversation hown row ((get?_deleteSubConversations_iff _ _ _ _).mp hrow).1
  rw [deleteAppConversation_of_reaches hreach hown]
  dsimp only
  rw [get?_deleteFromDatabase hvisible hreach.2.1, ← and_assoc, ← get?_deleteSubConversations_iff]
  split
  next hgone => exact iff_of_false (fun h => by cases h) fun h => h.2 hgone
  next hkept => exact (and_iff_left hkept).symm

/-- A deletion that comes that far returns `True` unless a step of its own raises. -/
theorem deleteAppConversation_result (hreach : faults.Reaches)
    (hseen : getAppConversation userId db.conversations conversationId = some row)
    (hself : row.parentConversationId ≠ some conversationId) :
    (deleteAppConversation userId conversationId faults db).2
      = decide (faults.conversation = none) := by
  rw [deleteAppConversation_of_reaches hreach hseen]
  obtain ⟨hget, hvisible⟩ := Option.filter_eq_some_iff.mp hseen
  have hstays : getAppConversation userId (deleteSubConversations userId conversationId
      faults.subConversation db).conversations conversationId = some row := by
    refine Option.filter_eq_some_iff.mpr ⟨(get?_deleteSubConversations_iff _ _ _ _).mpr ⟨hget, ?_⟩,
      hvisible⟩
    rintro ⟨⟨row', hrow', hparent⟩, -⟩
    rw [hseen] at hrow'
    rw [← Option.some.inj hrow'] at hparent
    exact hself hparent
  exact deleteFromDatabase_result hstays hreach.2.1

/-- A deletion takes rows out and changes none. -/
theorem get?_of_deleteAppConversation
    (h : (deleteAppConversation userId conversationId faults db).1.conversations.get? x
      = some row) : db.conversations.get? x = some row := by
  by_cases hboth : faults.Reaches ∧
      (getAppConversation userId db.conversations conversationId).isSome
  · exact ((get?_deleteAppConversation_iff hboth.1 hboth.2).mp h).1
  · rw [deleteAppConversation_of_not_reaches hboth] at h
    exact h

end OpenHands.ConversationDeletions
