/-
# The search for conversations

The endpoint reads one page of the conversations in files and one page of those of the app
server, each of `limit`, keeps what the filters want, and returns the newest `limit` of both.
The page id holds the ids of the two next pages, of which `None` stands for the first page as
well as for no page.
-/
import Mathlib.Data.String.Basic
import OpenHands.AppConversationInfos
import OpenHands.BatchOperation
import OpenHands.Lib.JsonText
import OpenHands.Lib.OffsetPages
import OpenHands.Lib.OldestFirst

namespace OpenHands.ConversationSearch

open AppServer OldestFirst WebHook

/-! ## Conversations in files -/

/-- What the search reads of `ConversationMetadata`; the conversation's id is the name of its
directory. -/
structure ConversationMetadata where
  createdAt : ℤ
  /-- `created_at.isoformat()`. -/
  isoformat : String
  selectedRepository : Option String
  trigger : Option ConversationTrigger
  deriving DecidableEq, Repr

/-- The directories of conversations in the order in which they are listed, with the metadata
where it can be loaded. -/
abbrev Directories := PyDict String (Option ConversationMetadata)

def offsetToPageId (offset : ℕ) (hasNext : Bool) : Option String :=
  if ¬ hasNext then none else some (b64encode (toString offset).toUTF8)

/-- `page_id_to_offset`; `none` where it raises. -/
def pageIdToOffset (pageId : Option String) : Option ℕ :=
  match truthy pageId with
  | none => some 0
  | some id =>
    match b64decode id with
    | .error _ => none
    | .ok data => (String.fromUTF8? data).bind String.toNat?

namespace Directories

variable (directories : Directories)

/-- The directories that are no hidden ones. -/
def conversationIds : List (String × Option ConversationMetadata) :=
  directories.entries.filter fun entry => entry.1.toList.head? ≠ some '.'

/-- The conversations whose metadata can be loaded. -/
def conversations : List (String × ConversationMetadata) :=
  directories.conversationIds.filterMap fun entry => entry.2.map (entry.1, ·)

/-- The conversations as they are sorted, the newest first. -/
def sorted : List (String × ConversationMetadata) :=
  sortNewest (fun conversation => conversation.2.isoformat) directories.conversations

/-- `FileConversationStore.search`. -/
def search (pageId : Option String) (limit : ℕ) : Option (Page (String × ConversationMetadata)) :=
  (pageIdToOffset pageId).map fun start =>
    let numConversations := directories.conversationIds.length
    let stop := min (limit + start) numConversations
    { items := (directories.sorted.take stop).drop start
      nextPageId := offsetToPageId stop (stop < numConversations) }

end Directories

/-! ## Conversations of the app server -/

/-- The rows of the table, as they are read, in the order in which they come without a sort. -/
structure AppConversations where
  infos : List AppConversationInfo
  nodup : (infos.map AppConversationInfo.id).Nodup

namespace AppConversations

variable (stored : AppConversations)

/-- The conversations of the user, without sub-conversations unless they are asked for. -/
def select (userId : Option String) (includeSubConversations : Bool) : List AppConversationInfo :=
  stored.infos.filter fun info =>
    (∀ user ∈ truthy userId, info.createdByUserId = some user) ∧
      (includeSubConversations ∨ info.parentConversationId = none)

/-- The conversations as they are sorted, the newest first. -/
def sorted (userId : Option String) (includeSubConversations : Bool) : List AppConversationInfo :=
  sortNewest AppConversationInfo.createdAt (stored.select userId includeSubConversations)

/-- `search_app_conversations`, which asks for one more than `limit` to see if there is more. -/
def search (userId : Option String) (includeSubConversations : Bool) (pageId : Option String)
    (limit : ℕ) : Page AppConversationInfo :=
  let offset := OffsetPages.offset pageId
  let rows := ((stored.sorted userId includeSubConversations).drop offset).take (limit + 1)
  let hasMore := limit < rows.length
  { items := if hasMore then rows.take limit else rows
    nextPageId := if hasMore then some (toString (offset + limit)) else none }

end AppConversations

/-! ## The endpoint -/

/-- What the endpoint reads of `ConversationInfo`. -/
structure ConversationInfo where
  conversationId : String
  selectedRepository : Option String
  trigger : Option ConversationTrigger
  createdAt : ℤ
  conversationVersion : String := "V0"
  deriving DecidableEq, Repr

/-- `_get_conversation_info`. -/
def getConversationInfo (conversation : String × ConversationMetadata) : ConversationInfo where
  conversationId := conversation.1
  selectedRepository := conversation.2.selectedRepository
  trigger := conversation.2.trigger
  createdAt := conversation.2.createdAt

/-- `_to_conversation_info`. -/
def toConversationInfo (info : AppConversationInfo) : ConversationInfo where
  conversationId := info.id
  selectedRepository := info.selectedRepository
  trigger := info.trigger
  createdAt := info.createdAt
  conversationVersion := "V1"

/-- The parameters of the endpoint other than the page id, with the user who asks. -/
structure Query where
  userId : Option String
  limit : ℕ := 20
  selectedRepository : Option String := none
  conversationTrigger : Option ConversationTrigger := none
  includeSubConversations : Bool := false

/-- `apply_filters`, of one conversation. -/
def Query.wants (query : Query) (conversation : ConversationInfo) : Bool :=
  (query.selectedRepository = none ∨
      conversation.selectedRepository = query.selectedRepository) ∧
    (query.conversationTrigger = none ∨ conversation.trigger = query.conversationTrigger)

/-- The page ids of both sources. -/
structure PageData where
  v0 : Option String
  v1 : Option String

namespace PageData

variable (F : JsonText.FloatFormat)

def toJson (data : PageData) : PyJson :=
  .obj [("v0", .ofOption .str data.v0), ("v1", .ofOption .str data.v1)]

/-- `base64.b64encode(json.dumps(next_page_data).encode()).decode()`. -/
def encode (data : PageData) : String :=
  b64encode (String.ofList (JsonText.dumps F data.toJson)).toUTF8

/-- A value as a page id; others than strings and `None` are not read. -/
def readId : Option PyJson → Option (Option String)
  | none => some none
  | some .null => some none
  | some (.str id) => some (some id)
  | some _ => none

/-- The page id of the endpoint; `none` where reading it raises. -/
def ofPageId (pageId : Option String) : Option PageData :=
  match truthy pageId with
  | none => some ⟨none, none⟩
  | some id =>
    match b64decode id with
    | .error _ => none
    | .ok bytes =>
      (String.fromUTF8? bytes).bind fun text =>
        match JsonText.loads F text.toList with
        -- what is no JSON is taken as a page id of the conversations in files
        | none => some ⟨some id, none⟩
        | some (.obj entries) => do
          let v0 ← readId ((PyDict.ofEntries entries).get? "v0")
          let v1 ← readId ((PyDict.ofEntries entries).get? "v1")
          return ⟨v0, v1⟩
        | some _ => none

/-- The page id of the next page, if a source has one. -/
def next (data : PageData) : Option String :=
  if (truthy data.v0).isSome ∨ (truthy data.v1).isSome then some (data.encode F) else none

end PageData

/-- The stored conversations. -/
structure Conversations where
  directories : Directories
  app : AppConversations

/-- `search_conversations`; `none` where it raises. -/
def Conversations.search (F : JsonText.FloatFormat) (stored : Conversations) (query : Query)
    (pageId : Option String) : Option (Page ConversationInfo) := do
  let data ← PageData.ofPageId F pageId
  let v0 ← stored.directories.search data.v0 query.limit
  let v1 := stored.app.search query.userId query.includeSubConversations data.v1 query.limit
  let v0Filtered := (v0.items.map getConversationInfo).filter query.wants
  let v1Filtered := (v1.items.map toConversationInfo).filter query.wants
  return {
    items := (sortNewest ConversationInfo.createdAt (v0Filtered ++ v1Filtered)).take query.limit
    nextPageId := PageData.next F ⟨v0.nextPageId, v1.nextPageId⟩ }

/-- The conversations that the filters want, of both sources. -/
def Conversations.wanted (stored : Conversations) (query : Query) : List ConversationInfo :=
  (stored.directories.conversations.map getConversationInfo).filter query.wants ++
    ((stored.app.select query.userId query.includeSubConversations).map
      toConversationInfo).filter query.wants

end OpenHands.ConversationSearch
