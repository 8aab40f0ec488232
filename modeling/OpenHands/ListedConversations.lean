/-
# Listing conversations page by page

Two stores list conversations: `FileConversationStore.search` over the directories of the file
store, and `SQLAppConversationInfoService.search_app_conversation_info` over the table of the app
server, next to which `count_app_conversation_info` builds a query of its own.

Following the page ids reads what either store has, each conversation once.  The number that is
counted exceeds that of the conversations by the rows that the search leaves out and the count
does not: those of the first version, and sub-conversations unless they are asked for.
-/
import Mathlib.Data.List.Infix
import Mathlib.Data.String.Basic
import OpenHands.ConversationPages
import OpenHands.Lib.PySeq

namespace OpenHands.ConversationSearch

open AppServer OffsetPages OldestFirst

/-! ## The file store -/

/-- The token of a page is that of its offset, and only the first page has none. -/
theorem followAny_directories (directories : Directories) {limit : ℕ} (hlimit : 1 ≤ limit) :
    ∀ fuel, pageCount directories.conversationIds.length limit ≤ fuel →
      followAny (directories.search · limit) fuel none = some directories.sorted := by
  intro fuel hfuel
  have hpos := pageCount_pos directories.conversationIds.length limit
  obtain ⟨k, hk⟩ : ∃ k, pageCount directories.conversationIds.length limit = k + 1 :=
    ⟨_, (Nat.sub_add_cancel hpos).symm⟩
  have hsearch : ∀ t < k + 1, directories.search (v0PageId limit t) limit
      = some ⟨page directories.sorted limit t,
        if t + 1 < k + 1 then v0PageId limit (t + 1) else none⟩ := by
    intro t ht
    have h := directories_search directories hlimit t
    rw [succ_mod hpos, hk, Nat.mod_eq_of_lt ht] at h
    rw [h]
    split
    next => rfl
    next => rfl
  have htoken : ∀ t, t + 1 < k + 1 → (v0PageId limit (t + 1)).isSome = true := by
    intro t _
    unfold v0PageId offsetToPageId
    simp
  have hfollow := @followAny_of_tokens _ (directories.search · limit) _ _ _ hsearch htoken k 0
    (Nat.zero_add _) fuel (by omega)
  have hpages : (List.range' 0 (k + 1)).flatMap (page directories.sorted limit)
      = directories.sorted := by
    rw [← List.range_eq_range', ← hk]
    exact flatMap_page_pageCount hlimit (length_sorted_le directories)
  rw [hpages] at hfollow
  exact hfollow

/-- **Iterating over the pages of the file store ends, and gives every conversation that can be
loaded once, the newest first**, however many directories cannot be loaded. -/
theorem iterate_directories (directories : Directories) {limit : ℕ} (hlimit : 1 ≤ limit) :
    ∃ conversations, (∀ fuel, pageCount directories.conversationIds.length limit ≤ fuel →
        followAny (directories.search · limit) fuel none = some conversations) ∧
      conversations.Perm directories.conversations ∧ (conversations.map Prod.fst).Nodup ∧
      conversations.Pairwise fun a b => b.2.isoformat ≤ a.2.isoformat := by
  refine ⟨directories.sorted, followAny_directories directories hlimit, sortNewest_perm _ _, ?_,
    sortNewest_pairwise _⟩
  exact ((sortNewest_perm _ _).map Prod.fst).nodup_iff.mpr
    (Conversations.conversations_nodup directories)

/-- Two directories, of which one cannot be loaded. -/
def twoDirectories : Directories where
  entries := [("first", some {
    createdAt := 1
    isoformat := "2025-01-01T00:00:00+00:00"
    selectedRepository := none
    trigger := none }), ("second", none)]
  nodup := by decide

theorem iterate_twoDirectories : ∃ conversations,
    (∀ fuel, pageCount twoDirectories.conversationIds.length 1 ≤ fuel →
        followAny (twoDirectories.search · 1) fuel none = some conversations) ∧
      conversations.Perm twoDirectories.conversations ∧ (conversations.map Prod.fst).Nodup ∧
      conversations.Pairwise fun a b => b.2.isoformat ≤ a.2.isoformat :=
  iterate_directories twoDirectories (Nat.le_refl 1)

/-! ## The table of the app server -/

/-- `AppConversationSortOrder`. -/
inductive AppConversationSortOrder where
  | createdAt | createdAtDesc | updatedAt | updatedAtDesc | title | titleDesc

/-- The filters of a search and of a count. -/
structure Filters where
  titleContains : Option String := none
  createdAtGte : Option ℤ := none
  createdAtLt : Option ℤ := none
  updatedAtGte : Option ℤ := none
  updatedAtLt : Option ℤ := none

/-- How a database compares values: `title LIKE '%…%'`, and the order of a column, with its place
for `NULL`. -/
structure Comparison where
  like : String → String → Bool
  leTime : Option ℤ → Option ℤ → Bool
  leText : Option String → Option String → Bool

/-- A row may stand before another one in the order that is asked for. -/
def Comparison.inOrder (c : Comparison) (a b : String × StoredConversationMetadata) :
    AppConversationSortOrder → Bool
  | .createdAt => c.leTime a.2.createdAt b.2.createdAt
  | .createdAtDesc => c.leTime b.2.createdAt a.2.createdAt
  | .updatedAt => c.leTime a.2.lastUpdatedAt b.2.lastUpdatedAt
  | .updatedAtDesc => c.leTime b.2.lastUpdatedAt a.2.lastUpdatedAt
  | .title => c.leText a.2.title b.2.title
  | .titleDesc => c.leText b.2.title a.2.title

/-- A database.  Each query, of the page with the id, may order the rows that are equal in the
column in a way of its own. -/
structure Database extends Comparison where
  orderBy : (pageId : Option String) → AppConversationSortOrder →
    List (String × StoredConversationMetadata) → List (String × StoredConversationMetadata)
  orderBy_perm : ∀ pageId order rows, (orderBy pageId order rows).Perm rows
  orderBy_pairwise : ∀ pageId order rows,
    (orderBy pageId order rows).Pairwise fun a b => toComparison.inOrder a b order

namespace Database

variable (db : Database) (sdk : Sdk) (userId : Option String) (table : Table) (filters : Filters)
  (includeSubConversations : Bool) (sortOrder : AppConversationSortOrder) (limit : ℕ)

/-- The conditions of `_apply_filters`; none is met by `NULL`. -/
def applyFilters (row : StoredConversationMetadata) : Bool :=
  (∀ text ∈ filters.titleContains, row.title.any (db.like text)) ∧
    (∀ time ∈ filters.createdAtGte, row.createdAt.any (time ≤ ·)) ∧
    (∀ time ∈ filters.createdAtLt, row.createdAt.any (· < time)) ∧
    (∀ time ∈ filters.updatedAtGte, row.lastUpdatedAt.any (time ≤ ·)) ∧
    (∀ time ∈ filters.updatedAtLt, row.lastUpdatedAt.any (· < time))

/-- The rows that a search selects. -/
def selected : List (String × StoredConversationMetadata) :=
  (secureSelect userId table).filter fun row =>
    (includeSubConversations ∨ row.2.parentConversationId = none) ∧ db.applyFilters filters row.2

/-- `search_app_conversation_info`; `none` where a row of the page cannot be read. -/
def searchAppConversationInfo (pageId : Option String) : Option (Page AppConversationInfo) :=
  let query := db.orderBy pageId sortOrder
    (db.selected userId table filters includeSubConversations)
  let offset := OffsetPages.offset pageId
  let rows := (query.drop offset).take (limit + 1)
  let hasMore := limit < rows.length
  let rows := if hasMore then rows.take limit else rows
  (rows.mapM fun row => sdk.toInfo row.1 row.2 []).map fun items =>
    { items, nextPageId := if hasMore then some (toString (offset + limit)) else none }

/-- `count_app_conversation_info`: only the user and the filters restrict it. -/
def countAppConversationInfo : ℕ :=
  (table.entries.filter fun row =>
    (∀ user ∈ truthy userId, row.2.userId = user) ∧ db.applyFilters filters row.2).length

/-- The rows that are counted and not searched for. -/
def onlyCounted : List (String × StoredConversationMetadata) :=
  table.entries.filter fun row =>
    ((∀ user ∈ truthy userId, row.2.userId = user) ∧ db.applyFilters filters row.2) ∧
      (row.2.conversationVersion ≠ "V1" ∨
        includeSubConversations = false ∧ row.2.parentConversationId ≠ none)

/-- The count is the number of selected rows and of those that are only counted. -/
theorem countAppConversationInfo_eq : db.countAppConversationInfo userId table filters
    = (db.selected userId table filters includeSubConversations).length
      + (db.onlyCounted userId table filters includeSubConversations).length := by
  have hsearched : ∀ row : String × StoredConversationMetadata,
      (((includeSubConversations ∨ row.2.parentConversationId = none)
          ∧ db.applyFilters filters row.2) ∧ row.2.visible userId) ↔
        (row.2.conversationVersion = "V1"
            ∧ (includeSubConversations ∨ row.2.parentConversationId = none)) ∧
          (∀ user ∈ truthy userId, row.2.userId = user) ∧ db.applyFilters filters row.2 := by
    intro row
    unfold StoredConversationMetadata.visible
    rw [decide_eq_true_iff]
    tauto
  have hothers : ∀ row : String × StoredConversationMetadata,
      (row.2.conversationVersion ≠ "V1" ∨
          includeSubConversations = false ∧ row.2.parentConversationId ≠ none) ↔
        ¬ (row.2.conversationVersion = "V1"
          ∧ (includeSubConversations ∨ row.2.parentConversationId = none)) := by
    intro row
    rw [Bool.eq_false_iff]
    tauto
  unfold countAppConversationInfo selected onlyCounted secureSelect
  -- the counted rows are split by the two conditions that only the search has
  rw [List.length_eq_length_filter_add fun row => decide (row.2.conversationVersion = "V1"
    ∧ (includeSubConversations ∨ row.2.parentConversationId = none))]
  congr 1
  · rw [List.filter_filter, List.filter_filter]
    refine congrArg List.length (List.filter_congr fun row _ => ?_)
    rw [Bool.eq_iff_iff]
    simp only [Bool.and_eq_true, decide_eq_true_eq]
    exact (hsearched row).symm
  · rw [List.filter_filter]
    refine congrArg List.length (List.filter_congr fun row _ => ?_)
    rw [Bool.eq_iff_iff]
    simp only [Bool.and_eq_true, Bool.not_eq_true', decide_eq_true_eq, decide_eq_false_iff_not]
    rw [hothers]
    tauto

/-- Rows that differ in the column are in the same order in every query. -/
theorem orderBy_eq {rows : List (String × StoredConversationMetadata)}
    (hdistinct : ∀ a ∈ rows, ∀ b ∈ rows, db.inOrder a b sortOrder → db.inOrder b a sortOrder → a = b)
    (pageId otherId : Option String) :
    db.orderBy pageId sortOrder rows = db.orderBy otherId sortOrder rows := by
  have hperm := db.orderBy_perm pageId sortOrder rows
  have hother := db.orderBy_perm otherId sortOrder rows
  refine List.Perm.eq_of_pairwise (fun a b ha hb => ?_) (db.orderBy_pairwise pageId sortOrder rows)
    (db.orderBy_pairwise otherId sortOrder rows) (hperm.trans hother.symm)
  exact hdistinct a (hperm.mem_iff.mp ha) b (hother.mem_iff.mp hb)

/-- The rows of a page are read from where it starts. -/
theorem searchAppConversationInfo_eq {infos : List AppConversationInfo} (pageId : Option String)
    (hread : (db.orderBy pageId sortOrder
        (db.selected userId table filters includeSubConversations)).map
      (fun row => sdk.toInfo row.1 row.2 []) = infos.map some) :
    db.searchAppConversationInfo sdk userId table filters includeSubConversations sortOrder limit
      pageId = some (pageAt infos limit (offset pageId)) := by
  obtain ⟨query, hquery⟩ : ∃ query, query = db.orderBy pageId sortOrder
      (db.selected userId table filters includeSubConversations) := ⟨_, rfl⟩
  rw [← hquery] at hread
  have hlength : query.length = infos.length := by
    have h := congrArg List.length hread
    rwa [List.length_map, List.length_map] at h
  -- one row more than the page is fetched to see whether there is another page
  have hmore : limit < ((query.drop (offset pageId)).take (limit + 1)).length
      ↔ offset pageId + limit < infos.length := by
    rw [List.length_take, List.length_drop, hlength]
    omega
  have hrows : (if limit < ((query.drop (offset pageId)).take (limit + 1)).length
        then ((query.drop (offset pageId)).take (limit + 1)).take limit
        else (query.drop (offset pageId)).take (limit + 1))
      = (query.drop (offset pageId)).take limit := by
    split_ifs with h
    · rw [List.take_take, Nat.min_eq_left (Nat.le_succ limit)]
    · rw [hmore] at h
      rw [List.take_of_length_le (by rw [List.length_drop, hlength]; omega),
        List.take_of_length_le (by rw [List.length_drop, hlength]; omega)]
  have hitems : ((query.drop (offset pageId)).take limit).mapM
      (fun row => sdk.toInfo row.1 row.2 []) = some ((infos.drop (offset pageId)).take limit) := by
    rw [PySeq.mapM_eq_some_iff, List.map_take, List.map_drop, hread, List.map_take, List.map_drop]
  unfold searchAppConversationInfo
  rw [← hquery]
  dsimp only
  rw [hrows, hitems]
  unfold pageAt
  simp only [hmore]
  rfl

/-- The id of what is read of a row is the key of the row. -/
theorem id_of_toInfo {row : String × StoredConversationMetadata} {info : AppConversationInfo}
    (h : sdk.toInfo row.1 row.2 [] = some info) : info.id = row.1 := by
  unfold Sdk.toInfo at h
  simp only [Option.bind_eq_bind, Option.bind_eq_some_iff, Option.pure_def, Option.some.injEq] at h
  obtain ⟨_, -, _, -, _, -, _, -, _, -, _, -, _, -, rfl⟩ := h
  rfl

/-- Rows that can be read, with what is read of them. -/
theorem exists_infos {rows : List (String × StoredConversationMetadata)}
    (hall : ∀ row ∈ rows, (sdk.toInfo row.1 row.2 []).isSome) :
    ∃ infos : List AppConversationInfo,
      rows.map (fun row => sdk.toInfo row.1 row.2 []) = infos.map some ∧
        infos.map AppConversationInfo.id = rows.map Prod.fst := by
  induction rows with
  | nil => exact ⟨[], rfl, rfl⟩
  | cons row rows ih =>
    rw [List.forall_mem_cons] at hall
    obtain ⟨infos, hmap, hids⟩ := ih hall.2
    obtain ⟨info, hinfo⟩ := Option.isSome_iff_exists.mp hall.1
    refine ⟨info :: infos, ?_, ?_⟩
    · rw [List.map_cons, List.map_cons, hinfo, hmap]
    · rw [List.map_cons, List.map_cons, id_of_toInfo sdk hinfo, hids]

/-- **Following the page ids of a search gives every selected conversation once, in the order that
is asked for, and the count exceeds their number by the rows that are only counted**, for rows that
can be read and of which no two are equal in the column that is sorted by. -/
theorem iterate_table (hlimit : 1 ≤ limit)
    (hdistinct : ∀ a ∈ db.selected userId table filters includeSubConversations,
      ∀ b ∈ db.selected userId table filters includeSubConversations,
        db.inOrder a b sortOrder → db.inOrder b a sortOrder → a = b)
    (hread : ∀ row ∈ db.selected userId table filters includeSubConversations,
      (sdk.toInfo row.1 row.2 []).isSome) :
    ∃ (rows : List (String × StoredConversationMetadata)) (infos : List AppConversationInfo),
      rows.Perm (db.selected userId table filters includeSubConversations) ∧
      rows.Pairwise (fun a b => db.inOrder a b sortOrder) ∧
      (∀ fuel, infos.length < fuel →
        followAny (db.searchAppConversationInfo sdk userId table filters includeSubConversations
          sortOrder limit) fuel none = some infos) ∧
      infos.map AppConversationInfo.id = rows.map Prod.fst ∧
      (infos.map AppConversationInfo.id).Nodup ∧
      db.countAppConversationInfo userId table filters
        = infos.length + (db.onlyCounted userId table filters includeSubConversations).length := by
  obtain ⟨query, hquery⟩ : ∃ query, query = db.orderBy none sortOrder
      (db.selected userId table filters includeSubConversations) := ⟨_, rfl⟩
  have hperm : query.Perm (db.selected userId table filters includeSubConversations) := by
    rw [hquery]
    exact db.orderBy_perm none sortOrder _
  have hsorted : query.Pairwise fun a b => db.inOrder a b sortOrder := by
    rw [hquery]
    exact db.orderBy_pairwise none sortOrder _
  have hall : ∀ row ∈ query, (sdk.toInfo row.1 row.2 []).isSome :=
    fun row hrow => hread row (hperm.mem_iff.mp hrow)
  obtain ⟨infos, hmap, hids⟩ := exists_infos sdk hall
  have hlength :
      infos.length = (db.selected userId table filters includeSubConversations).length := by
    have h := congrArg List.length hids
    rw [List.length_map, List.length_map] at h
    rw [h, hperm.length_eq]
  have hsearch : (fun pageId => db.searchAppConversationInfo sdk userId table filters
      includeSubConversations sortOrder limit pageId)
        = fun pageId => some (pageAt infos limit (offset pageId)) := by
    funext pageId
    refine searchAppConversationInfo_eq db sdk userId table filters includeSubConversations sortOrder
      limit pageId ?_
    -- no two rows are tied, so every query has the same order
    rw [db.orderBy_eq sortOrder hdistinct pageId none, ← hquery, hmap]
  refine ⟨query, infos, hperm, hsorted, fun fuel hfuel => ?_, hids, ?_, ?_⟩
  · show followAny (fun pageId => db.searchAppConversationInfo sdk userId table filters
      includeSubConversations sortOrder limit pageId) fuel none = some infos
    rw [hsearch, followAny_some]
    exact follow_none (fun _ => rfl) hlimit hfuel
  · have hkeys : ((db.selected userId table filters includeSubConversations).map Prod.fst).Nodup :=
      table.nodup.sublist ((List.filter_sublist.trans List.filter_sublist).map Prod.fst)
    rw [hids]
    exact (hperm.map Prod.fst).nodup_iff.mpr hkeys
  · rw [hlength]
    exact countAppConversationInfo_eq db userId table filters includeSubConversations

end Database

/-- `NULL` is smaller than every value. -/
def leNulls {α : Type} [LinearOrder α] : Option α → Option α → Bool
  | none, _ => true
  | some _, none => false
  | some a, some b => decide (a ≤ b)

section

variable {α : Type} [LinearOrder α]

theorem leNulls_trans (a b c : Option α) (hab : leNulls a b) (hbc : leNulls b c) :
    leNulls a c := by
  cases a with
  | none => rfl
  | some a =>
      cases b with
      | none => cases hab
      | some b =>
          cases c with
          | none => cases hbc
          | some c => exact decide_eq_true ((of_decide_eq_true hab).trans (of_decide_eq_true hbc))

theorem leNulls_total (a b : Option α) : (leNulls a b || leNulls b a) = true := by
  cases a with
  | none => rfl
  | some a =>
      cases b with
      | none => rfl
      | some b =>
          rw [Bool.or_eq_true]
          exact (le_total a b).imp decide_eq_true decide_eq_true

end

/-- Texts contain one another as they are, and `NULL` comes first. -/
def nullsFirst : Comparison where
  like text title := text.toList <:+: title.toList
  leTime := leNulls
  leText := leNulls

theorem inOrder_trans (order : AppConversationSortOrder)
    (a b c : String × StoredConversationMetadata) (hab : nullsFirst.inOrder a b order)
    (hbc : nullsFirst.inOrder b c order) : nullsFirst.inOrder a c order := by
  cases order with
  | createdAt => exact leNulls_trans _ _ _ hab hbc
  | createdAtDesc => exact leNulls_trans _ _ _ hbc hab
  | updatedAt => exact leNulls_trans _ _ _ hab hbc
  | updatedAtDesc => exact leNulls_trans _ _ _ hbc hab
  | title => exact leNulls_trans _ _ _ hab hbc
  | titleDesc => exact leNulls_trans _ _ _ hbc hab

theorem inOrder_total (order : AppConversationSortOrder)
    (a b : String × StoredConversationMetadata) :
    (nullsFirst.inOrder a b order || nullsFirst.inOrder b a order) = true := by
  cases order <;> exact leNulls_total _ _

/-- A database with these comparisons, which sorts the rows of its table. -/
def tableOrder : Database where
  toComparison := nullsFirst
  orderBy _ order rows := rows.mergeSort fun a b => nullsFirst.inOrder a b order
  orderBy_perm _ _ rows := List.mergeSort_perm rows _
  orderBy_pairwise _ order rows :=
    List.pairwise_mergeSort (inOrder_trans order) (inOrder_total order) rows

/-- Metrics of which every value is valid. -/
def lenient : Sdk where
  emptyUsage := ⟨0, 0, 0, 0, 0, 0⟩
  emptySnapshot := ⟨0, none, none⟩
  acceptsUsage _ := true
  acceptsSnapshot _ := true

/-- A row of a conversation of Alice. -/
def rowOfAlice (created : ℤ) (version : String) (parent : Option String) :
    StoredConversationMetadata where
  githubUserId := none
  userId := "alice"
  selectedRepository := none
  selectedBranch := none
  gitProvider := none
  title := none
  lastUpdatedAt := some 4
  createdAt := some created
  trigger := none
  prNumber := some []
  metrics := ⟨some 0, some 0, some 0, some 0, none, some 0, some 0, some 0, some 0, some 0⟩
  llmModel := none
  conversationVersion := version
  sandboxId := some "sandbox"
  parentConversationId := parent

/-- A conversation of the first version, one of the second, and a sub-conversation of it. -/
def threeConversations : Table where
  entries := [("a", rowOfAlice 1 "V0" none), ("b", rowOfAlice 2 "V1" none),
    ("c", rowOfAlice 3 "V1" (some "b"))]
  nodup := by decide

/-- Two conversations are found, on two pages, and three are counted. -/
theorem iterate_threeConversations :
    ∃ (rows : List (String × StoredConversationMetadata)) (infos : List AppConversationInfo),
      rows.Perm (tableOrder.selected (some "alice") threeConversations {} true) ∧
      rows.Pairwise (fun a b => tableOrder.inOrder a b .createdAtDesc) ∧
      (∀ fuel, infos.length < fuel →
        followAny (tableOrder.searchAppConversationInfo lenient (some "alice") threeConversations {}
          true .createdAtDesc 1) fuel none = some infos) ∧
      infos.map AppConversationInfo.id = rows.map Prod.fst ∧
      (infos.map AppConversationInfo.id).Nodup ∧
      tableOrder.countAppConversationInfo (some "alice") threeConversations {}
        = infos.length
          + (tableOrder.onlyCounted (some "alice") threeConversations {} true).length := by
  have hselected : tableOrder.selected (some "alice") threeConversations {} true
      = [("b", rowOfAlice 2 "V1" none), ("c", rowOfAlice 3 "V1" (some "b"))] := by decide
  refine tableOrder.iterate_table lenient (some "alice") threeConversations {} true .createdAtDesc 1
    (Nat.le_refl 1) ?_ ?_
  · rw [hselected]
    intro a ha b hb hab hba
    rw [List.mem_pair] at ha hb
    rcases ha with rfl | rfl <;> rcases hb with rfl | rfl
    · rfl
    · exact absurd hab (by decide)
    · exact absurd hba (by decide)
    · rfl
  · rw [hselected, List.forall_mem_cons, List.forall_mem_singleton]
    exact ⟨rfl, rfl⟩

end OpenHands.ConversationSearch
