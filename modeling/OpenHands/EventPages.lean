/-
# Following the pages of a search

A client follows `next_page_id` until it is `None`.  `search_events` names the first file
behind the page, and starts the next page behind the file of that name: with distinct
names every page boundary loses one file.  `pagesComplete_iff` is the exact condition under
which the pages hold every matching event that can be loaded once and in order.
-/
import OpenHands.FilesystemEvents

namespace OpenHands.EventFiles

/-! ## Following the page ids -/

/-- The pages of a search from a page id on, until a page has no next one. -/
def followPages {β : Type*} (search : Option String → Except SearchError (β × Option String)) :
    ℕ → Option String → Option (List β)
  | 0, _ => none
  | fuel + 1, pageId =>
    match search pageId with
    | .error _ => none
    | .ok (page, none) => some [page]
    | .ok (page, some token) => (followPages search fuel (some token)).map (page :: ·)

section Search

variable (dir : EventsDir) (service : InfoService) (q : Criteria) (sortOrder : EventSortOrder)
  (limit : ℕ)

/-- The files of the conversations that may be read. -/
def permittedFiles : List EventFile :=
  filterFilesByConversation service (dir.getEventFiles q.conversationIdEq)

/-- A file meets the criteria. -/
def meets (file : EventFile) : Bool :=
  match meetsCriteria dir q file with
  | .ok keep => keep
  | .error _ => false

/-- No bound with a time zone is compared with the time of a file. -/
def Comparable : Prop :=
  ∀ file ∈ permittedFiles dir service q, ∃ keep, meetsCriteria dir q file = .ok keep

/-- The files that match, in the order of the search. -/
def matchingFiles : List EventFile :=
  sortByName sortOrder ((permittedFiles dir service q).filter (meets dir q))

variable {Event : Type*} (load : EventFile → Option Event)

/-- The file of the event can be loaded. -/
def isLoadable (file : EventFile) : Bool := (load file).isSome

/-- The items of a page with the id of the next page. -/
def searchItems (pageId : Option String) : Except SearchError (List Event × Option String) :=
  (searchEvents load dir service q sortOrder limit pageId).map fun page =>
    (page.items, page.nextPageId)

/-- The search comes to an end, its items are the events of some files, and among these every
matching file that can be loaded stands once, in the order of the search; when all can be
loaded there are as many as `count_events` reports. -/
def PagesComplete : Prop :=
  ∃ fuel pages,
    followPages (searchFiles dir service q sortOrder limit) fuel none = some pages ∧
    followPages (searchItems dir service q sortOrder limit load) fuel none
      = some (pages.map (loadEventsFromFiles load)) ∧
    pages.flatten.filter (isLoadable load)
      = (matchingFiles dir service q sortOrder).filter (isLoadable load) ∧
    ((∀ file ∈ matchingFiles dir service q sortOrder, isLoadable load file) →
      countEvents dir service q = .ok (pages.flatMap (loadEventsFromFiles load)).length)

end Search

/-! ## The matching files -/

section Matching

variable {dir : EventsDir} {service : InfoService} {q : Criteria} {sortOrder : EventSortOrder}
  {limit : ℕ}

theorem sortByName_perm (sortOrder : EventSortOrder) (files : List EventFile) :
    (sortByName sortOrder files).Perm files := by
  cases sortOrder with
  | TIMESTAMP => exact List.mergeSort_perm files _
  | TIMESTAMP_DESC => exact List.mergeSort_perm files _

/-- The order of the names in a search. -/
def nameLe : EventSortOrder → String → String → Prop
  | .TIMESTAMP => fun a b => a ≤ b
  | .TIMESTAMP_DESC => fun a b => b ≤ a

theorem nameLe_antisymm (sortOrder : EventSortOrder) (a b : String)
    (hab : nameLe sortOrder a b) (hba : nameLe sortOrder b a) : a = b := by
  cases sortOrder with
  | TIMESTAMP => exact String.le_antisymm hab hba
  | TIMESTAMP_DESC => exact String.le_antisymm hba hab

theorem sortByName_sorted (sortOrder : EventSortOrder) (files : List EventFile) :
    (sortByName sortOrder files).Pairwise fun f g => nameLe sortOrder f.name g.name := by
  cases sortOrder with
  | TIMESTAMP =>
      have hsorted := @List.pairwise_mergeSort _ (fun f g : EventFile => decide (f.name ≤ g.name))
        (by simpa using fun a b c => String.le_trans) (by simpa using fun a b => String.le_total _ _)
        files
      simpa [sortByName, nameLe] using hsorted
  | TIMESTAMP_DESC =>
      have hsorted := @List.pairwise_mergeSort _ (fun f g : EventFile => decide (g.name ≤ f.name))
        (by simpa using fun a b c h h' => String.le_trans h' h) (by simpa using fun a b => String.le_total _ _)
        files
      simpa [sortByName, nameLe] using hsorted

/-- The loop over the files: it raises on a file that cannot be compared. -/
theorem filterFilesByCriteria_eq_ok_iff {files kept : List EventFile} :
    filterFilesByCriteria dir q files = .ok kept ↔
      (∀ file ∈ files, ∃ keep, meetsCriteria dir q file = .ok keep) ∧
        kept = files.filter (meets dir q) := by
  induction files generalizing kept with
  | nil =>
      constructor
      · intro h
        cases h
        exact ⟨by simp, rfl⟩
      · rintro ⟨-, rfl⟩
        rfl
  | cons file files ih =>
      rw [List.forall_mem_cons]
      unfold filterFilesByCriteria
      cases hkeep : meetsCriteria dir q file with
      | error e =>
          constructor
          · intro h
            cases h
          · rintro ⟨⟨⟨keep, hkeep'⟩, -⟩, -⟩
            cases hkeep'
      | ok keep =>
          have hmeets : meets dir q file = keep := by
            unfold meets
            rw [hkeep]
          show (filterFilesByCriteria dir q files).bind _ = _ ↔ _
          cases hrest : filterFilesByCriteria dir q files with
          | error e =>
              constructor
              · intro h
                cases h
              · rintro ⟨⟨-, hall⟩, -⟩
                have hok := ih.mpr ⟨hall, rfl⟩
                rw [hrest] at hok
                cases hok
          | ok rest =>
              obtain ⟨hall, rfl⟩ := ih.mp hrest
              rw [List.filter_cons, hmeets]
              constructor
              · intro h
                cases h
                exact ⟨⟨⟨keep, rfl⟩, hall⟩, rfl⟩
              · rintro ⟨-, rfl⟩
                rfl

theorem selectFiles_eq_ok_iff {files : List EventFile} :
    selectFiles dir service q = .ok files ↔
      Comparable dir service q ∧ files = (permittedFiles dir service q).filter (meets dir q) :=
  filterFilesByCriteria_eq_ok_iff

/-- No file occurs twice. -/
theorem nodup_matchingFiles : (matchingFiles dir service q sortOrder).Nodup := by
  have hfound : (dir.getEventFiles q.conversationIdEq).Nodup := by
    unfold EventsDir.getEventFiles
    refine (List.mergeSort_perm _ _).nodup_iff.mpr ?_
    cases q.conversationIdEq with
    | some id => exact dir.nodup.filter _
    | none => exact dir.nodup.filter _
  exact (sortByName_perm _ _).nodup_iff.mpr ((hfound.filter _).filter _)

/-- The name of a file that meets the criteria is not empty. -/
theorem name_ne_empty {file : EventFile} (h : meets dir q file = true) : file.name ≠ "" := by
  intro hname
  have hparse : parseFilename file.name = none := by
    rw [hname]
    decide
  have hfalse : meets dir q file = false := by
    unfold meets meetsCriteria
    rw [hparse]
    dsimp only
    split_ifs
    · rfl
    · rfl
  rw [h] at hfalse
  cases hfalse

end Matching

/-! ## The pages of a search -/

section Pages

variable {dir : EventsDir} {service : InfoService} {q : Criteria} {sortOrder : EventSortOrder}
  {limit : ℕ}

/-- A search whose files can be compared returns a page of the matching files. -/
theorem searchFiles_eq (h : Comparable dir service q) (pageId : Option String) :
    searchFiles dir service q sortOrder limit pageId
      = .ok (PageTokens.page (matchingFiles dir service q sortOrder) limit
          (startIndex (matchingFiles dir service q sortOrder) pageId),
        PageTokens.nextToken EventFile.name (matchingFiles dir service q sortOrder) limit
          (startIndex (matchingFiles dir service q sortOrder) pageId)) := by
  have hselect : selectFiles dir service q
      = .ok ((permittedFiles dir service q).filter (meets dir q)) :=
    selectFiles_eq_ok_iff.mpr ⟨h, rfl⟩
  unfold searchFiles PageTokens.nextToken
  rw [hselect]
  show Except.ok _ = _
  congr 2
  show (if h : _ then _ else _) = Option.map _ (matchingFiles dir service q sortOrder)[_]?
  split_ifs with hbehind
  · have hget := List.getElem?_eq_getElem hbehind
    unfold matchingFiles
    rw [hget]
    rfl
  · have hget := List.getElem?_eq_none (Nat.le_of_not_lt hbehind)
    unfold matchingFiles
    rw [hget]
    rfl

/-- The next page starts behind the first file that has the name. -/
theorem startIndex_of_nextToken {start : ℕ} {token : String}
    (hnext : PageTokens.nextToken EventFile.name (matchingFiles dir service q sortOrder) limit start
      = some token) :
    startIndex (matchingFiles dir service q sortOrder) (some token)
      = PageTokens.startAfter EventFile.name (matchingFiles dir service q sortOrder) token := by
  obtain ⟨file, hfile, rfl⟩ := PageTokens.nextToken_eq_some_iff.mp hnext
  have hmem : file ∈ (permittedFiles dir service q).filter (meets dir q) :=
    (sortByName_perm sortOrder _).mem_iff.mp (List.mem_of_getElem? hfile)
  exact if_neg (name_ne_empty (List.mem_filter.mp hmem).2)

/-- Following the page ids reads the matching files page by page. -/
theorem followPages_eq_follow (h : Comparable dir service q) (fuel : ℕ) (pageId : Option String) :
    followPages (searchFiles dir service q sortOrder limit) fuel pageId
      = PageTokens.follow EventFile.name (matchingFiles dir service q sortOrder) limit fuel
          (startIndex (matchingFiles dir service q sortOrder) pageId) := by
  induction fuel generalizing pageId with
  | zero => rfl
  | succ fuel ih =>
      unfold followPages PageTokens.follow
      rw [searchFiles_eq h]
      cases hnext : PageTokens.nextToken EventFile.name (matchingFiles dir service q sortOrder)
          limit (startIndex (matchingFiles dir service q sortOrder) pageId) with
      | none => rfl
      | some token =>
          show Option.map _ _ = Option.map _ _
          rw [ih, startIndex_of_nextToken hnext]

variable {Event : Type*} (load : EventFile → Option Event)

/-- The items of the pages are the events of their files. -/
theorem followPages_searchItems (fuel : ℕ) (pageId : Option String) :
    followPages (searchItems dir service q sortOrder limit load) fuel pageId
      = (followPages (searchFiles dir service q sortOrder limit) fuel pageId).map
          (List.map (loadEventsFromFiles load)) := by
  induction fuel generalizing pageId with
  | zero => rfl
  | succ fuel ih =>
      unfold followPages searchItems searchEvents
      cases searchFiles dir service q sortOrder limit pageId with
      | error e => rfl
      | ok found =>
          obtain ⟨page, next⟩ := found
          cases next with
          | none => rfl
          | some token =>
              show Option.map _ (followPages (searchItems dir service q sortOrder limit load) _ _)
                = Option.map _ (Option.map _ _)
              rw [ih, Option.map_map, Option.map_map]
              rfl

/-- When every matching file can be loaded there are as many items as matching files. -/
theorem countEvents_eq {pages : List (List EventFile)} (h : Comparable dir service q)
    (hpages : pages.flatten.filter (isLoadable load)
      = (matchingFiles dir service q sortOrder).filter (isLoadable load))
    (hall : ∀ file ∈ matchingFiles dir service q sortOrder, isLoadable load file) :
    countEvents dir service q = .ok (pages.flatMap (loadEventsFromFiles load)).length := by
  have hitems : ∀ files : List EventFile, (loadEventsFromFiles load files).length
      = (files.filter (isLoadable load)).length := by
    intro files
    unfold loadEventsFromFiles isLoadable
    rw [List.length_filterMap_eq_countP, List.countP_eq_length_filter]
  have hflat : pages.flatMap (loadEventsFromFiles load) = loadEventsFromFiles load pages.flatten := by
    unfold loadEventsFromFiles
    rw [List.filterMap_flatten, List.flatMap_def]
  have hselect : selectFiles dir service q
      = .ok ((permittedFiles dir service q).filter (meets dir q)) :=
    selectFiles_eq_ok_iff.mpr ⟨h, rfl⟩
  have hself : (matchingFiles dir service q sortOrder).filter (isLoadable load)
      = matchingFiles dir service q sortOrder := List.filter_eq_self.mpr hall
  unfold countEvents
  rw [hselect, hflat, hitems, hpages, hself]
  exact congrArg Except.ok (sortByName_perm sortOrder _).length_eq.symm

/-- A search that comes to an end compares no time with a bound that has a time zone. -/
theorem comparable_of_followPages {fuel : ℕ} {pages : List (List EventFile)}
    (hpages : followPages (searchFiles dir service q sortOrder limit) fuel none = some pages) :
    Comparable dir service q := by
  cases fuel with
  | zero => cases hpages
  | succ fuel =>
      cases hselect : selectFiles dir service q with
      | ok files => exact (selectFiles_eq_ok_iff.mp hselect).1
      | error e =>
          unfold followPages searchFiles at hpages
          rw [hselect] at hpages
          cases hpages

/-- Complete pages are seamless. -/
theorem seamless_of_pagesComplete (h : PagesComplete dir service q sortOrder limit load) :
    Comparable dir service q ∧
      PageTokens.Seamless EventFile.name (matchingFiles dir service q sortOrder) limit
        (isLoadable load) 0 := by
  obtain ⟨fuel, pages, hpages, -, hall, -⟩ := h
  have hcomparable := comparable_of_followPages hpages
  rw [followPages_eq_follow hcomparable] at hpages
  exact ⟨hcomparable, PageTokens.seamless_of_follow (nameLe_antisymm sortOrder)
    (sortByName_sorted sortOrder _) nodup_matchingFiles hpages hall⟩

/-- Seamless pages are complete. -/
theorem pagesComplete_of_seamless (hcomparable : Comparable dir service q)
    (hseamless : PageTokens.Seamless EventFile.name (matchingFiles dir service q sortOrder) limit
      (isLoadable load) 0) : PagesComplete dir service q sortOrder limit load := by
  obtain ⟨fuel, pages, hpages, hall⟩ := PageTokens.follow_of_seamless hseamless
  have hfiles : followPages (searchFiles dir service q sortOrder limit) fuel none = some pages := by
    rw [followPages_eq_follow hcomparable]
    exact hpages
  refine ⟨fuel, pages, hfiles, ?_, hall, countEvents_eq load hcomparable hall⟩
  rw [followPages_searchItems, hfiles]
  rfl

/-- The names of the files of one conversation are distinct. -/
theorem nodup_names_of_conversation {id : UUID} (hq : q.conversationIdEq = some id) :
    ((matchingFiles dir service q sortOrder).map EventFile.name).Nodup := by
  have hparent : ∀ file ∈ matchingFiles dir service q sortOrder, file.parent = strOfUuid id := by
    intro file hfile
    have hfound : file ∈ dir.getEventFiles q.conversationIdEq :=
      List.mem_of_mem_filter (List.mem_of_mem_filter ((sortByName_perm _ _).mem_iff.mp hfile))
    rw [hq] at hfound
    have hkept := (List.mergeSort_perm _ _).mem_iff.mp hfound
    have hboth := (List.mem_filter.mp hkept).2
    rw [Bool.and_eq_true, beq_iff_eq] at hboth
    exact hboth.1
  refine List.Nodup.map_on ?_ nodup_matchingFiles
  intro f hf g hg hname
  cases f
  cases g
  have hf' := hparent _ hf
  have hg' := hparent _ hg
  simp_all

/-- In one conversation the pages are seamless exactly when the file behind each page, one in
every `limit + 1`, cannot be loaded. -/
theorem seamless_iff_of_conversation {id : UUID} (hq : q.conversationIdEq = some id) :
    PageTokens.Seamless EventFile.name (matchingFiles dir service q sortOrder) limit
        (isLoadable load) 0 ↔
      ∀ i file, (matchingFiles dir service q sortOrder)[i]? = some file →
        i % (limit + 1) = limit → isLoadable load file = false := by
  rw [PageTokens.seamless_iff_of_nodup (nodup_names_of_conversation hq)]
  simp

variable (dir service q sortOrder limit)

/-- **The pages hold every matching event that can be loaded once and in order, exactly when**
no time is compared with a bound that has a time zone, and the pages are seamless: they come to
an end, and no file that can be loaded stands between the end of a page and the file behind the
first one that has the name of the page's token. -/
theorem pagesComplete_iff :
    PagesComplete dir service q sortOrder limit load ↔
      Comparable dir service q ∧
        PageTokens.Seamless EventFile.name (matchingFiles dir service q sortOrder) limit
          (isLoadable load) 0 :=
  ⟨seamless_of_pagesComplete load, fun h => pagesComplete_of_seamless load h.1 h.2⟩

end Pages

/-! ## A lost event -/

/-- Two events of one conversation. -/
def twoEvents : EventsDir where
  path := "/events"
  files :=
    [⟨"00000000-0000-0000-0000-000000000001", "20240101000000_A_1"⟩,
     ⟨"00000000-0000-0000-0000-000000000001", "20240101000001_A_2"⟩]
  nodup := by decide

/-- The criteria that select the conversation. -/
def ofConversation : Criteria := { conversationIdEq := some 1 }

/-- Without other criteria the files of the conversation are those whose names can be parsed. -/
theorem meets_of_conversation (dir : EventsDir) {id : UUID} {file : EventFile}
    (hparent : file.parent = strOfUuid id) :
    meets dir { conversationIdEq := some id } file = (parseFilename file.name).isSome := by
  have hpath : (strOfUuid id).toList <:+: (dir.pathOf file).toList := by
    refine ⟨(dir.path ++ "/").toList, ("/" ++ file.name).toList, ?_⟩
    unfold EventsDir.pathOf
    rw [hparent, ← String.toList_append, ← String.toList_append, ← String.append_assoc]
  unfold meets meetsCriteria
  dsimp only
  rw [decide_eq_true hpath]
  cases parseFilename file.name with
  | none => rfl
  | some info => rfl

theorem matchingFiles_twoEvents :
    matchingFiles twoEvents (List.map some) ofConversation .TIMESTAMP = twoEvents.files := by
  have hfound : (twoEvents.files.filter fun f => f.parent == strOfUuid 1 && isVisible f.name)
      = twoEvents.files := by decide +kernel
  have hfiles : twoEvents.getEventFiles (some 1) = twoEvents.files := by
    unfold EventsDir.getEventFiles
    dsimp only
    rw [hfound]
    exact List.mergeSort_of_pairwise (by decide +kernel)
  have hpermitted : permittedFiles twoEvents (List.map some) ofConversation = twoEvents.files := by
    unfold permittedFiles
    show filterFilesByConversation _ (twoEvents.getEventFiles (some 1)) = _
    rw [hfiles]
    decide +kernel
  have hmeets : ∀ file ∈ twoEvents.files, meets twoEvents ofConversation file = true := by
    have hparsed : ∀ file ∈ twoEvents.files,
        file.parent = strOfUuid 1 ∧ (parseFilename file.name).isSome := by decide +kernel
    intro file hfile
    obtain ⟨hparent, hname⟩ := hparsed file hfile
    exact (meets_of_conversation twoEvents hparent).trans hname
  unfold matchingFiles
  rw [hpermitted, List.filter_eq_self.mpr hmeets]
  exact List.mergeSort_of_pairwise (by decide +kernel)

/-- Read one event a page, the second event is on no page. -/
theorem not_pagesComplete_twoEvents :
    ¬PagesComplete twoEvents (List.map some) ofConversation .TIMESTAMP 1
      (fun file => some file.name) := by
  intro h
  have hquiet := (seamless_iff_of_conversation _ rfl).mp (seamless_of_pagesComplete _ h).2
  rw [matchingFiles_twoEvents] at hquiet
  exact Bool.noConfusion (hquiet 1 _ rfl rfl)

end OpenHands.EventFiles
