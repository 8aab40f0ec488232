/-
# All pages of the search for conversations

Whoever follows the page ids from the first page comes to an end: after as many pages as the
least common multiple of the numbers of pages of both sources.  What was found is complete
exactly if in each of these requests the two pages that are read fit together in `limit` or one
of them displaces the other, and if every page of a source that has a conversation which is
wanted meets just one page that does not displace it.
-/
import OpenHands.ConversationSearch
import OpenHands.Lib.JsonRoundTrip
import OpenHands.Lib.MergedPages

namespace OpenHands.ConversationSearch

open AppServer OldestFirst WebHook OffsetPages MergedPages

variable (F : JsonText.FloatFormat) (stored : Conversations) (query : Query)

/-! ## What a page reads -/

namespace Conversations

/-- What is wanted of a page of the conversations in files. -/
def v0Page (i : ℕ) : List ConversationInfo :=
  ((page stored.directories.sorted query.limit i).map getConversationInfo).filter query.wants

/-- What is wanted of a page of the conversations of the app server. -/
def v1Page (i : ℕ) : List ConversationInfo :=
  ((page (stored.app.sorted query.userId query.includeSubConversations) query.limit i).map
    toConversationInfo).filter query.wants

/-- The directories are counted whether their metadata can be loaded or not. -/
def v0Count : ℕ := pageCount stored.directories.conversationIds.length query.limit

def v1Count : ℕ :=
  pageCount (stored.app.select query.userId query.includeSubConversations).length query.limit

/-- The pages that are read together fit or displace each other, and every page is taken once. -/
def PagesWhole : Prop :=
  Whole ConversationInfo.createdAt query.limit (stored.v0Page query) (stored.v1Page query)
    (stored.v0Count query) (stored.v1Count query)

/-- Following the page ids comes to an end and finds all that is wanted, each of it once. -/
def Complete : Prop :=
  ∃ fuel found, followAny (stored.search F query) fuel none = some found ∧
    found.Perm (stored.wanted query)

end Conversations

/-! ## Page ids are read as they were written -/

theorem truthy_b64encode {text : String} (h : text ≠ "") :
    truthy (some (b64encode text.toUTF8)) = some (b64encode text.toUTF8) := by
  have hne : b64encode text.toUTF8 ≠ "" := by
    intro hempty
    have hdecode := b64decode_b64encode text.toUTF8
    rw [hempty] at hdecode
    have hbytes : (⟨#[]⟩ : ByteArray) = text.toUTF8 := Except.ok.inj hdecode
    have htext := fromUTF8?_toUTF8 text
    rw [← hbytes] at htext
    exact h (Option.some.inj (htext.symm.trans (fromUTF8?_toUTF8 "")))
  exact Option.filter_some_pos (by simpa using hne)

theorem pageIdToOffset_offsetToPageId (n : ℕ) (hasNext : Bool) :
    pageIdToOffset (offsetToPageId n hasNext) = some (if hasNext then n else 0) := by
  cases hasNext with
  | false => rfl
  | true =>
    show pageIdToOffset (some (b64encode (toString n).toUTF8)) = some n
    have hne : toString n ≠ "" := Nat.repr_ne_empty
    unfold pageIdToOffset
    rw [truthy_b64encode hne]
    dsimp only
    rw [b64decode_b64encode]
    dsimp only
    rw [fromUTF8?_toUTF8]
    exact Nat.toNat?_repr n

theorem readable_toJson (data : PageData) : JsonText.Readable F data.toJson := by
  have hvalue : ∀ id : Option String, JsonText.Readable F (.ofOption .str id) := by
    rintro (_ | id)
    · exact .null
    · exact .str id
  refine .obj ?_ ?_
  · exact List.nodup_cons.mpr ⟨by simp, List.nodup_singleton _⟩
  · intro entry hentry
    rcases List.mem_pair.mp hentry with rfl | rfl
    · exact hvalue data.v0
    · exact hvalue data.v1

theorem ofPageId_encode (data : PageData) :
    PageData.ofPageId F (some (data.encode F)) = some data := by
  have hread := JsonText.loads_dumps F (readable_toJson F data)
  have htext : String.ofList (JsonText.dumps F data.toJson) ≠ "" := by
    intro hempty
    have hnil : JsonText.dumps F data.toJson = [] := by
      rw [← String.toList_ofList (l := JsonText.dumps F data.toJson), hempty]
      rfl
    rw [hnil] at hread
    cases hread
  unfold PageData.ofPageId PageData.encode
  rw [truthy_b64encode htext]
  dsimp only
  rw [b64decode_b64encode]
  dsimp only
  rw [fromUTF8?_toUTF8, Option.bind_some, String.toList_ofList, hread]
  rcases data with ⟨_ | v0, _ | v1⟩ <;> rfl

/-! ## One request -/

/-- The page id of page number `i` of the conversations in files. -/
def v0PageId (limit i : ℕ) : Option String := offsetToPageId (i * limit) (0 < i)

def v1PageId (limit i : ℕ) : Option String :=
  if 0 < i then some (toString (i * limit)) else none

variable {limit : ℕ}

@[simp] theorem truthy_v0PageId (i : ℕ) : truthy (v0PageId limit i) = v0PageId limit i := by
  unfold v0PageId offsetToPageId
  split
  · rfl
  · have hne : toString (i * limit) ≠ "" := Nat.repr_ne_empty
    exact truthy_b64encode hne

@[simp] theorem truthy_v1PageId (i : ℕ) : truthy (v1PageId limit i) = v1PageId limit i := by
  unfold v1PageId
  split
  · exact Option.filter_some_pos (by simp)
  · rfl

@[simp] theorem isSome_v0PageId (i : ℕ) : (v0PageId limit i).isSome = decide (0 < i) := by
  unfold v0PageId offsetToPageId
  by_cases hi : 0 < i
  · simp [hi]
  · simp [hi]

@[simp] theorem isSome_v1PageId (i : ℕ) : (v1PageId limit i).isSome = decide (0 < i) := by
  unfold v1PageId
  by_cases hi : 0 < i
  · simp [hi]
  · simp [hi]

/-- An exhausted source begins again. -/
theorem succ_mod {n : ℕ} (hn : 0 < n) (t : ℕ) :
    (t + 1) % n = if t % n + 1 < n then t % n + 1 else 0 := by
  rw [← Nat.mod_add_mod]
  split
  next hlt => exact Nat.mod_eq_of_lt hlt
  next hge =>
    have hend : t % n + 1 = n := by
      have hlt := Nat.mod_lt t hn
      omega
    rw [hend, Nat.mod_self]

theorem length_sorted_le (directories : Directories) :
    directories.sorted.length ≤ directories.conversationIds.length := by
  unfold Directories.sorted
  rw [(sortNewest_perm _ _).length_eq]
  exact List.length_filterMap_le _ _

theorem directories_search (directories : Directories) (hlimit : 0 < limit) (t : ℕ) :
    directories.search
        (v0PageId limit (t % pageCount directories.conversationIds.length limit)) limit
      = some ⟨page directories.sorted limit (t % pageCount directories.conversationIds.length limit),
        v0PageId limit ((t + 1) % pageCount directories.conversationIds.length limit)⟩ := by
  rw [succ_mod (pageCount_pos _ _)]
  generalize t % pageCount directories.conversationIds.length limit = i
  have hstart : (if decide (0 < i) = true then i * limit else 0) = i * limit := by
    rcases Nat.eq_zero_or_pos i with rfl | hi
    · rw [Nat.zero_mul]; rfl
    · rw [if_pos (decide_eq_true hi)]
  have hsize := length_sorted_le directories
  unfold Directories.search v0PageId
  rw [pageIdToOffset_offsetToPageId, hstart, Option.map_some]
  simp only [Option.some.injEq, Page.mk.injEq]
  constructor
  · -- the slice ends with the members or with the page
    rw [page, List.take_drop]
    by_cases hend : limit + i * limit ≤ directories.conversationIds.length
    · rw [Nat.min_eq_left hend, Nat.add_comm]
    · rw [Nat.min_eq_right (by omega), List.take_of_length_le hsize,
        List.take_of_length_le (by omega)]
  · by_cases hnext : i + 1 < pageCount directories.conversationIds.length limit
    · have hlt := (succ_lt_pageCount_iff hlimit).mp hnext
      rw [if_pos hnext, Nat.min_eq_left (by omega), Nat.add_comm, ← Nat.succ_mul]
      simp only [Nat.succ_pos, decide_true]
      rw [Nat.succ_mul, decide_eq_true hlt]
    · have hge := (succ_lt_pageCount_iff hlimit).not.mp hnext
      rw [if_neg hnext, Nat.min_eq_right (by omega)]
      simp [offsetToPageId]

theorem offset_v1PageId (i : ℕ) : offset (v1PageId limit i) = i * limit := by
  unfold v1PageId
  rcases Nat.eq_zero_or_pos i with rfl | hi
  · rw [if_neg (Nat.lt_irrefl 0), Nat.zero_mul]
    rfl
  · rw [if_pos hi, offset_toString]

theorem app_search (app : AppConversations) (userId : Option String) (include_ : Bool)
    (hlimit : 0 < limit) (t : ℕ) :
    app.search userId include_ (v1PageId limit (t % pageCount (app.select userId include_).length
        limit)) limit
      = ⟨page (app.sorted userId include_) limit
          (t % pageCount (app.select userId include_).length limit),
        v1PageId limit ((t + 1) % pageCount (app.select userId include_).length limit)⟩ := by
  have hsize : (app.sorted userId include_).length = (app.select userId include_).length :=
    (sortNewest_perm _ _).length_eq
  rw [succ_mod (pageCount_pos _ _), ← hsize]
  generalize t % pageCount (app.sorted userId include_).length limit = i
  unfold AppConversations.search
  rw [offset_v1PageId]
  simp only [List.length_take, List.length_drop, Page.mk.injEq]
  by_cases hnext : i + 1 < pageCount (app.sorted userId include_).length limit
  · have hlt := (succ_lt_pageCount_iff hlimit).mp hnext
    have hmore : limit < min (limit + 1) ((app.sorted userId include_).length - i * limit) := by
      omega
    rw [if_pos hmore, if_pos hmore, if_pos hnext]
    refine ⟨?_, ?_⟩
    · rw [List.take_take, Nat.min_eq_left (Nat.le_succ limit)]
      rfl
    · unfold v1PageId
      rw [if_pos (Nat.succ_pos i), Nat.succ_mul]
  · have hge := (succ_lt_pageCount_iff hlimit).not.mp hnext
    have hend : ¬ limit < min (limit + 1) ((app.sorted userId include_).length - i * limit) := by
      omega
    rw [if_neg hend, if_neg hend, if_neg hnext]
    refine ⟨?_, rfl⟩
    rw [page, List.take_of_length_le (by rw [List.length_drop]; omega),
      List.take_of_length_le (by rw [List.length_drop]; omega)]

/-! ## All requests -/

namespace Conversations

/-- The page id of request number `t`. -/
def pageId (t : ℕ) : Option String :=
  PageData.next F ⟨v0PageId query.limit (t % stored.v0Count query),
    v1PageId query.limit (t % stored.v1Count query)⟩

variable {F stored query}

theorem v0Count_pos : 0 < stored.v0Count query := pageCount_pos _ _

theorem v1Count_pos : 0 < stored.v1Count query := pageCount_pos _ _

theorem ofPageId_pageId (t : ℕ) : PageData.ofPageId F (stored.pageId F query t)
    = some ⟨v0PageId query.limit (t % stored.v0Count query),
      v1PageId query.limit (t % stored.v1Count query)⟩ := by
  unfold pageId PageData.next
  simp only [truthy_v0PageId, truthy_v1PageId, isSome_v0PageId, isSome_v1PageId,
    decide_eq_true_eq]
  split
  next hsome => exact ofPageId_encode F _
  next hnone =>
    -- both sources begin
    rw [not_or, Nat.not_lt, Nat.not_lt, Nat.le_zero, Nat.le_zero] at hnone
    rw [hnone.1, hnone.2]
    rfl

/-- There is no further page if both sources are exhausted at once. -/
theorem pageId_eq_none_iff (t : ℕ) : stored.pageId F query t = none ↔
    (stored.v0Count query).lcm (stored.v1Count query) ∣ t := by
  unfold pageId PageData.next
  simp only [truthy_v0PageId, truthy_v1PageId, isSome_v0PageId, isSome_v1PageId,
    decide_eq_true_eq]
  rw [Nat.lcm_dvd_iff, Nat.dvd_iff_mod_eq_zero, Nat.dvd_iff_mod_eq_zero]
  split
  next hsome =>
    refine iff_of_false (fun h => by cases h) fun hzero => ?_
    rw [hzero.1, hzero.2] at hsome
    simp at hsome
  next hnone =>
    rw [not_or, Nat.not_lt, Nat.not_lt, Nat.le_zero, Nat.le_zero] at hnone
    exact iff_of_true rfl hnone

/-- The answer to request number `t`. -/
theorem search_pageId (hlimit : 1 ≤ query.limit) (t : ℕ) :
    stored.search F query (stored.pageId F query t)
      = some ⟨cut ConversationInfo.createdAt query.limit
          (stored.v0Page query (t % stored.v0Count query))
          (stored.v1Page query (t % stored.v1Count query)),
        stored.pageId F query (t + 1)⟩ := by
  unfold search
  rw [ofPageId_pageId]
  simp only [Option.bind_eq_bind, Option.bind_some]
  unfold v0Count v1Count
  rw [directories_search stored.directories hlimit t, app_search stored.app _ _ hlimit t]
  rfl

/-- **Following the page ids comes to an end.** -/
theorem follow_eq (hlimit : 1 ≤ query.limit) {fuel : ℕ}
    (hfuel : (stored.v0Count query).lcm (stored.v1Count query) ≤ fuel) :
    followAny (stored.search F query) fuel none
      = some (readAll ConversationInfo.createdAt query.limit (stored.v0Page query)
        (stored.v1Page query) (stored.v0Count query) (stored.v1Count query)) := by
  have hpos : 0 < (stored.v0Count query).lcm (stored.v1Count query) :=
    Nat.lcm_pos v0Count_pos v1Count_pos
  obtain ⟨k, hk⟩ : ∃ k, (stored.v0Count query).lcm (stored.v1Count query) = k + 1 :=
    ⟨_, (Nat.sub_add_cancel hpos).symm⟩
  have hfirst : stored.pageId F query 0 = none := pageId_eq_none_iff 0 |>.mpr (Nat.dvd_zero _)
  have hsearch : ∀ t < k + 1, stored.search F query (stored.pageId F query t)
      = some ⟨cut ConversationInfo.createdAt query.limit
          (stored.v0Page query (t % stored.v0Count query))
          (stored.v1Page query (t % stored.v1Count query)),
        if t + 1 < k + 1 then stored.pageId F query (t + 1) else none⟩ := by
    intro t ht
    rw [search_pageId hlimit]
    split
    next => rfl
    next hge =>
      have hlast : stored.pageId F query (t + 1) = none := by
        rw [pageId_eq_none_iff, hk]
        exact ⟨1, by omega⟩
      rw [hlast]
  have htoken : ∀ t, t + 1 < k + 1 → (stored.pageId F query (t + 1)).isSome = true := by
    intro t ht
    rw [Option.isSome_iff_ne_none, ne_eq, pageId_eq_none_iff, hk]
    exact Nat.not_dvd_of_pos_of_lt (Nat.succ_pos t) ht
  have hfollow := followAny_of_tokens hsearch htoken k 0 (Nat.zero_add _) fuel (by omega)
  rw [hfirst] at hfollow
  rw [hfollow, readAll, hk, List.range_eq_range']

/-! ## What is wanted -/

/-- The pages of the conversations in files together. -/
theorem v0Page_perm (hlimit : 1 ≤ query.limit) :
    ((List.range (stored.v0Count query)).flatMap (stored.v0Page query)).Perm
      ((stored.directories.conversations.map getConversationInfo).filter query.wants) := by
  have hpages : (List.range (stored.v0Count query)).flatMap (stored.v0Page query)
      = (stored.directories.sorted.map getConversationInfo).filter query.wants := by
    rw [← flatMap_page_pageCount hlimit (length_sorted_le stored.directories), List.map_flatMap,
      List.filter_flatMap]
    rfl
  rw [hpages]
  exact ((sortNewest_perm _ _).map _).filter _

theorem v1Page_perm (hlimit : 1 ≤ query.limit) :
    ((List.range (stored.v1Count query)).flatMap (stored.v1Page query)).Perm
      (((stored.app.select query.userId query.includeSubConversations).map
        toConversationInfo).filter query.wants) := by
  have hsize : (stored.app.sorted query.userId query.includeSubConversations).length
      ≤ (stored.app.select query.userId query.includeSubConversations).length :=
    (sortNewest_perm _ _).length_eq.le
  have hpages : (List.range (stored.v1Count query)).flatMap (stored.v1Page query)
      = ((stored.app.sorted query.userId query.includeSubConversations).map
        toConversationInfo).filter query.wants := by
    rw [← flatMap_page_pageCount hlimit hsize, List.map_flatMap, List.filter_flatMap]
    rfl
  rw [hpages]
  exact ((sortNewest_perm _ _).map _).filter _

theorem members_perm (hlimit : 1 ≤ query.limit) :
    (members (stored.v0Page query) (stored.v1Page query) (stored.v0Count query)
      (stored.v1Count query)).Perm (stored.wanted query) :=
  (v0Page_perm hlimit).append (v1Page_perm hlimit)

/-- The loaded conversations have different names. -/
theorem conversations_nodup (directories : Directories) :
    (directories.conversations.map Prod.fst).Nodup := by
  have hsub : ∀ entries : List (String × Option ConversationMetadata),
      List.Sublist ((entries.filterMap fun entry => entry.2.map (entry.1, ·)).map Prod.fst)
        (entries.map Prod.fst) := by
    intro entries
    induction entries with
    | nil => exact List.Sublist.refl _
    | cons entry entries ih =>
      rcases entry with ⟨name, _ | metadata⟩
      · exact ih.cons name
      · exact ih.cons_cons name
  have hids := (List.filter_sublist (p := fun entry : String × Option ConversationMetadata =>
    entry.1.toList.head? ≠ some '.') (l := directories.entries)).map Prod.fst
  exact directories.nodup.sublist ((hsub _).trans hids)

/-- Nothing is wanted twice: the versions tell the sources apart, and the ids the others. -/
theorem wanted_nodup : (stored.wanted query).Nodup := by
  refine List.nodup_append'.mpr ⟨?_, ?_, ?_⟩
  · -- in the files the ids are the names of directories
    refine List.Nodup.filter _ (List.Nodup.of_map ConversationInfo.conversationId ?_)
    rw [List.map_map]
    exact conversations_nodup stored.directories
  · refine List.Nodup.filter _ (List.Nodup.of_map ConversationInfo.conversationId ?_)
    rw [List.map_map]
    exact stored.app.nodup.sublist (List.filter_sublist.map _)
  · intro conversation hv0 hv1
    obtain ⟨c, -, hc⟩ := List.mem_map.mp (List.mem_of_mem_filter hv0)
    obtain ⟨info, -, hinfo⟩ := List.mem_map.mp (List.mem_of_mem_filter hv1)
    have hversion : "V0" = "V1" :=
      congrArg ConversationInfo.conversationVersion (hc.trans hinfo.symm)
    exact absurd hversion (by decide)

theorem length_v0Page_le (i : ℕ) : (stored.v0Page query i).length ≤ query.limit := by
  refine (List.length_filter_le _ _).trans ?_
  rw [List.length_map]
  exact length_page_le _ _ _

theorem length_v1Page_le (i : ℕ) : (stored.v1Page query i).length ≤ query.limit := by
  refine (List.length_filter_le _ _).trans ?_
  rw [List.length_map]
  exact length_page_le _ _ _

/-- What was found is what all requests read. -/
theorem complete_iff_readAll (hlimit : 1 ≤ query.limit) : stored.Complete F query ↔
    (readAll ConversationInfo.createdAt query.limit (stored.v0Page query) (stored.v1Page query)
      (stored.v0Count query) (stored.v1Count query)).Perm (stored.wanted query) := by
  constructor
  · rintro ⟨fuel, found, hfollow, hperm⟩
    have hmore := followAny_mono hfollow (Nat.le_max_left fuel
      ((stored.v0Count query).lcm (stored.v1Count query)))
    rw [follow_eq hlimit (Nat.le_max_right _ _)] at hmore
    rw [Option.some.inj hmore]
    exact hperm
  · exact fun hperm => ⟨_, _, follow_eq hlimit (Nat.le_refl _), hperm⟩

/-- **The pages hold every conversation that is wanted exactly once if and only if pages fit
together or displace each other, and each is taken once.** -/
theorem complete_iff (hlimit : 1 ≤ query.limit) :
    stored.Complete F query ↔ stored.PagesWhole query := by
  have hmembers : (members (stored.v0Page query) (stored.v1Page query) (stored.v0Count query)
    (stored.v1Count query)).Perm (stored.wanted query) := members_perm hlimit
  have hnodup := hmembers.nodup_iff.mpr wanted_nodup
  rw [complete_iff_readAll hlimit, ← hmembers.congr_right]
  exact readAll_perm_iff hnodup v0Count_pos v1Count_pos (fun _ _ => length_v0Page_le _)
    (fun _ _ => length_v1Page_le _)

/-- Sources with the same number of pages are read together: their pages have to fit. -/
theorem pagesWhole_iff_fits (h : stored.v0Count query = stored.v1Count query) :
    stored.PagesWhole query ↔ ∀ t < stored.v0Count query,
      (stored.v0Page query t).length + (stored.v1Page query t).length ≤ query.limit := by
  unfold PagesWhole
  rw [← h]
  exact whole_self_iff v0Count_pos

/-- More than a page for each request is not found. -/
theorem length_wanted_le (hlimit : 1 ≤ query.limit) (h : stored.Complete F query) :
    (stored.wanted query).length
      ≤ (stored.v0Count query).lcm (stored.v1Count query) * query.limit := by
  rw [← ((complete_iff_readAll hlimit).mp h).length_eq]
  exact length_readAll_le _ _ _ _

end Conversations

/-! ## A conversation in files and one of the app server -/

/-- The only number with a point is `0.0`; page ids hold none. -/
def onlyZero : JsonText.FloatFormat where
  text _ := "0.0".toList
  read literal := if literal = "0.0".toList then some 0 else none
  scanNumeral_text _ := ⟨⟨[], ['0'], ['.', '0'], []⟩, by decide, by decide, by rfl⟩
  read_text h := by
    split at h
    · exact (if_pos rfl).trans h
    · cases h

def twoConversations : Conversations where
  directories := PyDict.empty.set "first" (some {
    createdAt := 1
    isoformat := "2025-01-01T00:00:00+00:00"
    selectedRepository := none
    trigger := none })
  app :=
    { infos := [{
        id := "second"
        createdByUserId := some "alice"
        sandboxId := "sandbox"
        createdAt := 2
        updatedAt := 2 }]
      nodup := List.nodup_singleton _ }

/-- Two conversations of the repository `r` in files, and two others of the app server. -/
def fourConversations : Conversations where
  directories := ["first", "second"].foldl (fun entries id => entries.set id (some {
    createdAt := 1
    isoformat := "2025-01-01T00:00:00+00:00"
    selectedRepository := some "r"
    trigger := none })) PyDict.empty
  app :=
    { infos := ["third", "fourth"].map fun id => {
        id := id
        createdByUserId := some "alice"
        sandboxId := "sandbox"
        createdAt := 2
        updatedAt := 2 }
      nodup := by decide }

/-- The conversations of the repository, one to a page. -/
def ofRepository : Query := ⟨some "alice", 1, some "r", none, false⟩

/-- Two pages are read together with pages of which nothing is wanted, and both are found. -/
theorem complete_iff_four : fourConversations.v0Count ofRepository = 2 ∧
    fourConversations.Complete onlyZero ofRepository := by
  refine ⟨by decide, (Conversations.complete_iff (by decide)).mpr ?_⟩
  refine (Conversations.pagesWhole_iff_fits (by decide)).mpr fun t ht => ?_
  have hnone : (List.range (fourConversations.v1Count ofRepository)).flatMap
      (fourConversations.v1Page ofRepository) = [] :=
    List.perm_nil.mp (Conversations.v1Page_perm (by decide))
  have hv1 := List.flatMap_eq_nil_iff.mp hnone t (List.mem_range.mpr ht)
  rw [hv1]
  exact Conversations.length_v0Page_le t

/-- With one conversation to a page one of them is never found. -/
theorem not_complete_one :
    ¬ twoConversations.Complete onlyZero ⟨some "alice", 1, none, none, false⟩ := by
  intro h
  have hle := Conversations.length_wanted_le (by decide) h
  exact absurd hle (by decide)

end OpenHands.ConversationSearch
