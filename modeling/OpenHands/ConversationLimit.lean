/-
# Whether the limit on conversations holds

The set of running conversations has strings for members and the set of the user's recent
ones has rows, so that their intersection is empty and the limit is never reached for a
user.  `limitHolds_iff` says when that does no harm.  Without a user id there is no
intersection; there the loop that closes the oldest conversations does what it should.
-/
import OpenHands.Lib.PySeq
import OpenHands.RunningConversations

namespace OpenHands.Saas

variable {S : Services} {order : IterationOrder} {now : ℤ} {userId : String} {limit : ℕ}

namespace Services

/-! ## The sets of ids -/

theorem getAllRunningConversationIds_eq :
    S.getAllRunningConversationIds = S.runningIds.image Element.str := by
  unfold getAllRunningConversationIds runningIds
  ext x
  simp

/-- No running conversation is a row. -/
theorem inter_recent_eq_empty :
    S.getAllRunningConversationIds ∩ S.getRecentConversationIdsForUser now userId = ∅ := by
  rw [Finset.eq_empty_iff_forall_notMem]
  intro x hx
  obtain ⟨hstr, hrow⟩ := Finset.mem_inter.mp hx
  rw [getAllRunningConversationIds_eq] at hstr
  obtain ⟨id, -, rfl⟩ := Finset.mem_image.mp hstr
  unfold getRecentConversationIdsForUser at hrow
  simp at hrow

theorem getRunningAgentLoops_of_user (h : userId ≠ "") :
    S.getRunningAgentLoops now (some userId) none = ∅ := by
  have hfilter : (some userId).filter (· ≠ "") = some userId := by simp [h]
  unfold getRunningAgentLoops
  rw [hfilter]
  exact inter_recent_eq_empty

theorem getRunningAgentLoops_of_empty :
    S.getRunningAgentLoops now (some "") none = S.runningIds.image Element.str := by
  have hfilter : (some "").filter (· ≠ "") = none := by simp
  unfold getRunningAgentLoops
  rw [hfilter]
  exact getAllRunningConversationIds_eq

theorem str_injective : Function.Injective Element.str := fun _ _ h => by cases h; rfl

theorem mem_recentRunning {id : String} : id ∈ S.recentRunning now userId ↔
    id ∈ S.runningIds ∧ ∃ row ∈ S.recentRows now userId, row.conversationId = id := by
  unfold recentRunning
  rw [Finset.mem_inter, List.mem_toFinset, List.mem_map]

/-- Below the limit nothing is closed. -/
theorem ensure_of_lt (h : (S.getRunningAgentLoops now (some userId) none).card < limit) :
    S.ensureNumConversationsBelowLimit order now userId limit = some (S, []) :=
  if_neg (Nat.not_le_of_lt h)

/-- From the limit on the oldest conversations are closed. -/
theorem ensure_of_le (h : limit ≤ (S.getRunningAgentLoops now (some userId) none).card) :
    S.ensureNumConversationsBelowLimit order now userId limit
      = (S.getAllMetadata userId
          (order.toList (S.getRunningAgentLoops now (some userId) none))).bind fun conversations =>
        (OldestFirst.evict lastUpdatedAtKey limit conversations).map fun evicted =>
          ((evicted.1.map ConversationMetadata.conversationId).foldl closeSession S,
            evicted.1.map ConversationMetadata.conversationId) :=
  if_pos h

/-- Where nothing is closed the limit holds if it did before. -/
theorem limitHolds_of_lt (h : (S.getRunningAgentLoops now (some userId) none).card < limit)
    (hids : S.getRunningAgentLoops now (some userId) none
      = (S.recentRunning now userId).image Element.str) : S.LimitHolds order now userId limit := by
  refine ⟨hids, S, [], ensure_of_lt h, ?_, fun id hid => by cases hid⟩
  rw [hids, Finset.card_image_of_injective _ str_injective] at h
  exact h

/-- For a user nothing is closed, which is right only if nothing runs. -/
theorem limitHolds_of_user_iff (hlimit : 1 ≤ limit) (h : userId ≠ "") :
    S.LimitHolds order now userId limit ↔ S.recentRunning now userId = ∅ := by
  have hnone : S.getRunningAgentLoops now (some userId) none = ∅ := getRunningAgentLoops_of_user h
  constructor
  · rintro ⟨hids, -⟩
    rw [hnone] at hids
    exact Finset.image_eq_empty.mp hids.symm
  · intro hempty
    refine limitHolds_of_lt ?_ (by rw [hnone, hempty, Finset.image_empty])
    rw [hnone, Finset.card_empty]
    omega

/-! ## The metadata of the conversations -/

/-- The primary key finds the row of an id. -/
theorem first_of_mem {row : StoredConversationMetadata} (h : row ∈ S.metadata.rows) :
    S.metadata.first row.conversationId = some row := by
  unfold MetadataTable.first
  have hsome : (S.metadata.rows.find? fun r => r.conversationId = row.conversationId).isSome := by
    rw [List.find?_isSome]
    exact ⟨row, h, by simp⟩
  obtain ⟨found, hfound⟩ := Option.isSome_iff_exists.mp hsome
  have hid : found.conversationId = row.conversationId := by
    simpa using List.find?_some hfound
  rw [hfound, List.inj_on_of_nodup_map S.metadata.nodup (List.mem_of_find?_eq_some hfound) h hid]

/-- The metadata of an id with the time of its row. -/
theorem getMetadata_eq_some {x : Element} {c : ConversationMetadata}
    (h : S.getMetadata userId x = some c) :
    x = .str c.conversationId ∧ S.lastUpdate c.conversationId = c.lastUpdatedAt ∧
      ∃ row ∈ S.metadata.rows, row.userId = userId ∧ row.conversationId = c.conversationId ∧
        row.conversationVersion = "V0" := by
  cases x with
  | row id => cases h
  | str id =>
      obtain ⟨row, hfind, hmap⟩ := Option.bind_eq_some_iff.mp h
      obtain ⟨t, ht, rfl⟩ := Option.map_eq_some_iff.mp hmap
      have hmem := List.mem_of_find?_eq_some hfind
      have hrow : row.userId = userId ∧ row.conversationId = id ∧
          row.conversationVersion = "V0" := by
        simpa using List.find?_some hfind
      refine ⟨by rw [hrow.2.1], ?_, row, hmem, hrow.1, rfl, hrow.2.2⟩
      show (S.metadata.first row.conversationId).bind _ = some t
      rw [first_of_mem hmem, Option.bind_some, ht]

/-- A recent row of the first version is found by its user. -/
theorem exists_getMetadata {row : StoredConversationMetadata}
    (hrow : row ∈ S.recentRows now userId) (hversion : row.conversationVersion = "V0") :
    ∃ c, S.getMetadata userId (.str row.conversationId) = some c := by
  obtain ⟨hmem, hrecent⟩ := List.mem_filter.mp hrow
  rw [decide_eq_true_eq] at hrecent
  have hsome : (S.metadata.rows.find? fun r => r.userId = userId ∧
      r.conversationId = row.conversationId ∧ r.conversationVersion = "V0").isSome := by
    rw [List.find?_isSome]
    exact ⟨row, hmem, by simp [hrecent.1, hversion]⟩
  obtain ⟨found, hfound⟩ := Option.isSome_iff_exists.mp hsome
  have hid : found.conversationId = row.conversationId := by
    have hprop := List.find?_some hfound
    rw [decide_eq_true_eq] at hprop
    exact hprop.2.1
  have hsame : found = row :=
    List.inj_on_of_nodup_map S.metadata.nodup (List.mem_of_find?_eq_some hfound) hmem hid
  subst hsame
  have htime := hrecent.2
  unfold StoredConversationMetadata.updatedSince at htime
  cases hlast : found.lastUpdatedAt with
  | none =>
      rw [hlast] at htime
      cases htime
  | some t =>
      refine ⟨{ conversationId := found.conversationId, lastUpdatedAt := some t }, ?_⟩
      show (S.metadata.rows.find? fun row => row.userId = userId ∧
        row.conversationId = found.conversationId ∧ row.conversationVersion = "V0").bind _ = _
      rw [hfound, Option.bind_some, hlast]
      rfl

/-- All lookups succeed with these results. -/
theorem getAllMetadata_eq_some_iff {ids : List Element} {cs : List ConversationMetadata} :
    S.getAllMetadata userId ids = some cs ↔ ids.map (S.getMetadata userId) = cs.map some :=
  PySeq.mapM_eq_some_iff

theorem exists_getAllMetadata {ids : List Element}
    (h : ∀ x ∈ ids, ∃ c, S.getMetadata userId x = some c) :
    ∃ cs, S.getAllMetadata userId ids = some cs := by
  refine ⟨(ids.map (S.getMetadata userId)).reduceOption, getAllMetadata_eq_some_iff.mpr ?_⟩
  induction ids with
  | nil => rfl
  | cons x ids ih =>
      obtain ⟨c, hc⟩ := h x List.mem_cons_self
      have hrest := ih fun y hy => h y (List.mem_cons_of_mem _ hy)
      rw [List.map_cons, hc, List.reduceOption_cons_of_some, List.map_cons, ← hrest]

/-- The ids of the metadata are those that were looked up. -/
theorem getAllMetadata_ids {ids : List Element} {cs : List ConversationMetadata}
    (h : S.getAllMetadata userId ids = some cs) {id : String} :
    Element.str id ∈ ids ↔ id ∈ cs.map ConversationMetadata.conversationId := by
  rw [getAllMetadata_eq_some_iff] at h
  constructor
  · intro hid
    have hmem : S.getMetadata userId (.str id) ∈ cs.map some := h ▸ List.mem_map_of_mem hid
    obtain ⟨c, hc, hfound⟩ := List.mem_map.mp hmem
    have hstr := (getMetadata_eq_some hfound.symm).1
    cases hstr
    exact List.mem_map_of_mem hc
  · intro hid
    obtain ⟨c, hc, rfl⟩ := List.mem_map.mp hid
    have hmem : some c ∈ ids.map (S.getMetadata userId) := h ▸ List.mem_map_of_mem hc
    obtain ⟨x, hx, hfound⟩ := List.mem_map.mp hmem
    exact (getMetadata_eq_some hfound).1 ▸ hx

/-! ## Closed sessions -/

theorem runningIds_closeSession (sid : String) :
    (S.closeSession sid).runningIds = S.runningIds.erase sid := by
  unfold closeSession runningIds
  ext id
  rw [Finset.mem_erase, List.mem_toFinset, List.mem_toFinset, List.mem_map, List.mem_map]
  simp only [List.mem_filter, List.mem_map, decide_eq_true_eq]
  constructor
  · rintro ⟨_, ⟨⟨runtime, hruntime, rfl⟩, hstatus⟩, rfl⟩
    by_cases hsid : runtime.sessionId = sid
    · rw [if_pos hsid] at hstatus
      exact absurd hstatus (by simp)
    · rw [if_neg hsid] at hstatus ⊢
      exact ⟨hsid, runtime, ⟨hruntime, hstatus⟩, rfl⟩
  · rintro ⟨hsid, runtime, ⟨hruntime, hstatus⟩, rfl⟩
    exact ⟨runtime, ⟨⟨runtime, hruntime, if_neg hsid⟩, hstatus⟩, rfl⟩

/-- Closed sessions do not run, and everything else is as before. -/
theorem closeSessions_spec (closed : List String) :
    (closed.foldl closeSession S).runningIds = S.runningIds \ closed.toFinset ∧
      (closed.foldl closeSession S).metadata = S.metadata := by
  induction closed generalizing S with
  | nil => exact ⟨by rw [List.foldl_nil, List.toFinset_nil, Finset.sdiff_empty], rfl⟩
  | cons sid closed ih =>
      obtain ⟨hrunning, hmetadata⟩ := ih (S := S.closeSession sid)
      rw [List.foldl_cons, hrunning, runningIds_closeSession]
      refine ⟨?_, hmetadata⟩
      ext id
      simp only [Finset.mem_sdiff, Finset.mem_erase, List.mem_toFinset, List.mem_cons, not_or]
      exact ⟨fun h => ⟨h.1.2, h.1.1, h.2⟩, fun h => ⟨⟨h.2.1, h.1⟩, h.2.2⟩⟩

/-! ## Without a user -/

/-- The loop closes the oldest of the conversations that are found. -/
theorem limitHolds_of_metadata (hlimit : 1 ≤ limit) {cs : List ConversationMetadata}
    (hle : limit ≤ (S.getRunningAgentLoops now (some userId) none).card)
    (hids : S.getRunningAgentLoops now (some userId) none
      = (S.recentRunning now userId).image Element.str)
    (hcs : S.getAllMetadata userId
      (order.toList (S.getRunningAgentLoops now (some userId) none)) = some cs) :
    S.LimitHolds order now userId limit := by
  obtain ⟨taken, left, hevict, hperm, hlength, hold⟩ :
      ∃ taken left, OldestFirst.evict lastUpdatedAtKey limit cs = some (taken, left) ∧
        (taken ++ left).Perm cs ∧ left.length < limit ∧
        ∀ a ∈ taken, ∀ b ∈ left, lastUpdatedAtKey a ≤ lastUpdatedAtKey b :=
    OldestFirst.exists_evict hlimit cs
  have hmem : ∀ id, id ∈ S.recentRunning now userId ↔
      id ∈ taken.map ConversationMetadata.conversationId ∨
        id ∈ left.map ConversationMetadata.conversationId := by
    intro id
    rw [← List.mem_append, ← List.map_append, (hperm.map _).mem_iff, ← getAllMetadata_ids hcs,
      order.mem, hids]
    exact (str_injective.mem_finset_image).symm
  have hfound : ∀ c ∈ taken ++ left, S.lastUpdate c.conversationId = c.lastUpdatedAt := by
    intro c hc
    have hlookups := getAllMetadata_eq_some_iff.mp hcs
    have hmap : some c ∈ cs.map some := List.mem_map_of_mem (hperm.mem_iff.mp hc)
    obtain ⟨x, -, hx⟩ := List.mem_map.mp (hlookups ▸ hmap)
    exact (getMetadata_eq_some hx).2.1
  have hafter : ∀ id, id ∈ ((taken.map ConversationMetadata.conversationId).foldl closeSession
      S).recentRunning now userId → id ∈ left.map ConversationMetadata.conversationId := by
    intro id hid
    obtain ⟨hrunning, hmetadata⟩ := closeSessions_spec (S := S)
      (taken.map ConversationMetadata.conversationId)
    rw [mem_recentRunning, hrunning, Finset.mem_sdiff, List.mem_toFinset] at hid
    obtain ⟨⟨hrun, hopen⟩, hrow⟩ := hid
    unfold recentRows at hrow
    rw [hmetadata] at hrow
    exact ((hmem id).mp (mem_recentRunning.mpr ⟨hrun, hrow⟩)).resolve_left hopen
  refine ⟨hids, (taken.map ConversationMetadata.conversationId).foldl closeSession S,
    taken.map ConversationMetadata.conversationId, ?_, ?_, ?_⟩
  · rw [ensure_of_le hle, hcs, Option.bind_some, hevict]
    rfl
  · have hsub : ((taken.map ConversationMetadata.conversationId).foldl closeSession
        S).recentRunning now userId
          ⊆ (left.map ConversationMetadata.conversationId).toFinset :=
      fun id hid => List.mem_toFinset.mpr (hafter id hid)
    refine lt_of_le_of_lt (Finset.card_le_card hsub) (lt_of_le_of_lt (List.toFinset_card_le _) ?_)
    rw [List.length_map]
    exact hlength
  · intro id hid
    refine ⟨(hmem id).mpr (Or.inl hid), fun other hother t u ht hu => ?_⟩
    obtain ⟨c, hc, rfl⟩ := List.mem_map.mp hid
    obtain ⟨d, hd, rfl⟩ := List.mem_map.mp (hafter other hother)
    rw [hfound c (List.mem_append_left _ hc)] at ht
    rw [hfound d (List.mem_append_right _ hd)] at hu
    have hle := hold c hc d hd
    unfold lastUpdatedAtKey at hle
    rw [ht, hu] at hle
    exact hle

/-- Without a user every conversation is closed for that runs, so that all of them have to be
recent ones; and from the limit on the store has to know them. -/
theorem limitHolds_of_empty_iff (hlimit : 1 ≤ limit) :
    S.LimitHolds order now "" limit ↔
      S.runningIds = S.recentRunning now "" ∧
        ((S.recentRunning now "").card < limit ∨
          ∀ row ∈ S.recentRows now "", row.conversationId ∈ S.runningIds →
            row.conversationVersion = "V0") := by
  have hall : S.getRunningAgentLoops now (some "") none = S.runningIds.image Element.str :=
    getRunningAgentLoops_of_empty
  have hcard : (S.getRunningAgentLoops now (some "") none).card = S.runningIds.card := by
    rw [hall, Finset.card_image_of_injective _ str_injective]
  constructor
  · rintro ⟨hids, S', closed, hensure, -⟩
    have hrunning : S.runningIds = S.recentRunning now "" :=
      Finset.image_injective str_injective (hall.symm.trans hids)
    refine ⟨hrunning, ?_⟩
    by_cases hlt : (S.recentRunning now "").card < limit
    · exact Or.inl hlt
    · refine Or.inr fun row hrow hrun => ?_
      rw [ensure_of_le (by rw [hcard, hrunning]; omega)] at hensure
      obtain ⟨cs, hcs, -⟩ := Option.bind_eq_some_iff.mp hensure
      have hid : Element.str row.conversationId ∈
          order.toList (S.getRunningAgentLoops now (some "") none) := by
        rw [order.mem, hall]
        exact Finset.mem_image_of_mem _ hrun
      have hlookups := getAllMetadata_eq_some_iff.mp hcs
      obtain ⟨c, -, hc⟩ := List.mem_map.mp (hlookups ▸ List.mem_map_of_mem hid)
      obtain ⟨hstr, -, row', hrow', -, hid', hversion⟩ := getMetadata_eq_some hc.symm
      have hsame : row' = row := List.inj_on_of_nodup_map S.metadata.nodup hrow'
        (List.mem_of_mem_filter hrow) (hid'.trans (str_injective hstr).symm)
      exact hsame ▸ hversion
  · rintro ⟨hrunning, hfew⟩
    have hids : S.getRunningAgentLoops now (some "") none
        = (S.recentRunning now "").image Element.str := by rw [hall, ← hrunning]
    by_cases hlt : (S.recentRunning now "").card < limit
    · exact limitHolds_of_lt (by rw [hcard, hrunning]; exact hlt) hids
    · have hversions := hfew.resolve_left hlt
      have hexists : ∀ x ∈ order.toList (S.getRunningAgentLoops now (some "") none),
          ∃ c, S.getMetadata "" x = some c := by
        intro x hx
        rw [order.mem, hids] at hx
        obtain ⟨id, hid, rfl⟩ := Finset.mem_image.mp hx
        obtain ⟨hrun, row, hrow, rfl⟩ := mem_recentRunning.mp hid
        exact exists_getMetadata hrow (hversions row hrow hrun)
      obtain ⟨cs, hcs⟩ := exists_getAllMetadata hexists
      exact limitHolds_of_metadata hlimit (by rw [hcard, hrunning]; omega) hids hcs

/-- **When the limit on running conversations holds.** -/
theorem limitHolds_iff (hlimit : 1 ≤ limit) :
    S.LimitHolds order now userId limit ↔
      if userId = "" then
        S.runningIds = S.recentRunning now userId ∧
          ((S.recentRunning now userId).card < limit ∨
            ∀ row ∈ S.recentRows now userId, row.conversationId ∈ S.runningIds →
              row.conversationVersion = "V0")
      else S.recentRunning now userId = ∅ := by
  by_cases h : userId = ""
  · rw [if_pos h]
    subst h
    exact limitHolds_of_empty_iff hlimit
  · rw [if_neg h]
    exact limitHolds_of_user_iff hlimit h

end Services

/-- Some order of the members of a set. -/
noncomputable def someOrder : IterationOrder where
  toList := Finset.toList
  nodup := Finset.nodup_toList
  mem _ _ := Finset.mem_toList

/-- A user with a running conversation that was updated two weeks ago. -/
def oldConversation : Services where
  metadata :=
    { rows := [{ conversationId := "a", userId := "alice", lastUpdatedAt := some 0 }]
      nodup := by simp }
  runtimes := [{ sessionId := "a", status := some "running" }]

theorem limitHolds_oldConversation :
    1 ≤ 3 ∧ oldConversation.LimitHolds someOrder (2 * oneWeek) "alice" 3 :=
  ⟨by decide, (Services.limitHolds_iff (by decide)).mpr (by decide)⟩

/-- A user with two running conversations. -/
def twoConversations : Services where
  metadata :=
    { rows := [{ conversationId := "a", userId := "alice", lastUpdatedAt := some 0 },
        { conversationId := "b", userId := "alice", lastUpdatedAt := some 1 }]
      nodup := by simp }
  runtimes :=
    [{ sessionId := "a", status := some "running" }, { sessionId := "b", status := some "running" }]

theorem not_limitHolds_twoConversations :
    ¬ twoConversations.LimitHolds someOrder 2 "alice" 1 := by
  rw [Services.limitHolds_of_user_iff (by decide) (by decide)]
  decide

end OpenHands.Saas
