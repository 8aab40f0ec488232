/-
# Whether a start keeps the limit of the cluster

The loop closes the oldest of the conversations that were counted, and one that no server has
registered is not closed by that: it is the conversation being started, or another start in
progress.  The limit holds exactly if none of these is among the oldest.
-/
import Mathlib.Data.List.Permutation
import OpenHands.ClusteredStarts
import OpenHands.ConversationLimit
import OpenHands.Lib.PySeq

namespace OpenHands.Clustered

open Saas (ConversationMetadata lastUpdatedAtKey)

variable {cluster : Cluster} {store : ConversationStore} {order : SetOrder String}

/-! ## The metadata of the conversations -/

namespace ConversationStore

theorem getAllMetadata_eq_some_iff {ids : List String} {cs : List ConversationMetadata} :
    store.getAllMetadata ids = some cs ↔ ids.map store.getMetadata = cs.map some :=
  PySeq.mapM_eq_some_iff

/-- Metadata come with the ids that were looked up, in their order. -/
theorem map_conversationId {ids : List String} {cs : List ConversationMetadata}
    (h : store.getAllMetadata ids = some cs) : cs.map ConversationMetadata.conversationId = ids := by
  rw [getAllMetadata_eq_some_iff] at h
  induction ids generalizing cs with
  | nil =>
    rw [List.map_nil, eq_comm, List.map_eq_nil_iff] at h
    rw [h]
    rfl
  | cons id ids ih =>
    cases cs with
    | nil => cases h
    | cons c cs =>
      rw [List.map_cons, List.map_cons] at h
      obtain ⟨hc, hcs⟩ := List.cons.inj h
      rw [List.map_cons, ih hcs, store.conversationId_eq id c hc]

/-- Metadata that were found are found again. -/
theorem getMetadata_of_mem {ids : List String} {cs : List ConversationMetadata}
    (h : store.getAllMetadata ids = some cs) {c : ConversationMetadata} (hc : c ∈ cs) :
    store.getMetadata c.conversationId = some c := by
  rw [getAllMetadata_eq_some_iff] at h
  have hmem : some c ∈ ids.map store.getMetadata := h ▸ List.mem_map_of_mem hc
  obtain ⟨id, -, hid⟩ := List.mem_map.mp hmem
  rw [store.conversationId_eq id c hid]
  exact hid

end ConversationStore

namespace Cluster

/-! ## The conversations of a user -/

theorem mem_running {userId id : String} : id ∈ cluster.running userId ↔
    ∃ loop ∈ cluster.here ++ cluster.elsewhere ++ cluster.starting,
      loop.userId = userId ∧ loop.sid = id := by
  unfold running
  simp only [List.mem_toFinset, List.mem_map, List.mem_filter, decide_eq_true_eq, and_assoc]

theorem mem_beingStarted {userId id : String} : id ∈ cluster.beingStarted userId ↔
    ∃ loop ∈ cluster.starting, loop.userId = userId ∧ loop.sid = id := by
  unfold beingStarted
  simp only [List.mem_toFinset, List.mem_map, List.mem_filter, decide_eq_true_eq, and_assoc]

theorem beingStarted_subset {userId id : String} (h : id ∈ cluster.beingStarted userId) :
    id ∈ cluster.running userId := by
  obtain ⟨loop, hloop, huser, rfl⟩ := mem_beingStarted.mp h
  exact mem_running.mpr ⟨loop, List.mem_append_right _ hloop, huser, rfl⟩

/-- The conversations that are counted are those of the user. -/
theorem getRunningAgentLoops_eq {userId : String} (h : userId ≠ "") :
    cluster.getRunningAgentLoops userId = cluster.running userId := by
  ext id
  unfold getRunningAgentLoops getRunningAgentLoopsLocally getRunningAgentLoopsRemotely redisKeys
  rw [mem_running, Finset.mem_union]
  simp only [List.mem_toFinset, List.mem_map, List.mem_filter, decide_eq_true_eq, h, false_or]
  constructor
  · rintro (⟨loop, ⟨hloop, huser⟩, hid⟩ | ⟨key, ⟨⟨loop, hloop, rfl⟩, huser⟩, hid⟩)
    · exact ⟨loop, List.mem_append_left _ (List.mem_append_left _ hloop), huser, hid⟩
    · exact ⟨loop, hloop, Option.some.inj huser, hid⟩
  · rintro ⟨loop, hloop, huser, hid⟩
    exact Or.inr ⟨loop.key, ⟨⟨loop, hloop, rfl⟩, congrArg some huser⟩, hid⟩

/-- A set of closes takes the registered loops away. -/
theorem foldl_closeSession (closed : List String) :
    closed.foldl closeSession cluster =
      { cluster with
        here := cluster.here.filter (·.sid ∉ closed)
        elsewhere := cluster.elsewhere.filter (·.sid ∉ closed) } := by
  induction closed generalizing cluster with
  | nil => simp
  | cons sid closed ih =>
    rw [List.foldl_cons, ih]
    unfold closeSession
    simp only [List.filter_filter, List.mem_cons, not_or, ne_eq, Bool.decide_and]
    congr 1
    · exact List.filter_congr fun loop _ => Bool.and_comm ..
    · exact List.filter_congr fun loop _ => Bool.and_comm ..

/-- Afterwards the user has the new conversation, those that are being started, and those that
were not closed. -/
theorem mem_running_register {loop : Loop} {closed : List String} {id : String} :
    id ∈ ((closed.foldl closeSession
        { cluster with starting := loop :: cluster.starting }).register loop).running loop.userId
      ↔ id = loop.sid ∨ id ∈ cluster.beingStarted loop.userId ∨
        id ∈ cluster.running loop.userId ∧ id ∉ closed := by
  rw [foldl_closeSession, mem_running, mem_running, mem_beingStarted]
  unfold register
  dsimp only
  rw [List.erase_cons_head]
  constructor
  · rintro ⟨other, hother, huser, rfl⟩
    rcases List.mem_append.mp hother with hother | hother
    · rcases List.mem_append.mp hother with hother | hother
      · rcases List.mem_cons.mp hother with rfl | hother
        · exact Or.inl rfl
        · obtain ⟨hmem, hopen⟩ := List.mem_filter.mp hother
          exact Or.inr (Or.inr ⟨⟨other, List.mem_append_left _ (List.mem_append_left _ hmem),
            huser, rfl⟩, of_decide_eq_true hopen⟩)
      · obtain ⟨hmem, hopen⟩ := List.mem_filter.mp hother
        exact Or.inr (Or.inr ⟨⟨other, List.mem_append_left _ (List.mem_append_right _ hmem),
          huser, rfl⟩, of_decide_eq_true hopen⟩)
    · exact Or.inr (Or.inl ⟨other, hother, huser, rfl⟩)
  · rintro (rfl | ⟨other, hother, huser, rfl⟩ | ⟨⟨other, hother, huser, rfl⟩, hopen⟩)
    · exact ⟨loop, List.mem_append_left _ (List.mem_append_left _ List.mem_cons_self), rfl, rfl⟩
    · exact ⟨other, List.mem_append_right _ hother, huser, rfl⟩
    · rcases List.mem_append.mp hother with hother | hother
      · have hkept : decide (other.sid ∉ closed) = true := decide_eq_true hopen
        rcases List.mem_append.mp hother with hother | hother
        · exact ⟨other, List.mem_append_left _ (List.mem_append_left _
            (List.mem_cons_of_mem _ (List.mem_filter.mpr ⟨hother, hkept⟩))), huser, rfl⟩
        · exact ⟨other, List.mem_append_left _ (List.mem_append_right _
            (List.mem_filter.mpr ⟨hother, hkept⟩)), huser, rfl⟩
      · exact ⟨other, List.mem_append_right _ hother, huser, rfl⟩

/-! ## The conversations that are counted -/

variable {loop : Loop} {limit : ℕ}

/-- The conversations of the user with the one being started. -/
def counted (cluster : Cluster) (loop : Loop) : Finset String :=
  insert loop.sid (cluster.running loop.userId)

theorem getRunningAgentLoops_marked :
    ({ cluster with starting := loop :: cluster.starting } : Cluster).getRunningAgentLoops
      loop.userId = cluster.counted loop := by
  rw [getRunningAgentLoops_eq loop.userId_ne]
  ext id
  unfold counted
  rw [Finset.mem_insert, mem_running, mem_running]
  constructor
  · rintro ⟨other, hother, huser, rfl⟩
    rcases List.mem_append.mp hother with hother | hother
    · exact Or.inr ⟨other, List.mem_append_left _ hother, huser, rfl⟩
    · rcases List.mem_cons.mp hother with rfl | hother
      · exact Or.inl rfl
      · exact Or.inr ⟨other, List.mem_append_right _ hother, huser, rfl⟩
  · rintro (rfl | ⟨other, hother, huser, rfl⟩)
    · exact ⟨loop, List.mem_append_right _ List.mem_cons_self, rfl, rfl⟩
    · refine ⟨other, ?_, huser, rfl⟩
      rcases List.mem_append.mp hother with hother | hother
      · exact List.mem_append_left _ hother
      · exact List.mem_append_right _ (List.mem_cons_of_mem _ hother)

theorem card_counted (hnew : loop.sid ∉ cluster.running loop.userId) :
    (cluster.counted loop).card = (cluster.running loop.userId).card + 1 :=
  Finset.card_insert_of_notMem hnew

/-- A conversation that the user does not have has no key. -/
theorem key_notMem (hnew : loop.sid ∉ cluster.running loop.userId) :
    loop.key ∉ cluster.redisKeys := by
  intro hkey
  obtain ⟨other, hother, heq⟩ := List.mem_map.mp hkey
  have huser : other.userId = loop.userId :=
    Option.some.inj (congrArg ConversationKey.userId heq)
  have hsid : other.sid = loop.sid := congrArg ConversationKey.conversationId heq
  exact hnew (mem_running.mpr ⟨other, hother, huser, hsid⟩)

/-- Below the limit nothing is closed. -/
theorem maybeStartAgentLoop_of_lt (hnew : loop.sid ∉ cluster.running loop.userId)
    (hlt : (cluster.running loop.userId).card < limit) :
    cluster.maybeStartAgentLoop store order limit loop
      = some (([].foldl closeSession
          { cluster with starting := loop :: cluster.starting }).register loop, []) := by
  unfold maybeStartAgentLoop closeOldest postInit
  rw [if_neg (key_notMem hnew)]
  dsimp only
  rw [getRunningAgentLoops_marked, if_neg (by rw [card_counted hnew]; omega)]
  rfl

/-- From the limit on the conversations behind the newest ones are closed. -/
theorem maybeStartAgentLoop_of_le (hnew : loop.sid ∉ cluster.running loop.userId)
    (hle : limit ≤ (cluster.running loop.userId).card) :
    cluster.maybeStartAgentLoop store order limit loop
      = (store.getAllMetadata (order.toList (cluster.counted loop))).map fun conversations =>
        let closed := (((OldestFirst.sortNewest lastUpdatedAtKey conversations).drop
          limit).reverse).map ConversationMetadata.conversationId
        ((closed.foldl closeSession
          { cluster with starting := loop :: cluster.starting }).register loop, closed) := by
  unfold maybeStartAgentLoop closeOldest postInit
  rw [if_neg (key_notMem hnew)]
  dsimp only
  rw [getRunningAgentLoops_marked, if_pos (by rw [card_counted hnew]; omega)]
  cases store.getAllMetadata (order.toList (cluster.counted loop)) with
  | none => rfl
  | some conversations =>
    rw [Option.bind_some, OldestFirst.evict_eq (by omega)]
    rfl

/-! ## The conversations that are closed -/

/-- The metadata from the newest to the oldest. -/
def sorted (cs : List ConversationMetadata) : List ConversationMetadata :=
  OldestFirst.sortNewest lastUpdatedAtKey cs

/-- The ids behind the `limit` newest ones, from the oldest on. -/
def closedIds (limit : ℕ) (cs : List ConversationMetadata) : List String :=
  (((sorted cs).drop limit).reverse).map ConversationMetadata.conversationId

/-- The cluster behind a start that has closed the oldest conversations. -/
def started (cluster : Cluster) (loop : Loop) (closed : List String) : Cluster :=
  (closed.foldl closeSession { cluster with starting := loop :: cluster.starting }).register loop

/-- Closing an id does not stop it: it is being started. -/
def Stuck (cluster : Cluster) (loop : Loop) (id : String) : Prop :=
  id = loop.sid ∨ id ∈ cluster.beingStarted loop.userId

instance (id : String) : Decidable (cluster.Stuck loop id) := inferInstanceAs (Decidable (_ ∨ _))

variable {cs : List ConversationMetadata}

/-- The ids of the sorted metadata are those that were counted. -/
theorem perm_map_sorted (h : store.getAllMetadata (order.toList (cluster.counted loop)) = some cs) :
    ((sorted cs).map ConversationMetadata.conversationId).Perm
      (order.toList (cluster.counted loop)) := by
  rw [← ConversationStore.map_conversationId h]
  exact (List.mergeSort_perm _ _).map _

theorem length_toList (order : SetOrder String) (ids : Finset String) : (order.toList ids).length = ids.card := by
  rw [← List.toFinset_card_of_nodup (order.nodup ids)]
  congr 1
  ext id
  rw [List.mem_toFinset, order.mem]

theorem mem_counted_of_mem_closedIds
    (h : store.getAllMetadata (order.toList (cluster.counted loop)) = some cs) {id : String}
    (hid : id ∈ closedIds limit cs) : id ∈ cluster.counted loop := by
  obtain ⟨c, hc, rfl⟩ := List.mem_map.mp hid
  have hmem := List.mem_map_of_mem (f := ConversationMetadata.conversationId)
    (List.mem_of_mem_drop (List.mem_reverse.mp hc))
  rw [← order.mem, ← (perm_map_sorted h).mem_iff]
  exact hmem

/-- As many ids are closed as were counted beyond the limit. -/
theorem card_closedIds (h : store.getAllMetadata (order.toList (cluster.counted loop)) = some cs) :
    (closedIds limit cs).toFinset.card = (cluster.counted loop).card - limit := by
  have hnodup : ((sorted cs).map ConversationMetadata.conversationId).Nodup :=
    (perm_map_sorted h).nodup_iff.mpr (order.nodup _)
  have hlength : (sorted cs).length = (cluster.counted loop).card := by
    rw [← length_toList order, ← (perm_map_sorted h).length_eq, List.length_map]
  unfold closedIds
  rw [List.map_reverse, List.map_drop, List.toFinset_card_of_nodup
    (List.nodup_reverse.mpr (hnodup.sublist (List.drop_sublist _ _)))]
  rw [List.length_reverse, List.length_drop, List.length_map, hlength]

/-- Those that are being started run in spite of the closes. -/
theorem running_started :
    (cluster.started loop (closedIds limit cs)).running loop.userId
      = (cluster.counted loop \ (closedIds limit cs).toFinset) ∪
        (closedIds limit cs).toFinset.filter (cluster.Stuck loop) := by
  ext id
  unfold started
  rw [mem_running_register, Finset.mem_union, Finset.mem_sdiff, Finset.mem_filter,
    List.mem_toFinset]
  have hstarting : id ∈ cluster.beingStarted loop.userId → id ∈ cluster.counted loop :=
    fun hid => Finset.mem_insert_of_mem (beingStarted_subset hid)
  by_cases hclosed : id ∈ closedIds limit cs
  · constructor
    · rintro (hsid | hid | ⟨-, hopen⟩)
      · exact Or.inr ⟨hclosed, Or.inl hsid⟩
      · exact Or.inr ⟨hclosed, Or.inr hid⟩
      · exact absurd hclosed hopen
    · rintro (⟨-, hopen⟩ | ⟨-, hsid | hid⟩)
      · exact absurd hclosed hopen
      · exact Or.inl hsid
      · exact Or.inr (Or.inl hid)
  · constructor
    · rintro (rfl | hid | ⟨hid, -⟩)
      · exact Or.inl ⟨Finset.mem_insert_self _ _, hclosed⟩
      · exact Or.inl ⟨hstarting hid, hclosed⟩
      · exact Or.inl ⟨Finset.mem_insert_of_mem hid, hclosed⟩
    · rintro (⟨hid, -⟩ | ⟨hid, -⟩)
      · rcases Finset.mem_insert.mp hid with hsid | hid
        · exact Or.inl hsid
        · exact Or.inr (Or.inr ⟨hid, hclosed⟩)
      · exact absurd hid hclosed

/-- The limit is exceeded by the ids whose close does not stop them. -/
theorem card_running_started
    (h : store.getAllMetadata (order.toList (cluster.counted loop)) = some cs)
    (hle : limit ≤ (cluster.counted loop).card) :
    ((cluster.started loop (closedIds limit cs)).running loop.userId).card
      = limit + ((closedIds limit cs).toFinset.filter (cluster.Stuck loop)).card := by
  have hsub : (closedIds limit cs).toFinset ⊆ cluster.counted loop :=
    fun id hid => mem_counted_of_mem_closedIds h (List.mem_toFinset.mp hid)
  have hdisjoint : Disjoint (cluster.counted loop \ (closedIds limit cs).toFinset)
      ((closedIds limit cs).toFinset.filter (cluster.Stuck loop)) :=
    Finset.disjoint_of_subset_right (Finset.filter_subset _ _) Finset.sdiff_disjoint
  rw [running_started, Finset.card_union_of_disjoint hdisjoint,
    Finset.card_sdiff_of_subset hsub, card_closedIds h]
  omega

/-- What is closed was not updated later than what was counted and stays. -/
theorem le_of_mem_closedIds
    (h : store.getAllMetadata (order.toList (cluster.counted loop)) = some cs)
    {id other : String} (hid : id ∈ closedIds limit cs) (hother : other ∈ cluster.counted loop)
    (hopen : other ∉ closedIds limit cs) {c d : ConversationMetadata}
    (hc : store.getMetadata id = some c) (hd : store.getMetadata other = some d) :
    lastUpdatedAtKey c ≤ lastUpdatedAtKey d := by
  have hsorted : (sorted cs).Pairwise fun a b => lastUpdatedAtKey b ≤ lastUpdatedAtKey a :=
    OldestFirst.sortNewest_pairwise cs
  rw [← List.take_append_drop limit (sorted cs)] at hsorted
  have hfound : ∀ e ∈ sorted cs, store.getMetadata e.conversationId = some e := fun e he =>
    ConversationStore.getMetadata_of_mem h ((List.mergeSort_perm _ _).mem_iff.mp he)
  have hdropped : c ∈ (sorted cs).drop limit := by
    obtain ⟨e, he, rfl⟩ := List.mem_map.mp hid
    have hmem := List.mem_reverse.mp he
    rw [hfound e (List.mem_of_mem_drop hmem)] at hc
    cases hc
    exact hmem
  have htaken : d ∈ (sorted cs).take limit := by
    rw [← order.mem, ← (perm_map_sorted h).mem_iff] at hother
    obtain ⟨e, he, rfl⟩ := List.mem_map.mp hother
    rw [hfound e he] at hd
    cases hd
    rw [← List.take_append_drop limit (sorted cs)] at he
    refine (List.mem_append.mp he).resolve_right fun hdrop => hopen ?_
    exact List.mem_map_of_mem (List.mem_reverse.mpr hdrop)
  exact (List.pairwise_append.mp hsorted).2.2 d htaken c hdropped

/-- The metadata of an id that was counted. -/
theorem exists_getMetadata
    (h : store.getAllMetadata (order.toList (cluster.counted loop)) = some cs) {id : String}
    (hid : id ∈ cluster.counted loop) : ∃ c, store.getMetadata id = some c := by
  rw [← order.mem, ← ConversationStore.map_conversationId h] at hid
  obtain ⟨c, hc, rfl⟩ := List.mem_map.mp hid
  exact ⟨c, ConversationStore.getMetadata_of_mem h hc⟩

/-! ## When the limit holds -/

/-- Below the limit there is room for one more. -/
theorem limitHolds_of_lt (hnew : loop.sid ∉ cluster.running loop.userId)
    (hlt : (cluster.running loop.userId).card < limit) :
    cluster.LimitHolds store order limit loop := by
  refine ⟨_, [], maybeStartAgentLoop_of_lt hnew hlt, ?_,
    fun id hid => (by cases hid), List.not_mem_nil⟩
  have hsub : ∀ id ∈ (cluster.started loop []).running loop.userId,
      id ∈ cluster.counted loop := by
    intro id hid
    rcases mem_running_register.mp hid with rfl | hid | ⟨hid, -⟩
    · exact Finset.mem_insert_self _ _
    · exact Finset.mem_insert_of_mem (beingStarted_subset hid)
    · exact Finset.mem_insert_of_mem hid
  refine (Finset.card_le_card hsub).trans ?_
  rw [card_counted hnew]
  exact hlt

/-- From the limit on, what is closed must not be being started. -/
theorem limitHolds_of_le_iff (hnew : loop.sid ∉ cluster.running loop.userId)
    (hle : limit ≤ (cluster.running loop.userId).card) :
    cluster.LimitHolds store order limit loop ↔
      ∃ cs, store.getAllMetadata (order.toList (cluster.counted loop)) = some cs ∧
        ∀ c ∈ (sorted cs).drop limit, c.conversationId ≠ loop.sid ∧
          c.conversationId ∉ cluster.beingStarted loop.userId := by
  have hcounted : limit ≤ (cluster.counted loop).card := by
    rw [card_counted hnew]
    exact Nat.le_succ_of_le hle
  unfold LimitHolds
  rw [maybeStartAgentLoop_of_le hnew hle]
  cases hcs : store.getAllMetadata (order.toList (cluster.counted loop)) with
  | none => exact ⟨fun ⟨_, _, h, _⟩ => (by cases h), fun ⟨_, h, _⟩ => (by cases h)⟩
  | some cs =>
    have hcard := card_running_started hcs hcounted
    have hstuck : (closedIds limit cs).toFinset.filter (cluster.Stuck loop) = ∅ ↔
        ∀ c ∈ (sorted cs).drop limit, c.conversationId ≠ loop.sid ∧
          c.conversationId ∉ cluster.beingStarted loop.userId := by
      rw [Finset.filter_eq_empty_iff]
      unfold Stuck closedIds
      simp only [List.mem_toFinset, List.forall_mem_map, List.mem_reverse, not_or]
    constructor
    · rintro ⟨cluster', closed, hstart, hfew, -, -⟩
      cases hstart
      refine ⟨cs, rfl, hstuck.mp (Finset.card_eq_zero.mp ?_)⟩
      change ((cluster.started loop (closedIds limit cs)).running loop.userId).card ≤ _ at hfew
      omega
    · rintro ⟨cs', h, hnone⟩
      cases h
      have hempty := hstuck.mpr hnone
      refine ⟨cluster.started loop (closedIds limit cs), closedIds limit cs, rfl, ?_, ?_, ?_⟩
      · rw [hcard, hempty]
        exact le_rfl
      · intro id hid other hother c d hc hd
        rw [running_started, hempty, Finset.union_empty, Finset.mem_sdiff,
          List.mem_toFinset] at hother
        exact le_of_mem_closedIds hcs hid hother.1 hother.2 hc hd
      · intro hsid
        obtain ⟨c, hc, heq⟩ := List.mem_map.mp hsid
        exact (hnone c (List.mem_reverse.mp hc)).1 heq

/-- **A start keeps the limit if and only if fewer conversations were running, or the metadata
of all of them are found and none of those behind the newest ones is being started.** -/
theorem limitHolds_start_iff (hnew : loop.sid ∉ cluster.running loop.userId) :
    cluster.LimitHolds store order limit loop ↔
      (cluster.running loop.userId).card < limit ∨
        ∃ cs, store.getAllMetadata (order.toList (cluster.counted loop)) = some cs ∧
          ∀ c ∈ (sorted cs).drop limit, c.conversationId ≠ loop.sid ∧
            c.conversationId ∉ cluster.beingStarted loop.userId := by
  by_cases hlt : (cluster.running loop.userId).card < limit
  · exact iff_of_true (limitHolds_of_lt hnew hlt) (Or.inl hlt)
  · rw [or_iff_right hlt]
    exact limitHolds_of_le_iff hnew (not_lt.mp hlt)

/-- At the limit, a conversation that was updated before all the others is closed for its own
start. -/
theorem not_limitHolds_of_oldest (hnew : loop.sid ∉ cluster.running loop.userId)
    (hle : limit ≤ (cluster.running loop.userId).card)
    (hold : ∀ other ∈ cluster.running loop.userId, ∀ c d, store.getMetadata other = some c →
      store.getMetadata loop.sid = some d → lastUpdatedAtKey d < lastUpdatedAtKey c) :
    ¬ cluster.LimitHolds store order limit loop := by
  rw [limitHolds_of_le_iff hnew hle]
  rintro ⟨cs, hcs, hnone⟩
  have hsid : loop.sid ∉ closedIds limit cs := by
    intro hmem
    obtain ⟨c, hc, heq⟩ := List.mem_map.mp hmem
    exact (hnone c (List.mem_reverse.mp hc)).1 heq
  have hpos : 0 < (closedIds limit cs).toFinset.card := by
    rw [card_closedIds hcs, card_counted hnew]
    omega
  obtain ⟨id, hid⟩ := Finset.card_pos.mp hpos
  rw [List.mem_toFinset] at hid
  have hcounted := mem_counted_of_mem_closedIds hcs hid
  have hrunning : id ∈ cluster.running loop.userId := by
    refine (Finset.mem_insert.mp hcounted).resolve_left ?_
    rintro rfl
    exact hsid hid
  obtain ⟨c, hc⟩ := exists_getMetadata hcs hcounted
  obtain ⟨d, hd⟩ := exists_getMetadata hcs (Finset.mem_insert_self _ _)
  have hlater := le_of_mem_closedIds hcs hid (Finset.mem_insert_self _ _) hsid hc hd
  exact absurd (hold id hrunning c d hc hd) (not_lt.mpr hlater)

end Cluster

/-! ## The store of the users' conversations -/

/-- The store of a user over the metadata table. -/
def saasConversationStore (S : Saas.Services) (userId : String) : ConversationStore where
  getMetadata id := S.getMetadata userId (.str id)
  conversationId_eq id c h := by
    have hid := (Saas.Services.getMetadata_eq_some h).1
    cases hid
    rfl

/-- Some order of the members of a set. -/
noncomputable def someSetOrder : SetOrder String where
  toList := Finset.toList
  nodup := Finset.nodup_toList
  mem _ _ := Finset.mem_toList

/-- A user with a conversation that was updated an hour ago, and an older one. -/
def twoStored : Saas.Services where
  metadata :=
    { rows := [{ conversationId := "new", userId := "alice", lastUpdatedAt := some 3600 },
        { conversationId := "old", userId := "alice", lastUpdatedAt := some 0 }]
      nodup := by simp }
  runtimes := []

def aliceLoop (sid : String) : Loop := ⟨sid, "alice", by decide⟩

/-- The older one runs on another server, and is closed when the newer one is started with a limit
of one. -/
theorem limitHolds_newStarted :
    "new" ∉ ({ elsewhere := [aliceLoop "old"] } : Cluster).running "alice" ∧
      ({ elsewhere := [aliceLoop "old"] } : Cluster).LimitHolds
        (saasConversationStore twoStored "alice") someSetOrder 1 (aliceLoop "new") := by
  refine ⟨by decide, (Cluster.limitHolds_start_iff (by decide)).mpr (Or.inr ?_)⟩
  have hperm : (someSetOrder.toList
      (({ elsewhere := [aliceLoop "old"] } : Cluster).counted (aliceLoop "new"))).Perm
        ["new", "old"] := by
    refine (List.perm_ext_iff_of_nodup (someSetOrder.nodup _) (by decide)).mpr fun id => ?_
    rw [someSetOrder.mem]
    have hcounted : ({ elsewhere := [aliceLoop "old"] } : Cluster).counted (aliceLoop "new")
        = {"new", "old"} := by decide
    rw [hcounted]
    simp
  have hsorted : ∀ cs : List ConversationMetadata,
      cs.Perm [⟨"new", some 3600⟩, ⟨"old", some 0⟩] →
        ∀ c ∈ (Cluster.sorted cs).drop 1, c = ⟨"old", some 0⟩ := by
    intro cs hcs
    have heq : Cluster.sorted cs = [⟨"new", some 3600⟩, ⟨"old", some 0⟩] := by
      have hboth : (Cluster.sorted cs).Perm _ :=
        (OldestFirst.sortNewest_perm lastUpdatedAtKey cs).trans hcs
      rcases List.perm_pair.mp hboth with heq | heq
      · exact heq
      · have hnewest : (Cluster.sorted cs).Pairwise
            fun a b => lastUpdatedAtKey b ≤ lastUpdatedAtKey a :=
          OldestFirst.sortNewest_pairwise cs
        rw [heq] at hnewest
        exact absurd hnewest (by decide)
    rw [heq]
    exact fun c hc => List.mem_singleton.mp hc
  rcases List.perm_pair.mp hperm with heq | heq
  · rw [heq]
    refine ⟨[⟨"new", some 3600⟩, ⟨"old", some 0⟩], by decide, fun c hc => ?_⟩
    rw [hsorted _ (.refl _) c hc]
    decide
  · rw [heq]
    refine ⟨[⟨"old", some 0⟩, ⟨"new", some 3600⟩], by decide, fun c hc => ?_⟩
    rw [hsorted _ (.swap _ _ _) c hc]
    decide

/-- The newer one runs on another server, and the older one is started with a limit of one. -/
theorem not_limitHolds_oldStarted :
    "old" ∉ ({ elsewhere := [aliceLoop "new"] } : Cluster).running "alice" ∧
      ¬ ({ elsewhere := [aliceLoop "new"] } : Cluster).LimitHolds
        (saasConversationStore twoStored "alice") someSetOrder 1 (aliceLoop "old") := by
  refine ⟨by decide, Cluster.not_limitHolds_of_oldest (by decide) (by decide) ?_⟩
  intro other hother c d hc hd
  have hother : other = "new" := by
    simpa [Cluster.running, aliceLoop] using hother
  subst hother
  have hnew : c = { conversationId := "new", lastUpdatedAt := some 3600 } :=
    Option.some.inj (hc.symm.trans (by decide))
  have hold : d = { conversationId := "old", lastUpdatedAt := some 0 } :=
    Option.some.inj (hd.symm.trans (by decide))
  rw [hnew, hold]
  decide

end OpenHands.Clustered
