/-
# `end_id` in a nested search

`EventStore.search_events` turns `end_id` into the bound of its range.
`NestedEventStore.search_events` never sends it: the client reads on from `start_id`
(backwards: from the newest event) and stops when it meets an event with exactly this id.

The main result says exactly when the two agree:
  * forward, when an event with the id `end_id` is stored, when no event that passes the
    filter lies behind it, or when the limit is used up before;
  * backward, when no event that passes the filter lies behind `end_id`, and none before it
    either if that id is stored (or the limit is one).
-/
import OpenHands.NestedEventStore

namespace OpenHands

variable {E D : Type*} {codec : WireCodec E D}

/-! ## Store contents -/

/-- The content of a conversation: files in which every index reads as its own event,
holes allowed, and whose events can be sent. -/
structure StoreContent (codec : WireCodec E D) where
  files : FileStore D
  faithful : files.Faithful codec.toCodec
  sendable : files.Sendable codec

/-- The content a stream leaves behind. -/
def StoreContent.ofRun (codec : WireCodec E D) (calls : List (StoreCall E))
    (h : LosslessRun codec.toCodec calls) : StoreContent codec where
  files := (storeAfter codec.toCodec calls).fileStore
  faithful := faithful_storeAfter h
  sendable := sendable_of_filesInvariant (contentInvariant_storeAfter h).files

namespace StoreContent

variable (content : StoreContent codec)

/-- The events from `startId` on, in increasing order. -/
def eventsFrom (startId : ℤ) : List E :=
  eventsBetween codec.toCodec content.files startId none

/-- The client stops, yields only events of the window, and the same ones as
`EventStore.search_events`. -/
def HonoursEndId (startId last : ℤ) (reverse : Bool) (filter : E → Bool) (limit : Option ℤ) :
    Prop :=
  ∃ events enough,
    (∀ fuel, enough ≤ fuel →
      nestedSearch codec content.files fuel startId (some last) reverse filter limit
        = some (.ok events)) ∧
    (∀ e ∈ events, startId ≤ codec.eventId e ∧ codec.eventId e ≤ last) ∧
    ({ fileStore := content.files } : EventStore D).searchEvents codec.toCodec startId
      (some last) reverse filter limit = .ok events

/-- When the client goes forward: the last id is stored, or nothing that passes the filter
lies behind it, or the limit is used up before. -/
def ForwardEnds (startId last : ℤ) (filter : E → Bool) (limit : Option ℤ) : Prop :=
  (∃ e ∈ content.eventsFrom startId, codec.eventId e = last) ∨
  (∀ e ∈ content.eventsFrom startId, filter e = true → codec.eventId e ≤ last) ∨
  ∃ n ∈ limit, n ≤ ((content.eventsFrom startId).filter
    fun e => filter e && codec.eventId e ≤ last).length

/-- When the client goes backward: nothing that passes the filter lies behind the last id,
and if that id is stored, nothing lies before it either, or the limit is one and the event
passes the filter. -/
def BackwardEnds (startId last : ℤ) (filter : E → Bool) (limit : Option ℤ) : Prop :=
  (∀ e ∈ content.eventsFrom startId, filter e = true → codec.eventId e ≤ last) ∧
  ((∃ e ∈ content.eventsFrom startId, codec.eventId e = last) →
    (∀ e ∈ content.eventsFrom startId, filter e = true → last ≤ codec.eventId e) ∨
    (limit = some 1 ∧
      ∃ e ∈ content.eventsFrom startId, filter e = true ∧ codec.eventId e = last))

end StoreContent

/-! ## The events around an id -/

/-- A list in the order of the ids, cut at an id: the events before it, the event with
the id if there is one, and the events behind it. -/
structure CutAt (codec : WireCodec E D) (last : ℤ) (events before at_ behind : List E) : Prop where
  eq_append : events = before ++ at_ ++ behind
  before_lt : ∀ e ∈ before, codec.eventId e < last
  at_eq : at_ = [] ∨ ∃ e, at_ = [e] ∧ codec.eventId e = last
  lt_behind : ∀ e ∈ behind, last < codec.eventId e

theorem exists_cutAt (last : ℤ) {events : List E}
    (h : events.Pairwise (fun a b => codec.eventId a < codec.eventId b)) :
    ∃ before at_ behind, CutAt codec last events before at_ behind := by
  induction events with
  | nil => exact ⟨[], [], [], rfl, by simp, Or.inl rfl, by simp⟩
  | cons event events ih =>
    obtain ⟨hlt, hevents⟩ := List.pairwise_cons.mp h
    rcases lt_trichotomy (codec.eventId event) last with hbefore | hat | hbehind
    · obtain ⟨before, at_, behind, rfl, hlow, hat, hhigh⟩ := ih hevents
      exact ⟨event :: before, at_, behind, rfl, List.forall_mem_cons.mpr ⟨hbefore, hlow⟩, hat,
        hhigh⟩
    · refine ⟨[], [event], events, rfl, by simp, Or.inr ⟨event, rfl, hat⟩, ?_⟩
      intro e he
      rw [← hat]
      exact hlt e he
    · refine ⟨[], [], event :: events, rfl, by simp, Or.inl rfl, ?_⟩
      rw [List.forall_mem_cons]
      exact ⟨hbehind, fun e he => hbehind.trans (hlt e he)⟩

namespace CutAt

variable {last : ℤ} {events before at_ behind : List E}
  (h : CutAt codec last events before at_ behind) (filter : E → Bool)

include h

theorem mem_iff {e : E} : e ∈ events ↔ e ∈ before ∨ e ∈ at_ ∨ e ∈ behind := by
  rw [h.eq_append, List.mem_append, List.mem_append, or_assoc]

theorem eventId_of_mem_at {e : E} (he : e ∈ at_) : codec.eventId e = last := by
  rcases h.at_eq with rfl | ⟨event, rfl, hid⟩
  · cases he
  · rw [List.mem_singleton.mp he, hid]

/-- The id is stored if an event has it. -/
theorem stored_iff : (∃ e ∈ events, codec.eventId e = last) ↔ at_ ≠ [] := by
  constructor
  · rintro ⟨e, he, hid⟩ hnil
    rcases h.mem_iff.mp he with hbefore | hat | hbehind
    · exact absurd hid (h.before_lt e hbefore).ne
    · rw [hnil] at hat
      cases hat
    · exact absurd hid (h.lt_behind e hbehind).ne'
  · intro hne
    obtain ⟨e, he⟩ := List.exists_mem_of_ne_nil at_ hne
    exact ⟨e, h.mem_iff.mpr (Or.inr (Or.inl he)), h.eventId_of_mem_at he⟩

/-- Nothing that passes the filter lies behind the id. -/
theorem nothing_behind_iff :
    (∀ e ∈ events, filter e = true → codec.eventId e ≤ last) ↔ behind.filter filter = [] := by
  rw [List.filter_eq_nil_iff]
  constructor
  · intro hle e he hfilter
    have hlt := h.lt_behind e he
    have hle' := hle e (h.mem_iff.mpr (Or.inr (Or.inr he))) hfilter
    omega
  · intro hnone e he hfilter
    rcases h.mem_iff.mp he with hbefore | hat | hbehind
    · exact (h.before_lt e hbefore).le
    · exact (h.eventId_of_mem_at hat).le
    · exact absurd hfilter (hnone e hbehind)

/-- Nothing that passes the filter lies before the id. -/
theorem nothing_before_iff :
    (∀ e ∈ events, filter e = true → last ≤ codec.eventId e) ↔ before.filter filter = [] := by
  rw [List.filter_eq_nil_iff]
  constructor
  · intro hle e he hfilter
    have hlt := h.before_lt e he
    have hle' := hle e (h.mem_iff.mpr (Or.inl he)) hfilter
    omega
  · intro hnone e he hfilter
    rcases h.mem_iff.mp he with hbefore | hat | hbehind
    · exact absurd hfilter (hnone e hbefore)
    · exact (h.eventId_of_mem_at hat).ge
    · exact (h.lt_behind e hbehind).le

theorem passes_iff : (∃ e ∈ events, filter e = true ∧ codec.eventId e = last) ↔
    at_.filter filter ≠ [] := by
  constructor
  · rintro ⟨e, he, hfilter, hid⟩
    rcases h.mem_iff.mp he with hbefore | hat | hbehind
    · exact absurd hid (h.before_lt e hbefore).ne
    · exact List.ne_nil_of_mem (List.mem_filter.mpr ⟨hat, hfilter⟩)
    · exact absurd hid (h.lt_behind e hbehind).ne'
  · intro hne
    obtain ⟨e, he⟩ := List.exists_mem_of_ne_nil _ hne
    obtain ⟨hat, hfilter⟩ := List.mem_filter.mp he
    exact ⟨e, h.mem_iff.mpr (Or.inr (Or.inl hat)), hfilter, h.eventId_of_mem_at hat⟩

/-- What passes the filter up to the id. -/
theorem filter_le_last :
    events.filter (fun e => filter e && codec.eventId e ≤ last)
      = (before ++ at_).filter filter := by
  have hnone : behind.filter (fun e => filter e && codec.eventId e ≤ last) = [] := by
    rw [List.filter_eq_nil_iff]
    intro e he
    have hlt := h.lt_behind e he
    simp [hlt]
  rw [h.eq_append, List.filter_append, hnone, List.append_nil]
  apply List.filter_congr
  intro e he
  have hle : codec.eventId e ≤ last := by
    rcases List.mem_append.mp he with hbefore | hat
    · exact (h.before_lt e hbefore).le
    · exact (h.eventId_of_mem_at hat).le
  simp [hle]

end CutAt

/-- Events with other ids do not end the search. -/
theorem takeThrough_append {last : ℤ} {events : List E} (rest : List E)
    (h : ∀ e ∈ events, codec.eventId e ≠ last) :
    takeThrough codec (some last) (events ++ rest)
      = events ++ takeThrough codec (some last) rest := by
  induction events with
  | nil => rfl
  | cons event events ih =>
    rw [List.forall_mem_cons] at h
    rw [List.cons_append, takeThrough, if_neg (by simpa using fun hlast => h.1 hlast.symm), ih h.2,
      List.cons_append]

/-- Without the id the search goes on to the end. -/
theorem takeThrough_eq_self {last : ℤ} {events : List E}
    (h : ∀ e ∈ events, codec.eventId e ≠ last) :
    takeThrough codec (some last) events = events := by
  have happend := takeThrough_append [] h
  rw [List.append_nil] at happend
  rw [happend, takeThrough, List.append_nil]

/-- The event with the id is the last one. -/
theorem takeThrough_singleton {last : ℤ} {event : E} (rest : List E)
    (h : codec.eventId event = last) :
    takeThrough codec (some last) (event :: rest) = [event] := by
  rw [takeThrough, if_pos (by rw [h])]

/-! ## Limits -/

/-- A limit of at least one keeps the first event. -/
theorem exists_cutToLimit_cons {limit : Option ℤ} (hlimit : ∀ n ∈ limit, 1 ≤ n) (event : E)
    (events : List E) : ∃ rest, cutToLimit limit (event :: events) = event :: rest := by
  cases limit with
  | none => exact ⟨events, rfl⟩
  | some n =>
    have hn := hlimit n rfl
    by_cases hlast : n - 1 ≤ 0
    · exact ⟨[], cutToLimit_cons_of_le_one hn hlast event events⟩
    · exact ⟨_, cutToLimit_cons_of_one_lt hlast event events⟩

theorem mem_of_mem_cutToLimit {limit : Option ℤ} {events : List E} {event : E}
    (h : event ∈ cutToLimit limit events) : event ∈ events := by
  cases limit with
  | none => exact h
  | some n =>
    simp only [cutToLimit] at h
    split at h
    · exact h
    · exact List.mem_of_mem_take h

/-- More events make no difference when there are none, or when the limit is used up. -/
theorem cutToLimit_append_eq_iff {limit : Option ℤ} (hlimit : ∀ n ∈ limit, 1 ≤ n)
    (events more : List E) :
    cutToLimit limit (events ++ more) = cutToLimit limit events ↔
      more = [] ∨ ∃ n ∈ limit, n ≤ events.length := by
  cases limit with
  | none =>
    show events ++ more = events ↔ _
    simp
  | some n =>
    have hn := hlimit n rfl
    have hcut : ∀ l : List E, cutToLimit (some n) l = l.take n.toNat := by
      intro l
      simp only [cutToLimit]
      rw [if_neg (by omega), show (max 1 n) = n from by omega]
    rw [hcut, hcut, List.take_append]
    constructor
    · intro heq
      have hnil : more.take (n.toNat - events.length) = [] := by
        simpa using heq
      rw [List.take_eq_nil_iff] at hnil
      rcases hnil with hzero | hmore
      · exact Or.inr ⟨n, rfl, by omega⟩
      · exact Or.inl hmore
    · rintro (rfl | ⟨m, hm, hle⟩)
      · simp
      · cases hm
        rw [show n.toNat - events.length = 0 from by omega, List.take_zero, List.append_nil]

/-- A limit of at least one is used up by one event exactly if it is one. -/
theorem exists_limit_le_length_filter_iff {limit : Option ℤ} (hlimit : ∀ n ∈ limit, 1 ≤ n)
    (filter : E → Bool) (event : E) :
    (∃ n ∈ limit, n ≤ ([event].filter filter).length) ↔
      limit = some 1 ∧ [event].filter filter ≠ [] := by
  by_cases hfilter : filter event = true
  · rw [List.filter_cons_of_pos hfilter, List.filter_nil, and_iff_left (List.cons_ne_nil _ _)]
    constructor
    · rintro ⟨n, hn, hle⟩
      have hone := hlimit n hn
      rw [Option.mem_def.mp hn]
      simp only [List.length_singleton] at hle
      rw [show n = 1 from by omega]
    · rintro rfl
      exact ⟨1, rfl, le_refl _⟩
  · rw [List.filter_cons_of_neg hfilter, List.filter_nil]
    constructor
    · rintro ⟨n, hn, hle⟩
      have hone := hlimit n hn
      simp only [List.length_nil] at hle
      omega
    · exact fun h => absurd rfl h.2

/-! ## Agreement -/

namespace StoreContent

variable (content : StoreContent codec)

/-- Agreement is the equality of the two lists of events. -/
theorem honoursEndId_iff_eq (startId last : ℤ) (reverse : Bool) (filter : E → Bool)
    {limit : Option ℤ} (hlimit : ∀ n ∈ limit, 1 ≤ n) :
    content.HonoursEndId startId last reverse filter limit ↔
      cutToLimit limit ((takeThrough codec (some last)
          (directed reverse (content.eventsFrom startId))).filter filter)
        = cutToLimit limit ((directed reverse
          (eventsBetween codec.toCodec content.files startId (some last))).filter filter) := by
  have hsearch := searchEvents_of_faithful content.faithful startId (some last) reverse filter
    limit
  have hnested := fun fuel hfuel => nestedSearch_of_faithful content.faithful content.sendable
    startId (some last) reverse filter limit hlimit fuel hfuel
  constructor
  · rintro ⟨events, enough, hall, -, heq⟩
    have hfuel := hall (max enough ((content.eventsFrom startId).length + 1)) (le_max_left _ _)
    rw [hnested _ (by rw [← eventsFrom]; omega)] at hfuel
    rw [hsearch] at heq
    cases heq
    exact Except.ok.inj (Option.some.inj hfuel)
  · intro heq
    refine ⟨_, (content.eventsFrom startId).length + 1, fun fuel hfuel => ?_, ?_, hsearch⟩
    · rw [hnested fuel (by rw [← eventsFrom]; omega)]
      exact congrArg (fun l => some (Except.ok l)) heq
    · intro e he
      have hmem := List.mem_of_mem_filter (mem_of_mem_cutToLimit he)
      have hwindow : e ∈ eventsBetween codec.toCodec content.files startId (some last) := by
        cases reverse with
        | false => exact hmem
        | true => exact List.mem_reverse.mp hmem
      obtain ⟨-, hstart, hend⟩ := (mem_eventsBetween content.faithful).mp hwindow
      exact ⟨hstart, hend last rfl⟩

/-- The events are in the order of their ids. -/
theorem pairwise_eventsFrom (startId : ℤ) :
    (content.eventsFrom startId).Pairwise
      (fun a b => codec.eventId a < codec.eventId b) :=
  pairwise_eventsBetween content.faithful startId none

/-- The window of `EventStore.search_events` in the events cut at its last id. -/
theorem eventsBetween_of_cutAt {startId last : ℤ} {before at_ behind : List E}
    (h : CutAt codec last (content.eventsFrom startId) before at_ behind) :
    eventsBetween codec.toCodec content.files startId (some last) = before ++ at_ := by
  have hmem : ∀ e ∈ content.eventsFrom startId, startId ≤ codec.eventId e :=
    fun e he => ((mem_eventsBetween content.faithful).mp he).2.1
  have hfilter : eventsBetween codec.toCodec content.files startId (some last)
      = (content.eventsFrom startId).filter (inWindow codec.toCodec startId (some last)) :=
    eventsBetween_eq_filter content.faithful (le_refl _) (by simp)
  rw [hfilter]
  rw [h.eq_append] at hmem ⊢
  rw [List.filter_append, List.filter_eq_self.mpr, List.filter_eq_nil_iff.mpr, List.append_nil]
  · intro e he
    have hlt := h.lt_behind e he
    rw [inWindow_iff]
    rintro ⟨-, hle⟩
    have hle' := hle last rfl
    omega
  · intro e he
    rw [inWindow_iff]
    refine ⟨hmem e (List.mem_append_left _ he), fun last' hlast' => ?_⟩
    cases hlast'
    rcases List.mem_append.mp he with hbefore | hat
    · exact (h.before_lt e hbefore).le
    · rcases h.at_eq with rfl | ⟨event, rfl, hid⟩
      · cases hat
      · rw [List.mem_singleton.mp hat, hid]

/-- **Forward**: the client honours `end_id` exactly under `ForwardEnds`. -/
theorem honoursEndId_forward_iff (startId last : ℤ) (filter : E → Bool) {limit : Option ℤ}
    (hlimit : ∀ n ∈ limit, 1 ≤ n) :
    content.HonoursEndId startId last false filter limit ↔
      content.ForwardEnds startId last filter limit := by
  obtain ⟨before, at_, behind, hcut⟩ := exists_cutAt last (content.pairwise_eventsFrom startId)
  rw [content.honoursEndId_iff_eq startId last false filter hlimit,
    content.eventsBetween_of_cutAt hcut, ForwardEnds, hcut.stored_iff,
    hcut.nothing_behind_iff filter, hcut.filter_le_last filter]
  simp only [directed, Bool.false_eq_true, if_false]
  have hbefore : ∀ e ∈ before, codec.eventId e ≠ last := fun e he => (hcut.before_lt e he).ne
  rw [hcut.eq_append, List.append_assoc, takeThrough_append _ hbefore]
  rcases hcut.at_eq with rfl | ⟨event, rfl, hid⟩
  · -- the id is not stored, so that the client reads to the end
    have hbehind : ∀ e ∈ behind, codec.eventId e ≠ last :=
      fun e he => (hcut.lt_behind e he).ne'
    rw [List.nil_append, takeThrough_eq_self hbehind, List.append_nil, List.filter_append,
      cutToLimit_append_eq_iff hlimit, or_iff_right (not_not.mpr rfl)]
  · -- the id is stored, and the client stops there
    rw [List.singleton_append, takeThrough_singleton behind hid]
    exact iff_of_true rfl (Or.inl (List.cons_ne_nil _ _))

/-- Going backward, the client yields an event behind the last id first. -/
theorem cutToLimit_ne_of_behind {startId last : ℤ} {before at_ behind : List E}
    (hcut : CutAt codec last (content.eventsFrom startId) before at_ behind) {filter : E → Bool}
    {limit : Option ℤ} (hlimit : ∀ n ∈ limit, 1 ≤ n) (hne : behind.reverse.filter filter ≠ [])
    (more : List E) :
    cutToLimit limit (behind.reverse.filter filter ++ more)
      ≠ cutToLimit limit ((at_.reverse ++ before.reverse).filter filter) := by
  obtain ⟨first, others, hbehind⟩ := List.exists_cons_of_ne_nil hne
  have hfirst : first ∈ behind := by
    have hmem : first ∈ behind.reverse.filter filter := hbehind ▸ List.mem_cons_self
    exact List.mem_reverse.mp (List.mem_filter.mp hmem).1
  have hlt := hcut.lt_behind first hfirst
  obtain ⟨rest, hrest⟩ := exists_cutToLimit_cons hlimit first (others ++ more)
  rw [hbehind, List.cons_append, hrest]
  intro heq
  have hmem := mem_of_mem_cutToLimit (heq ▸ List.mem_cons_self :
    first ∈ cutToLimit limit ((at_.reverse ++ before.reverse).filter filter))
  rcases List.mem_append.mp (List.mem_of_mem_filter hmem) with hat | hbefore
  · exact absurd (hcut.eventId_of_mem_at (List.mem_reverse.mp hat)) hlt.ne'
  · exact absurd hlt (hcut.before_lt first (List.mem_reverse.mp hbefore)).asymm

/-- **Backward**: the client honours `end_id` exactly under `BackwardEnds`. -/
theorem honoursEndId_backward_iff (startId last : ℤ) (filter : E → Bool) {limit : Option ℤ}
    (hlimit : ∀ n ∈ limit, 1 ≤ n) :
    content.HonoursEndId startId last true filter limit ↔
      content.BackwardEnds startId last filter limit := by
  obtain ⟨before, at_, behind, hcut⟩ := exists_cutAt last (content.pairwise_eventsFrom startId)
  rw [content.honoursEndId_iff_eq startId last true filter hlimit,
    content.eventsBetween_of_cutAt hcut, BackwardEnds, hcut.nothing_behind_iff filter,
    hcut.stored_iff, hcut.nothing_before_iff filter, hcut.passes_iff filter]
  simp only [directed, if_true]
  -- the client begins with the events behind the last id
  have hbehindNe : ∀ e ∈ behind.reverse, codec.eventId e ≠ last :=
    fun e he => (hcut.lt_behind e (List.mem_reverse.mp he)).ne'
  have hreverse : (content.eventsFrom startId).reverse
      = behind.reverse ++ (at_.reverse ++ before.reverse) := by
    rw [hcut.eq_append, List.reverse_append, List.reverse_append]
  rw [hreverse, takeThrough_append _ hbehindNe, List.filter_append, List.reverse_append]
  by_cases hbehind : behind.filter filter = []
  · rw [List.filter_reverse, hbehind, List.reverse_nil, List.nil_append, and_iff_right rfl]
    rcases hcut.at_eq with rfl | ⟨event, rfl, hid⟩
    · -- the id is not stored, so that the client reads down to `startId`
      have hbefore : ∀ e ∈ before.reverse, codec.eventId e ≠ last :=
        fun e he => (hcut.before_lt e (List.mem_reverse.mp he)).ne
      rw [List.reverse_nil, List.nil_append, takeThrough_eq_self hbefore]
      exact iff_of_true rfl fun hne => absurd rfl hne
    · -- the id is stored: the client stops there, the store goes on to `startId`
      rw [List.reverse_singleton, List.singleton_append, takeThrough_singleton _ hid, eq_comm,
        ← List.singleton_append, List.filter_append, cutToLimit_append_eq_iff hlimit,
        forall_prop_of_true (List.cons_ne_nil _ _), List.filter_reverse, List.reverse_eq_nil_iff,
        exists_limit_le_length_filter_iff hlimit]
  · refine iff_of_false (content.cutToLimit_ne_of_behind hcut hlimit ?_ _) fun h => hbehind h.1
    rw [List.filter_reverse, List.reverse_ne_nil_iff]
    exact hbehind

/-- **When a nested search honours `end_id`**: for every content, window, direction, filter
and limit, exactly under `ForwardEnds` or `BackwardEnds`. -/
theorem honoursEndId_iff (startId last : ℤ) (reverse : Bool) (filter : E → Bool)
    (limit : Option ℤ) (hlimit : ∀ n ∈ limit, 1 ≤ n) :
    content.HonoursEndId startId last reverse filter limit ↔
      if reverse then content.BackwardEnds startId last filter limit
      else content.ForwardEnds startId last filter limit := by
  cases reverse with
  | false => exact content.honoursEndId_forward_iff startId last filter hlimit
  | true => exact content.honoursEndId_backward_iff startId last filter hlimit

end StoreContent

/-! ## A hole in the ids -/

/-- The content of the session whose second event has no file. -/
def holeContent : StoreContent eventWireCodec := .ofRun eventWireCodec holeCalls losslessRun_holeCalls

/-- Up to the stored id 2 the client agrees with the store. -/
theorem honoursEndId_holeContent :
    holeContent.HonoursEndId 0 2 false (fun _ => true) none := by
  apply (holeContent.honoursEndId_iff 0 2 false (fun _ => true) none (by simp)).mpr
  left
  decide

/-- The events 0 and 2 are stored.  With `end_id` 1 the client runs past the hole and yields
the event 2; backwards with `end_id` 0 it begins with the event 2. -/
theorem nestedSearch_passes_endId :
    (({ fileStore := holeContent.files } : EventStore Event).searchEvents eventCodec 0 (some 1)
      false (fun _ => true) none).map (List.map Event.id) = .ok [0] ∧
    (∀ fuel, 1 ≤ fuel → (nestedSearch eventWireCodec holeContent.files fuel 0 (some 1) false
      (fun _ => true) none).map (Except.map (List.map Event.id)) = some (.ok [0, 2])) ∧
    (({ fileStore := holeContent.files } : EventStore Event).searchEvents eventCodec 0 (some 0)
      true (fun _ => true) none).map (List.map Event.id) = .ok [0] ∧
    (∀ fuel, 1 ≤ fuel → (nestedSearch eventWireCodec holeContent.files fuel 0 (some 0) true
      (fun _ => true) none).map (Except.map (List.map Event.id)) = some (.ok [2, 0])) := by
  have hall : ∀ (last : ℤ) (reverse : Bool) (ids : List ℤ),
      (nestedSearch eventWireCodec holeContent.files 1 0 (some last) reverse
        (fun _ => true) none).map (Except.map (List.map Event.id)) = some (.ok ids) →
      ∀ fuel, 1 ≤ fuel → (nestedSearch eventWireCodec holeContent.files fuel 0 (some last) reverse
        (fun _ => true) none).map (Except.map (List.map Event.id)) = some (.ok ids) := by
    intro last reverse ids hone fuel hfuel
    obtain ⟨result, hresult, hids⟩ := Option.map_eq_some_iff.mp hone
    rw [nestedSearch, searchPages_mono hresult fuel hfuel]
    exact congrArg some hids
  refine ⟨by decide, ?_, by decide, ?_⟩
  · exact hall 1 false [0, 2] (by decide)
  · exact hall 0 true [2, 0] (by decide)

end OpenHands
