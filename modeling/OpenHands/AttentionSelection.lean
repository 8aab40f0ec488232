/-
# The selection of the attention condenser

`LLMAttentionCondenser.get_condensation` keeps the first `keep_first` events of a view and
fills up to half of `max_size` with the events that the language model names.  The ids of the
response are cut to the places that are left; when they are fewer, the most recent events
take the other places.

An id that no event has, or one that comes twice, takes a place and keeps no event.  An earlier
summary is inserted into the next view again, whether it has a place or not.  So half of
`max_size` events are left exactly when the ids that take places are distinct ids of events and
the summary has a place, or when it has none and one id is lost (`selectsHalf_iff`).
-/
import OpenHands.CondenserPipeline
import OpenHands.CondensedViews

namespace OpenHands

/-! ## Counting selected members -/

section

variable {α : Type*} [DecidableEq α] {l r : List α}

/-- As many members as the selection has entries: the entries are distinct members. -/
theorem length_filter_mem_eq_iff (hl : l.Nodup) :
    (l.filter (· ∈ r)).length = r.length ↔ r.Nodup ∧ r ⊆ l := by
  have hnodup : (l.filter (· ∈ r)).Nodup := hl.filter _
  have hsub : l.filter (· ∈ r) ⊆ r := by
    intro x hx
    simpa using (List.mem_filter.mp hx).2
  constructor
  · intro hlength
    have hperm : (l.filter (· ∈ r)).Perm r :=
      (List.subperm_of_subset hnodup hsub).perm_of_length_le hlength.ge
    refine ⟨hperm.nodup_iff.mp hnodup, ?_⟩
    intro x hx
    exact List.mem_of_mem_filter (hperm.mem_iff.mpr hx)
  · rintro ⟨hr, hsubset⟩
    apply List.Perm.length_eq
    rw [List.perm_ext_iff_of_nodup hnodup hr]
    intro x
    rw [List.mem_filter, decide_eq_true_eq]
    exact ⟨And.right, fun hx => ⟨hsubset hx, hx⟩⟩

/-- A selection leaves out as many members as it has entries, at most. -/
theorem length_le_filter_notMem_add (hl : l.Nodup) :
    l.length ≤ (l.filter (· ∉ r)).length + r.length := by
  have hsplit := List.length_eq_length_filter_add (l := l) (fun x => decide (x ∈ r))
  have hin : (l.filter (· ∈ r)).length ≤ r.length := by
    apply (List.subperm_of_subset (hl.filter _) _).length_le
    intro x hx
    simpa using (List.mem_filter.mp hx).2
  have hout : l.filter (fun x => !decide (x ∈ r)) = l.filter (· ∉ r) := by
    apply List.filter_congr
    intro x _
    rw [decide_not]
  rw [hout] at hsplit
  omega

end

namespace LLMAttentionCondenser

/-- The loop takes the newest events that are not selected, up to the number of places. -/
theorem fillUp_eq_append (n : ℕ) (events : List Event) (hnodup : (events.map Event.id).Nodup)
    (responseIds : List ℤ) :
    fillUp n events responseIds = responseIds ++
      ((events.map Event.id).filter (· ∉ responseIds)).take (n - responseIds.length) := by
  induction events generalizing responseIds with
  | nil =>
      unfold fillUp
      simp
  | cons event events ih =>
      rw [List.map_cons, List.nodup_cons] at hnodup
      unfold fillUp
      by_cases hfull : (responseIds.length : ℤ) ≥ n
      · rw [if_pos hfull, Nat.sub_eq_zero_of_le (by omega), List.take_zero, List.append_nil]
      · rw [if_neg hfull, List.map_cons]
        by_cases hmem : event.id ∈ responseIds
        · rw [if_neg (by simpa using hmem), ih hnodup.2, List.filter_cons_of_neg (by simpa using hmem)]
        · -- the id takes a place, and is not met again
          have hrest : (events.map Event.id).filter (· ∉ responseIds ++ [event.id])
              = (events.map Event.id).filter (· ∉ responseIds) := by
            apply List.filter_congr
            intro id hid
            have hne : id ≠ event.id := by
              rintro rfl
              exact hnodup.1 hid
            simp [hne]
          rw [if_pos hmem, ih hnodup.2, hrest, List.filter_cons_of_pos (by simpa using hmem),
            List.append_assoc, List.length_append, List.length_singleton]
          obtain ⟨k, hk⟩ : ∃ k, n - responseIds.length = k + 1 :=
            ⟨n - responseIds.length - 1, by omega⟩
          rw [show n - (responseIds.length + 1) = k by omega, hk, List.take_succ_cons]
          rfl

/-! ## The places of a selection -/

/-- The ids of the first events. -/
def headIds (c : LLMAttentionCondenser) (view : View) : List ℤ :=
  (view.events.take c.sizes.keepFirst).map Event.id

/-- The ids of the response that take a place: as many as there are places behind the first
events, whose own ids are passed over. -/
def placed (c : LLMAttentionCondenser) (view : View) (ids : List ℤ) : List ℤ :=
  (ids.filter (· ∉ c.headIds view)).take (c.sizes.maxSize / 2 - c.sizes.keepFirst)

/-- The ids that take the other places. -/
def padding (c : LLMAttentionCondenser) (view : View) (ids : List ℤ) : List ℤ :=
  (((view.events.drop c.sizes.keepFirst).map Event.id).reverse.filter
    (· ∉ c.placed view ids)).take
      (c.sizes.maxSize / 2 - c.sizes.keepFirst - (c.placed view ids).length)

/-- The ids that are forgotten: without a place, and none of the first. -/
def forgottenIds (c : LLMAttentionCondenser) (view : View) (ids : List ℤ) : List ℤ :=
  (view.events.filter fun e =>
    e.id ∉ c.placed view ids ++ c.padding view ids ∧ e.id ∉ c.headIds view).map Event.id

variable {c : LLMAttentionCondenser} {selection : Option String → Except String (List ℤ)}
  {view : View} {response : LLMResponse} {ids : List ℤ}

theorem length_headIds (hlong : c.sizes.maxSize < view.events.length) :
    (c.headIds view).length = c.sizes.keepFirst := by
  have hlt := c.sizes.keepFirst_lt
  rw [headIds, List.length_map, List.length_take]
  omega

theorem length_placed_le : (c.placed view ids).length ≤ c.sizes.maxSize / 2 - c.sizes.keepFirst := by
  rw [placed, List.length_take]
  exact min_le_left _ _

theorem notMem_headIds_of_placed {id : ℤ} (hid : id ∈ c.placed view ids) :
    id ∉ c.headIds view := by
  simpa using (List.mem_filter.mp (List.mem_of_mem_take hid)).2

/-- The ids of the view are those of the first events and of the others. -/
theorem map_id_eq (c : LLMAttentionCondenser) (view : View) :
    view.events.map Event.id
      = c.headIds view ++ (view.events.drop c.sizes.keepFirst).map Event.id := by
  rw [headIds, ← List.map_append, List.take_append_drop]

/-- There are enough other events for every place. -/
theorem length_padding (hlong : c.sizes.maxSize < view.events.length)
    (hnodup : (view.events.map Event.id).Nodup) :
    c.sizes.maxSize / 2 - c.sizes.keepFirst - (c.placed view ids).length ≤
      (((view.events.drop c.sizes.keepFirst).map Event.id).reverse.filter
        (· ∉ c.placed view ids)).length := by
  have hrest : ((view.events.drop c.sizes.keepFirst).map Event.id).reverse.Nodup := by
    rw [List.nodup_reverse]
    rw [map_id_eq c view] at hnodup
    exact hnodup.of_append_right
  have hle := length_le_filter_notMem_add (r := c.placed view ids) hrest
  rw [List.length_reverse, List.length_map, List.length_drop] at hle
  omega

/-- The filled selection never comes to the first events. -/
theorem fillUp_reverse (hlong : c.sizes.maxSize < view.events.length)
    (hnodup : (view.events.map Event.id).Nodup) :
    fillUp (c.sizes.maxSize / 2 - c.sizes.keepFirst : ℕ) view.events.reverse (c.placed view ids)
      = c.placed view ids ++ c.padding view ids := by
  rw [fillUp_eq_append _ _ (by rw [List.map_reverse]; exact List.nodup_reverse.mpr hnodup),
    List.map_reverse, map_id_eq c view, List.reverse_append, List.filter_append,
    List.take_append_of_le_length (length_padding hlong hnodup)]
  rfl

/-- The condensation on a response. -/
theorem getCondensation_eq (hlong : c.sizes.maxSize < view.events.length)
    (hnodup : (view.events.map Event.id).Nodup) (hids : selection response.content = .ok ids) :
    c.getCondensation selection view response = .ok (.forgetIds (c.forgottenIds view ids)) := by
  have hhead : (PySeq.slice view.events none (some (c.sizes.keepFirst : ℤ))).map Event.id
      = c.headIds view := by
    rw [PySeq.slice_stop_of_nonneg _ (by omega), Int.toNat_natCast]
    rfl
  have hplaces : ((c.sizes.maxSize / 2 : ℕ) : ℤ) - (c.headIds view).length
      = ((c.sizes.maxSize / 2 - c.sizes.keepFirst : ℕ) : ℤ) := by
    have hlt := c.sizes.keepFirst_lt
    rw [length_headIds hlong]
    omega
  have hplaced : PySeq.slice (ids.filter (· ∉ c.headIds view)) none
      (some ((c.sizes.maxSize / 2 - c.sizes.keepFirst : ℕ) : ℤ)) = c.placed view ids := by
    rw [PySeq.slice_stop_of_nonneg _ (by omega), Int.toNat_natCast]
    rfl
  unfold getCondensation
  simp only [hhead, hplaces, hids]
  show (Except.ok ids >>= fun _ => _) = _
  simp only [bind, Except.bind, hplaced, fillUp_reverse hlong hnodup]
  rfl

/-! ## The view that is left -/

/-- Whether an event of the view is forgotten is a matter of its id. -/
theorem notMem_forgottenIds_iff {e : Event} (he : e ∈ view.events) :
    e.id ∉ c.forgottenIds view ids ↔
      e.id ∈ c.placed view ids ++ c.padding view ids ∨ e.id ∈ c.headIds view := by
  rw [← not_iff_not, not_not, not_or, forgottenIds, List.mem_map]
  constructor
  · rintro ⟨e', he', hid⟩
    rw [← hid]
    simpa using (List.mem_filter.mp he').2
  · intro hout
    exact ⟨e, List.mem_filter.mpr ⟨he, by simpa using hout⟩, rfl⟩

/-- The first events stay, and of the others those with a place. -/
theorem condensed_eq (hnodup : (view.events.map Event.id).Nodup) :
    view.condensed (.forgetIds (c.forgottenIds view ids))
      = view.events.take c.sizes.keepFirst ++ (view.events.drop c.sizes.keepFirst).filter
          (·.id ∈ c.placed view ids ++ c.padding view ids) := by
  have hkept : view.condensed (.forgetIds (c.forgottenIds view ids)) = view.events.filter fun e =>
      e.id ∈ c.placed view ids ++ c.padding view ids ∨ e.id ∈ c.headIds view := by
    apply List.filter_congr
    intro e he
    exact decide_eq_decide.mpr (notMem_forgottenIds_iff he)
  rw [hkept]
  conv_lhs => rw [← List.take_append_drop c.sizes.keepFirst view.events]
  rw [map_id_eq c view, List.nodup_append] at hnodup
  rw [List.filter_append]
  congr 1
  · rw [List.filter_eq_self]
    intro e he
    have hmem : e.id ∈ c.headIds view := List.mem_map_of_mem he
    simp [hmem]
  · apply List.filter_congr
    intro e he
    have hnot : e.id ∉ c.headIds view := by
      intro hmem
      exact hnodup.2.2 e.id hmem e.id (List.mem_map_of_mem he) rfl
    simp [hnot]

/-- The ids of the padding are ids of other events, and new to the selection. -/
theorem padding_spec (hnodup : (view.events.map Event.id).Nodup) :
    (c.padding view ids).Nodup ∧
      c.padding view ids ⊆ (view.events.drop c.sizes.keepFirst).map Event.id ∧
      ∀ id ∈ c.padding view ids, id ∉ c.placed view ids := by
  rw [map_id_eq c view] at hnodup
  refine ⟨?_, ?_, ?_⟩
  · have hrest := List.nodup_reverse.mpr hnodup.of_append_right
    exact (hrest.filter _).sublist (List.take_sublist _ _)
  · intro id hid
    exact List.mem_reverse.mp (List.mem_of_mem_filter (List.mem_of_mem_take hid))
  · intro id hid
    simpa using (List.mem_filter.mp (List.mem_of_mem_take hid)).2

/-- The events of the view that the response names with an id that takes a place. -/
def named (c : LLMAttentionCondenser) (view : View) (ids : List ℤ) : List Event :=
  view.events.filter (·.id ∈ c.placed view ids)

/-- None of the first events is named. -/
theorem named_eq : c.named view ids
    = (view.events.drop c.sizes.keepFirst).filter (·.id ∈ c.placed view ids) := by
  have hnone : (view.events.take c.sizes.keepFirst).filter (·.id ∈ c.placed view ids) = [] := by
    rw [List.filter_eq_nil_iff]
    intro e he
    have hhead : e.id ∈ c.headIds view := List.mem_map_of_mem he
    rw [decide_eq_true_eq]
    exact fun hplaced => notMem_headIds_of_placed hplaced hhead
  unfold named
  conv_lhs => rw [← List.take_append_drop c.sizes.keepFirst view.events]
  rw [List.filter_append, hnone, List.nil_append]

/-- As many events are named as ids take a place exactly when these are distinct ids of
events. -/
theorem length_named_eq_iff (hnodup : (view.events.map Event.id).Nodup) :
    (c.named view ids).length = (c.placed view ids).length ↔
      (c.placed view ids).Nodup ∧ c.placed view ids ⊆ view.events.map Event.id := by
  rw [← length_filter_mem_eq_iff hnodup, List.filter_map, List.length_map]
  rfl

/-- The events with a place are the named ones and those of the padding. -/
theorem length_filter_selection (hnodup : (view.events.map Event.id).Nodup) :
    ((view.events.drop c.sizes.keepFirst).filter
        (·.id ∈ c.placed view ids ++ c.padding view ids)).length
      = (c.named view ids).length + (c.padding view ids).length := by
  have hrest : ((view.events.drop c.sizes.keepFirst).map Event.id).Nodup := by
    rw [map_id_eq c view] at hnodup
    exact hnodup.of_append_right
  have hspec : (c.padding view ids).Nodup ∧
      c.padding view ids ⊆ (view.events.drop c.sizes.keepFirst).map Event.id ∧
      ∀ id ∈ c.padding view ids, id ∉ c.placed view ids := padding_spec hnodup
  obtain ⟨hpad, hpadIn, hnew⟩ := hspec
  have hpadded : ((view.events.drop c.sizes.keepFirst).filter
      (·.id ∈ c.padding view ids)).length = (c.padding view ids).length := by
    rw [← (length_filter_mem_eq_iff hrest).mpr ⟨hpad, hpadIn⟩, List.filter_map, List.length_map]
    rfl
  have hsplit := List.length_eq_length_filter_add
    (l := (view.events.drop c.sizes.keepFirst).filter
      (·.id ∈ c.placed view ids ++ c.padding view ids))
    (fun e => decide (e.id ∈ c.placed view ids))
  rw [hsplit, named_eq, ← hpadded, List.filter_filter, List.filter_filter]
  congr 2
  · apply List.filter_congr
    intro e _
    by_cases hplaced : e.id ∈ c.placed view ids <;> simp [hplaced]
  · -- no id of the padding has a place of the response
    apply List.filter_congr
    intro e _
    by_cases hpadding : e.id ∈ c.padding view ids
    · simp [hpadding, hnew e.id hpadding]
    · by_cases hplaced : e.id ∈ c.placed view ids <;> simp [hpadding, hplaced]

theorem length_condensed (hlong : c.sizes.maxSize < view.events.length)
    (hnodup : (view.events.map Event.id).Nodup) :
    (view.condensed (.forgetIds (c.forgottenIds view ids))).length
        + (c.placed view ids).length
      = c.sizes.maxSize / 2 + (c.named view ids).length := by
  have hlt := c.sizes.keepFirst_lt
  have hle : (c.placed view ids).length ≤ c.sizes.maxSize / 2 - c.sizes.keepFirst :=
    length_placed_le
  have hpadding : (c.padding view ids).length
      = c.sizes.maxSize / 2 - c.sizes.keepFirst - (c.placed view ids).length := by
    rw [padding, List.length_take, min_eq_left (length_padding hlong hnodup)]
  rw [condensed_eq hnodup, List.length_append, length_filter_selection hnodup, List.length_take]
  omega

/-! ## The next view of the history -/

/-- The next view of a history, once the action `e` of a condensation is appended, has the
first events, and half of the maximal size in all. -/
structure SelectsHalf (c : LLMAttentionCondenser) (events : List Event) (e : Event) : Prop where
  head : (View.fromEvents events).events.take c.sizes.keepFirst
    ⊆ (View.fromEvents (events ++ [e])).events
  length : (View.fromEvents (events ++ [e])).events.length = c.sizes.maxSize / 2

/-- The summary of the history has no place, neither among the first events nor in the
selection: it is forgotten, and inserted again. -/
def SummaryReturns (c : LLMAttentionCondenser) (events : List Event) (ids : List ℤ) : Prop :=
  (View.lastSummary events).isSome ∧ invalidId ∉ c.headIds (View.fromEvents events) ∧
    invalidId ∉ c.placed (View.fromEvents events) ids ++ c.padding (View.fromEvents events) ids

instance (c : LLMAttentionCondenser) (events : List Event) (ids : List ℤ) :
    Decidable (c.SummaryReturns events ids) := by
  unfold SummaryReturns
  infer_instance

variable {events : List Event}

theorem summaryReturns_iff : c.SummaryReturns events ids ↔
    (View.lastSummary events).isSome ∧
      invalidId ∈ c.forgottenIds (View.fromEvents events) ids := by
  unfold SummaryReturns
  rw [and_congr_right_iff]
  intro hsome
  obtain ⟨content, hmem⟩ := View.exists_mem_fromEvents hsome
  have hplace : invalidId ∉ c.forgottenIds (View.fromEvents events) ids ↔
      invalidId ∈ c.placed (View.fromEvents events) ids ++ c.padding (View.fromEvents events) ids ∨
        invalidId ∈ c.headIds (View.fromEvents events) := notMem_forgottenIds_iff hmem
  rw [← not_iff_not, hplace, not_and_or, not_not, not_not]
  exact or_comm

/-- **Half of the maximal size is left** exactly when the ids of the response that take a place
are distinct ids of events of the view; where a summary returns without a place, when one of
them is lost. -/
theorem selectsHalf_iff (c : LLMAttentionCondenser)
    (selection : Option String → Except String (List ℤ)) (events : List Event)
    (response : LLMResponse) (ids : List ℤ) (id : ℤ) (hnodup : (events.map Event.id).Nodup)
    (hvalid : ∀ e ∈ events, e.id ≠ invalidId) (hnew : ∀ e ∈ events, e.id ≠ id)
    (hlong : c.sizes.maxSize < (View.fromEvents events).events.length)
    (hids : selection response.content = .ok ids) :
    (∃ action, c.getCondensation selection (View.fromEvents events) response = .ok action ∧
        c.SelectsHalf events { id := id, body := .action (.condensation action) }) ↔
      (¬ c.SummaryReturns events ids ∧ (c.placed (View.fromEvents events) ids).Nodup ∧
        c.placed (View.fromEvents events) ids ⊆ (View.fromEvents events).events.map Event.id) ∨
      (c.SummaryReturns events ids ∧ (c.named (View.fromEvents events) ids).length + 1
        = (c.placed (View.fromEvents events) ids).length) := by
  have hviewNodup := View.nodup_fromEvents hnodup hvalid
  set view := View.fromEvents events with hview
  set action := CondensationAction.forgetIds (c.forgottenIds view ids) with haction
  have hcond : Event.condensation? { id := id, body := .action (.condensation action) }
      = some action := rfl
  have hlength := View.length_fromEvents_append hcond rfl hnew
  have hcondensed := @length_condensed c _ ids hlong hviewNodup
  have hforgotten : action.forgotten = c.forgottenIds view ids := rfl
  rw [hforgotten, ← hview, haction, if_congr summaryReturns_iff.symm rfl rfl] at hlength
  rw [getCondensation_eq hlong hviewNodup hids, ← length_named_eq_iff hviewNodup]
  have hhalf : (View.fromEvents (events
          ++ [{ id := id, body := .action (.condensation action) }])).events.length
        = c.sizes.maxSize / 2 ↔
      (¬ c.SummaryReturns events ids ∧ (c.named view ids).length = (c.placed view ids).length) ∨
      (c.SummaryReturns events ids ∧
        (c.named view ids).length + 1 = (c.placed view ids).length) := by
    rw [hlength]
    -- a summary that returns is one event more
    by_cases hreturns : c.SummaryReturns events ids
    · simp only [hreturns, if_true, not_true, false_and, true_and, false_or]
      omega
    · simp only [hreturns, if_false, not_false_eq_true, false_and, true_and, or_false]
      omega
  rw [← hhalf]
  constructor
  · rintro ⟨_, haction', hselects⟩
    cases haction'
    exact hselects.length
  · intro hlen
    refine ⟨_, rfl, ?_, hlen⟩
    intro e he
    apply View.condensed_subset hcond rfl hnew
    rw [← hview, haction, condensed_eq hviewNodup]
    exact List.mem_append_left _ he

/-- A message with an id. -/
def messageAt (id : ℤ) : Event := { id := id, body := .action (.message { content := "" }) }

/-- Five messages with the ids from 0 to 4. -/
def fiveMessages : List Event := [0, 1, 2, 3, 4].map messageAt

/-- Six messages, of which the second has given way to a summary. -/
def summarised : List Event :=
  [0, 1, 2, 3, 4, 5].map messageAt ++
    [{ id := 6, body := .action (.condensation (.summarizeRange 1 1 "" 1)) }]

theorem one_lt_half_of_four : 1 < 4 / 2 := by decide

/-- A condenser for four events that keeps the first. -/
def fourEvents : LLMAttentionCondenser := ⟨⟨4, 1, one_lt_half_of_four⟩⟩

/-- The language model names one event; behind a summary, the summary itself. -/
theorem selectsHalf_known_id :
    (∃ action, fourEvents.getCondensation (fun _ => .ok [3]) (View.fromEvents fiveMessages)
        ⟨none, []⟩ = .ok action ∧
      fourEvents.SelectsHalf fiveMessages { id := 5, body := .action (.condensation action) }) ∧
    (∃ action, fourEvents.getCondensation (fun _ => .ok [-1]) (View.fromEvents summarised)
        ⟨none, []⟩ = .ok action ∧
      fourEvents.SelectsHalf summarised { id := 7, body := .action (.condensation action) }) :=
  ⟨(selectsHalf_iff fourEvents (fun _ => .ok [3]) fiveMessages ⟨none, []⟩ [3] 5 (by decide)
      (by decide) (by decide) (by decide) rfl).mpr (by decide),
    (selectsHalf_iff fourEvents (fun _ => .ok [-1]) summarised ⟨none, []⟩ [-1] 7 (by decide)
      (by decide) (by decide) (by decide) rfl).mpr (by decide)⟩

/-- An unknown id takes the only place: the first event is left alone. -/
theorem unknown_id_takes_place :
    fourEvents.sizes.maxSize < (View.fromEvents fiveMessages).events.length ∧
    ∃ action, fourEvents.getCondensation (fun _ => .ok [99]) (View.fromEvents fiveMessages)
        ⟨none, []⟩ = .ok action ∧
      (View.fromEvents (fiveMessages
        ++ [{ id := 5, body := .action (.condensation action) }])).events.map Event.id = [0] ∧
      ¬ fourEvents.SelectsHalf fiveMessages
        { id := 5, body := .action (.condensation action) } := by
  refine ⟨by decide, .forgetIds [1, 2, 3, 4], rfl, by decide, ?_⟩
  intro hselects
  exact absurd hselects.length (by decide)

/-- A summary that is not named comes back as a third event. -/
example : (fourEvents.getCondensation (fun _ => .ok [3]) (View.fromEvents summarised)
    ⟨none, []⟩).toOption.map (fun action => (View.fromEvents (summarised
      ++ [{ id := 7, body := .action (.condensation action) }])).events.map Event.id)
    = some [0, -1, 3] := by decide

end LLMAttentionCondenser

end OpenHands
