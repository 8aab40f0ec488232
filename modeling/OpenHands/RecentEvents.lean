/-
# The window of recent events

`RecentEventsCondenser.condense`: the first `keep_first` events of a view and, up to
`max_events` in all, its last ones.

Head and tail are taken apart from each other.  When the view is shorter than the window the
tail reaches back into the head, and when the head fills the window the tail of length `0`
is the whole view; in both cases events come twice.  `keepsRecent_iff` says when this does
not happen.
-/
import OpenHands.CondenserPipeline

namespace OpenHands

namespace RecentEventsCondenser

/-- The condensed view is what the condenser is for: events of the view in their order and
none of them twice, as many as there is room for, the first ones and the most recent ones. -/
structure KeepsRecent (c : RecentEventsCondenser) (view : View) : Prop where
  sublist : (c.condense view).events.Sublist view.events
  nodup : view.events.Nodup → (c.condense view).events.Nodup
  length : c.keepFirst < c.maxEvents →
    ((c.condense view).events.length : ℤ) = min (view.events.length : ℤ) c.maxEvents
  recent : ∃ tail, tail <:+ view.events.drop c.keepFirst.toNat ∧
    (c.condense view).events = view.events.take c.keepFirst.toNat ++ tail

variable {c : RecentEventsCondenser} {view : View}

/-- The head and the tail as they are taken from the view. -/
theorem condense_events (hkeep : 0 ≤ c.keepFirst) :
    (c.condense view).events = view.events.take c.keepFirst.toNat ++
      PySeq.slice view.events
        (some (-max 0 (c.maxEvents - (view.events.take c.keepFirst.toNat).length))) none := by
  show PySeq.slice view.events none (some c.keepFirst) ++ _ = _
  rw [PySeq.slice_stop_of_nonneg _ hkeep]

/-- A head that fills the window is followed by the whole view. -/
theorem condense_events_of_full (hkeep : 0 ≤ c.keepFirst)
    (hfull : c.maxEvents ≤ (view.events.take c.keepFirst.toNat).length) :
    (c.condense view).events = view.events.take c.keepFirst.toNat ++ view.events := by
  rw [condense_events hkeep, max_eq_left (by omega)]
  congr 1
  -- `view[-0:]` begins at the position 0
  show (view.events.take view.events.length).drop (PySeq.bound view.events.length (-0)) = _
  rw [List.take_length, neg_zero, PySeq.bound_of_nonneg _ le_rfl]
  simp

/-- Otherwise the tail has the length that is left, as far as the view goes. -/
theorem condense_events_of_room (hkeep : 0 ≤ c.keepFirst)
    (hroom : (view.events.take c.keepFirst.toNat).length < c.maxEvents) :
    (c.condense view).events = view.events.take c.keepFirst.toNat ++
      view.events.drop (view.events.length
        - (c.maxEvents.toNat - (view.events.take c.keepFirst.toNat).length)) := by
  have hlength : max 0 (c.maxEvents - (view.events.take c.keepFirst.toNat).length)
      = ((c.maxEvents.toNat - (view.events.take c.keepFirst.toNat).length : ℕ) : ℤ) := by
    omega
  rw [condense_events hkeep, hlength, PySeq.slice_start_of_neg _ (by omega)]

/-- A window that the view fills, with a head that leaves room. -/
theorem condense_events_of_fits (hkeep : 0 ≤ c.keepFirst) (hlt : c.keepFirst < c.maxEvents)
    (hle : c.maxEvents ≤ view.events.length) :
    (c.condense view).events = view.events.take c.keepFirst.toNat ++
      view.events.drop (view.events.length - (c.maxEvents.toNat - c.keepFirst.toNat)) := by
  have hhead : (view.events.take c.keepFirst.toNat).length = c.keepFirst.toNat := by
    rw [List.length_take]
    omega
  rw [condense_events_of_room hkeep (by omega), hhead]

/-- The parts that do not overlap make up a window of recent events. -/
theorem keepsRecent_of_drop {n : ℕ} (hn : c.keepFirst.toNat ≤ n)
    (hevents : (c.condense view).events
      = view.events.take c.keepFirst.toNat ++ view.events.drop n)
    (hlength : c.keepFirst < c.maxEvents →
      ((c.condense view).events.length : ℤ) = min (view.events.length : ℤ) c.maxEvents) :
    c.KeepsRecent view := by
  have hdrop : view.events.drop n = (view.events.drop c.keepFirst.toNat).drop
      (n - c.keepFirst.toNat) := by
    rw [List.drop_drop, Nat.add_sub_cancel' hn]
  have hsub : (c.condense view).events.Sublist view.events := by
    have htail : (view.events.drop n).Sublist (view.events.drop c.keepFirst.toNat) := by
      rw [hdrop]
      exact List.drop_sublist _ _
    have happend := htail.append_left (view.events.take c.keepFirst.toNat)
    rw [List.take_append_drop] at happend
    rw [hevents]
    exact happend
  refine ⟨hsub, hsub.nodup, hlength, view.events.drop n, ?_, hevents⟩
  rw [hdrop]
  exact List.drop_suffix _ _

/-- With more events than the view has, some of them come twice. -/
theorem not_keepsRecent_of_length (h : view.events.length < (c.condense view).events.length) :
    ¬ c.KeepsRecent view := by
  intro hkeeps
  have hle := hkeeps.sublist.length_le
  omega

/-- An empty view stays empty. -/
theorem keepsRecent_of_nil (hkeep : 0 ≤ c.keepFirst) (hmax : 1 ≤ c.maxEvents)
    (hnil : view.events = []) : c.KeepsRecent view := by
  have hevents : (c.condense view).events = [] := by
    have hfull : (c.condense view).events = view.events.take c.keepFirst.toNat ++ [] := by
      rw [condense_events hkeep, hnil]
      simp [PySeq.slice]
    rw [hfull, hnil, List.take_nil, List.append_nil]
  refine keepsRecent_of_drop (n := c.keepFirst.toNat) le_rfl ?_ ?_
  · rw [hevents, hnil, List.take_nil, List.drop_nil, List.append_nil]
  · intro _
    rw [hevents, hnil]
    show ((0 : ℕ) : ℤ) = min ((0 : ℕ) : ℤ) c.maxEvents
    omega

/-- Without a head the window is the tail of the view. -/
theorem keepsRecent_of_headless (hmax : 1 ≤ c.maxEvents) (hzero : c.keepFirst = 0) :
    c.KeepsRecent view := by
  have hroom : ((view.events.take c.keepFirst.toNat).length : ℤ) < c.maxEvents := by
    simp only [hzero, Int.toNat_zero, List.take_zero, List.length_nil]
    omega
  have hevents := condense_events_of_room hzero.ge hroom
  refine keepsRecent_of_drop (by simp [hzero]) hevents ?_
  intro _
  rw [hevents]
  simp only [hzero, List.length_append, List.length_drop, List.length_take]
  omega

/-- Head and tail of a view that fills the window do not overlap. -/
theorem keepsRecent_of_fits (hkeep : 0 ≤ c.keepFirst) (hlt : c.keepFirst < c.maxEvents)
    (hle : c.maxEvents ≤ view.events.length) : c.KeepsRecent view := by
  have hevents := condense_events_of_fits hkeep hlt hle
  refine keepsRecent_of_drop (by omega) hevents ?_
  intro _
  rw [hevents]
  simp only [List.length_append, List.length_drop, List.length_take]
  omega

/-- **A window of recent events** comes of an empty view, of a window without a head, and of
a view that fills a window whose head leaves room; of no other. -/
theorem keepsRecent_iff (c : RecentEventsCondenser) (view : View) (hkeep : 0 ≤ c.keepFirst)
    (hmax : 1 ≤ c.maxEvents) :
    c.KeepsRecent view ↔ view.events = [] ∨ c.keepFirst = 0 ∨
      c.keepFirst < c.maxEvents ∧ c.maxEvents ≤ view.events.length := by
  constructor
  · intro hkeeps
    by_contra hnot
    rw [not_or, not_or] at hnot
    obtain ⟨hne, hzero, hshort⟩ := hnot
    have hpos : 0 < view.events.length := List.length_pos_of_ne_nil hne
    refine not_keepsRecent_of_length ?_ hkeeps
    by_cases hfull : c.maxEvents ≤ (view.events.take c.keepFirst.toNat).length
    · -- no room for a tail: the slice of length zero is the whole view
      rw [condense_events_of_full hkeep hfull, List.length_append]
      omega
    · -- the view is too short for head and tail
      rw [condense_events_of_room hkeep (by omega)]
      simp only [List.length_append, List.length_drop, List.length_take] at hfull ⊢
      omega
  · rintro (hnil | hzero | ⟨hlt, hle⟩)
    · exact keepsRecent_of_nil hkeep hmax hnil
    · exact keepsRecent_of_headless hmax hzero
    · exact keepsRecent_of_fits hkeep hlt hle

/-- Two events in a window of ten, with one kept at the start. -/
def twoEvents : View where
  events := [{ id := 0, source := some .user, body := .action (.message { content := "a" }) },
    { id := 1, source := some .agent, body := .action (.message { content := "b" }) }]

theorem keepsRecent_window_of_two : (RecentEventsCondenser.mk 1 2).KeepsRecent twoEvents :=
  (keepsRecent_iff ⟨1, 2⟩ twoEvents (by decide) (by decide)).mpr
    (Or.inr (Or.inr ⟨by decide, by decide⟩))

/-- The first of two events comes twice. -/
theorem first_event_twice :
    (RecentEventsCondenser.condense {} twoEvents).events.map Event.id = [0, 0, 1] ∧
      ¬ ∀ (c : RecentEventsCondenser) (view : View), 0 ≤ c.keepFirst → 1 ≤ c.maxEvents →
        c.KeepsRecent view := by
  refine ⟨by decide, ?_⟩
  intro hall
  have hkeeps := hall {} twoEvents (by decide) (by decide)
  exact absurd hkeeps.sublist.length_le (by decide)

end RecentEventsCondenser

end OpenHands
