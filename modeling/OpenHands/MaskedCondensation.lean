/-
# Masking stages before a rolling condenser

`CondenserPipeline` with the two masking condensers of `openhands/memory/condenser`:
`ObservationMaskingCondenser` and `BrowserOutputCondenser` replace events of the view
by placeholders.  A placeholder is a new event, so its id is `invalidId = -1`.

`AmortizedForgettingCondenser` forgets the range from the smallest to the largest id it
finds in the middle of the masked view.  The main result says exactly when this range
spares the events it means to keep.
-/
import Mathlib.Data.List.Forall2
import OpenHands.CondensationSafety

namespace OpenHands

/-! ## Masking -/

/-- `ObservationMaskingCondenser`. -/
structure ObservationMaskingCondenser where
  attentionWindow : ℤ := 5
  deriving DecidableEq, Repr

/-- `ObservationMaskingCondenser.condense`: observations before the attention window are
replaced. -/
def ObservationMaskingCondenser.condense (c : ObservationMaskingCondenser) (view : View) :
    View where
  events := view.events.mapIdx fun i event =>
    if event.isObservation ∧ (i : ℤ) < view.events.length - c.attentionWindow then
      agentCondensationObservation "<MASKED>"
    else event

/-- `BrowserOutputCondenser`. -/
structure BrowserOutputCondenser where
  attentionWindow : ℤ := 1
  deriving DecidableEq, Repr

/-- The url of a `BrowserOutputObservation`. -/
def Event.browserUrl? (e : Event) : Option String :=
  match e.body with
  | .observation { cls := .browserOutput url, .. } => some url
  | _ => none

/-- The loop over `reversed(view)`, with the number of browser outputs left in place. -/
def maskBrowserOutputs (attentionWindow : ℤ) : ℕ → List Event → List Event
  | _, [] => []
  | cnt, event :: events =>
    match event.browserUrl? with
    | some url =>
      if attentionWindow ≤ cnt then
        agentCondensationObservation s!"Visited URL {url}\nContent omitted"
          :: maskBrowserOutputs attentionWindow cnt events
      else event :: maskBrowserOutputs attentionWindow (cnt + 1) events
    | none => event :: maskBrowserOutputs attentionWindow cnt events

/-- `BrowserOutputCondenser.condense`: all browser outputs but the last ones are
replaced. -/
def BrowserOutputCondenser.condense (c : BrowserOutputCondenser) (view : View) : View where
  events := (maskBrowserOutputs c.attentionWindow 0 view.events.reverse).reverse

/-- The condensers that mask events. -/
inductive MaskingCondenser where
  | observationMasking (c : ObservationMaskingCondenser)
  | browserOutput (c : BrowserOutputCondenser)
  deriving DecidableEq, Repr

/-- `condense` of a masking condenser. -/
def MaskingCondenser.condense : MaskingCondenser → View → View
  | observationMasking c, view => c.condense view
  | browserOutput c, view => c.condense view

/-! ## The pipeline -/

/-- A stage of a pipeline. -/
inductive Condenser where
  | masking (c : MaskingCondenser)
  | rolling (c : RollingCondenser)
  deriving DecidableEq, Repr

section Pipeline

variable (str : Event → Except PyError String) (validate : String → Except String StateSummary)
  (response : LLMResponse)

/-- `condense` of a stage. -/
def Condenser.condense : Condenser → View → Except PyError CondenserResult
  | masking c, view => .ok (.view (c.condense view))
  | rolling c, view =>
    rollingCondense c.shouldCondense (fun v => c.getCondensation str validate v response) view

/-- `CondenserPipeline.condense`: the stages in order, until one returns a condensation. -/
def pipelineCondense : List Condenser → View → Except PyError CondenserResult
  | [], view => .ok (.view view)
  | c :: cs, view =>
    match c.condense str validate response view with
    | .ok (.view v) => pipelineCondense cs v
    | result => result

/-- The view behind a list of masking stages. -/
def maskedView (stages : List MaskingCondenser) (view : View) : View :=
  stages.foldl (fun v c => c.condense v) view

variable {str validate response}

/-- Masking stages hand their view on. -/
theorem pipelineCondense_masking (stages : List MaskingCondenser) (cs : List Condenser)
    (view : View) :
    pipelineCondense str validate response (stages.map .masking ++ cs) view
      = pipelineCondense str validate response cs (maskedView stages view) := by
  induction stages generalizing view with
  | nil => rfl
  | cons c stages ih => exact ih (c.condense view)

/-- The condensation of a pipeline that ends in the amortized condenser. -/
theorem pipelineCondense_amortized {stages : List MaskingCondenser}
    {c : AmortizedForgettingCondenser} {view : View} {action : CondensationAction}
    (h : pipelineCondense str validate response
      (stages.map .masking ++ [.rolling (.amortizedForgetting c)]) view
        = .ok (.condensation action)) :
    c.getCondensation (maskedView stages view) = .ok action := by
  rw [pipelineCondense_masking, pipelineCondense] at h
  cases hresult : (Condenser.rolling (.amortizedForgetting c)).condense str validate response
      (maskedView stages view) with
  | error e =>
    rw [hresult] at h
    cases h
  | ok result =>
    rw [hresult] at h
    cases result with
    | view v => cases h
    | condensation action' =>
      cases h
      rw [Condenser.condense] at hresult
      exact (rollingCondense_eq_condensation hresult).2

end Pipeline

/-! ## What masking leaves in place -/

/-- An event of a masked view: the event of the view, or a placeholder. -/
def MaskedEvent (masked original : Event) : Prop := masked = original ∨ masked.id = invalidId

/-- A view and its masked form, position by position. -/
abbrev MaskedEvents : List Event → List Event → Prop := List.Forall₂ MaskedEvent

theorem MaskedEvent.refl (e : Event) : MaskedEvent e e := Or.inl rfl

theorem MaskedEvents.refl (events : List Event) : MaskedEvents events events :=
  List.forall₂_same.mpr fun e _ => MaskedEvent.refl e

/-- Masking a masked event. -/
theorem MaskedEvent.trans {a b c : Event} (hab : MaskedEvent a b) (hbc : MaskedEvent b c) :
    MaskedEvent a c := by
  rcases hab with rfl | hab
  · exact hbc
  · exact Or.inr hab

theorem MaskedEvents.trans {l m n : List Event} (hlm : MaskedEvents l m)
    (hmn : MaskedEvents m n) : MaskedEvents l n := by
  induction hlm generalizing n with
  | nil =>
    cases hmn
    exact .nil
  | cons hab _ ih =>
    cases hmn with
    | cons hbc hmn => exact .cons (hab.trans hbc) (ih hmn)

/-- Masking by position. -/
theorem maskedEvents_observationMasking (c : ObservationMaskingCondenser) (view : View) :
    MaskedEvents (c.condense view).events view.events := by
  rw [ObservationMaskingCondenser.condense, MaskedEvents, List.forall₂_iff_get]
  refine ⟨List.length_mapIdx, ?_⟩
  intro i h1 h2
  simp only [List.get_eq_getElem, List.getElem_mapIdx]
  split_ifs with hmask
  · exact Or.inr rfl
  · exact MaskedEvent.refl _

/-- Masking from the end. -/
theorem maskedEvents_maskBrowserOutputs (attentionWindow : ℤ) (events : List Event) :
    ∀ cnt, MaskedEvents (maskBrowserOutputs attentionWindow cnt events) events := by
  induction events with
  | nil =>
    intro cnt
    exact .nil
  | cons e es ih =>
    intro cnt
    rw [maskBrowserOutputs]
    cases e.browserUrl? with
    | none => exact .cons (MaskedEvent.refl e) (ih cnt)
    | some url =>
      show MaskedEvents (if _ then _ else _) _
      split_ifs with hcnt
      · exact .cons (Or.inr rfl) (ih cnt)
      · exact .cons (MaskedEvent.refl e) (ih (cnt + 1))

theorem maskedEvents_condense (c : MaskingCondenser) (view : View) :
    MaskedEvents (c.condense view).events view.events := by
  cases c with
  | observationMasking c => exact maskedEvents_observationMasking c view
  | browserOutput c =>
    have h := maskedEvents_maskBrowserOutputs c.attentionWindow view.events.reverse 0
    have hrev := List.rel_reverse h
    rw [List.reverse_reverse] at hrev
    exact hrev

/-- **Masking keeps positions**: behind any masking stages every position holds its event
or a placeholder. -/
theorem maskedEvents_maskedView (stages : List MaskingCondenser) (view : View) :
    MaskedEvents (maskedView stages view).events view.events := by
  induction stages generalizing view with
  | nil => exact MaskedEvents.refl _
  | cons c stages ih => exact (ih (c.condense view)).trans (maskedEvents_condense c view)

/-- The event behind a position that is no placeholder. -/
theorem MaskedEvents.getElem?_eq {masked original : List Event} (h : MaskedEvents masked original)
    {i : ℕ} {e : Event} (he : masked[i]? = some e) (hid : e.id ≠ invalidId) :
    original[i]? = some e := by
  induction h generalizing i with
  | nil => cases he
  | cons hab _ ih =>
    cases i with
    | zero =>
      rw [List.getElem?_cons_zero] at he ⊢
      cases he
      rcases hab with rfl | hab
      · rfl
      · exact absurd hab hid
    | succ i =>
      rw [List.getElem?_cons_succ] at he ⊢
      exact ih he

/-! ## The ids of a view -/

/-- The events of a view that are no summary stand in increasing order of their ids. -/
theorem pairwise_fromEvents {history : List Event}
    (hsorted : history.Pairwise (fun a b => a.id < b.id)) :
    (View.fromEvents history).events.Pairwise
      (fun a b => a.id ≠ invalidId → b.id ≠ invalidId → a.id < b.id) := by
  have hkept : (View.keptEvents history).Pairwise
      (fun a b => a.id ≠ invalidId → b.id ≠ invalidId → a.id < b.id) :=
    (hsorted.filter _).imp fun hlt _ _ => hlt
  show (View.insertSummary (View.keptEvents history) (View.lastSummary history)).Pairwise _
  cases View.lastSummary history with
  | none => exact hkept
  | some summary =>
    obtain ⟨text, summaryOffset⟩ := summary
    show (PySeq.insert (View.keptEvents history) summaryOffset _).Pairwise _
    rw [PySeq.insert]
    set k := PySeq.bound (View.keptEvents history).length summaryOffset
    rw [← List.take_append_drop k (View.keptEvents history)] at hkept
    obtain ⟨hhead, htail, hcross⟩ := List.pairwise_append.mp hkept
    refine List.pairwise_append.mpr ⟨hhead, List.pairwise_cons.mpr ⟨?_, htail⟩, ?_⟩
    · intro e _ hid
      exact absurd rfl hid
    · intro a ha b hb
      rcases List.mem_cons.mp hb with rfl | hb
      · intro _ hid
        exact absurd rfl hid
      · exact hcross a ha b hb

/-- A view holds kept events, whose ids are ids of the stream, and at most a summary. -/
theorem mem_fromEvents_iff {history : List Event} {e : Event} :
    e ∈ (View.fromEvents history).events ↔
      e ∈ View.keptEvents history ∨
        ∃ text summaryOffset, View.lastSummary history = some (text, summaryOffset) ∧
          e = agentCondensationObservation text := by
  show e ∈ View.insertSummary (View.keptEvents history) (View.lastSummary history) ↔ _
  cases View.lastSummary history with
  | none => simp [View.insertSummary]
  | some summary =>
    obtain ⟨text, summaryOffset⟩ := summary
    show e ∈ PySeq.insert _ _ _ ↔ _
    rw [PySeq.mem_insert, or_comm]
    simp

/-- An event of the view is still there after a range is forgotten, unless its id lies in
the range; a summary always is. -/
theorem mem_fromEvents_append_forgetRange {history : List Event}
    (hnonneg : ∀ e ∈ history, 0 ≤ e.id) {lo hi : ℤ} {condensation : Event}
    (hcond : condensation.condensation? = some (.forgetRange lo hi))
    (hid : ∀ e ∈ history, e.id < condensation.id) {e : Event}
    (he : e ∈ (View.fromEvents history).events) :
    e ∈ (View.fromEvents (history ++ [condensation])).events ↔
      e.id = invalidId ∨ ¬ (lo ≤ e.id ∧ e.id ≤ hi) := by
  have hsummary : View.lastSummary (history ++ [condensation]) = View.lastSummary history := by
    have hnone : View.summaryOf condensation = none := by
      rw [View.summaryOf, hcond]
      rfl
    rw [View.lastSummary_append_singleton, hnone]
    rfl
  have hkept : View.keptEvents (history ++ [condensation])
      = (View.keptEvents history).filter fun e' => e'.id ∉ (CondensationAction.forgetRange
          lo hi).forgotten :=
    View.keptEvents_append_of_condensation hcond fun e' he' => (hid e' he').ne
  rw [mem_fromEvents_iff, hsummary, hkept, List.mem_filter, decide_eq_true_eq,
    mem_forgotten_of_range rfl rfl rfl]
  constructor
  · rintro (⟨-, hout⟩ | ⟨text, summaryOffset, -, rfl⟩)
    · exact Or.inr hout
    · exact Or.inl rfl
  · intro h
    rcases mem_fromEvents_iff.mp he with hmem | hmem
    · refine Or.inl ⟨hmem, ?_⟩
      rcases h with hinvalid | hout
      · -- the ids of the history are not invalid
        have hpos := hnonneg e (View.mem_keptEvents.mp hmem).1
        rw [hinvalid] at hpos
        exact absurd hpos (by decide)
      · exact hout
    · exact Or.inr hmem

/-! ## When the kept events survive -/

/-- The condensation keeps what the condenser means to keep: every event of the view at a
position of the head or of the tail is still in the view of the longer history. -/
def KeepsHeadAndTail (sizes : WindowSizes) (history : List Event) (condensation : Event) : Prop :=
  ∀ i e, (View.fromEvents history).events[i]? = some e →
    ¬ InMiddle sizes.keepFirst (sizes.target - sizes.keepFirst)
      (View.fromEvents history).events.length i →
    e ∈ (View.fromEvents (history ++ [condensation])).events

/-- A placeholder starts the forgotten range: there is a head, the middle has a placeholder
and an event, and neither the head nor the tail has a placeholder. -/
def PlaceholderStartsRange (sizes : WindowSizes) (masked : List Event) : Prop :=
  0 < sizes.keepFirst ∧
  (∃ i e, masked[i]? = some e ∧
    InMiddle sizes.keepFirst (sizes.target - sizes.keepFirst) masked.length i ∧
    e.id = invalidId) ∧
  (∃ i e, masked[i]? = some e ∧
    InMiddle sizes.keepFirst (sizes.target - sizes.keepFirst) masked.length i ∧
    e.id ≠ invalidId) ∧
  (∀ i e, masked[i]? = some e →
    ¬ InMiddle sizes.keepFirst (sizes.target - sizes.keepFirst) masked.length i →
    e.id ≠ invalidId)

section Range

variable {sizes : WindowSizes} {original masked : List Event} {lo hi : ℤ}

/-- Two events with ids of their own at different positions. -/
theorem id_lt_of_position_lt
    (hids : original.Pairwise (fun a b => a.id ≠ invalidId → b.id ≠ invalidId → a.id < b.id))
    {i j : ℕ} {a b : Event} (hij : i < j) (ha : original[i]? = some a)
    (hb : original[j]? = some b) (hida : a.id ≠ invalidId) (hidb : b.id ≠ invalidId) :
    a.id < b.id := by
  obtain ⟨hi, rfl⟩ := List.getElem?_eq_some_iff.mp ha
  obtain ⟨hj, rfl⟩ := List.getElem?_eq_some_iff.mp hb
  exact List.pairwise_iff_getElem.mp hids i j hi hj hij hida hidb

/-- A range that no placeholder starts spares the head and the tail. -/
theorem not_mem_range_of_not_inMiddle (hmasked : MaskedEvents masked original)
    (hids : original.Pairwise (fun a b => a.id ≠ invalidId → b.id ≠ invalidId → a.id < b.id))
    (hlo : (sizes.idsToForget masked).min? = some lo)
    (hhi : (sizes.idsToForget masked).max? = some hi)
    (hstart : ¬ PlaceholderStartsRange sizes masked) {i : ℕ} {e : Event}
    (he : original[i]? = some e) (hnonneg : 0 ≤ e.id)
    (hout : ¬ InMiddle sizes.keepFirst (sizes.target - sizes.keepFirst) masked.length i) :
    ¬ (lo ≤ e.id ∧ e.id ≤ hi) := by
  rintro ⟨hle, hge⟩
  have hide : e.id ≠ invalidId := by
    intro h
    rw [h] at hnonneg
    exact absurd hnonneg (by decide)
  -- the largest id to forget is the id of an event of the middle
  obtain ⟨⟨q, f, hq, rfl⟩, hmiddle⟩ := mem_idsToForget_iff.mp (List.max?_mem hhi)
  obtain ⟨hfirst, hlast⟩ := hmiddle q f hq rfl
  have hidf : f.id ≠ invalidId := by
    intro h
    rw [h] at hge
    exact absurd (le_trans hnonneg hge) (by decide)
  have hqo := hmasked.getElem?_eq hq hidf
  by_cases htail : q < i
  · have hlt := id_lt_of_position_lt hids htail hqo he hidf hide
    omega
  · -- hence the position is in the head, and the smallest id is a placeholder's
    have hhead : i < sizes.keepFirst := by
      by_contra hge'
      exact hout ⟨by omega, by omega⟩
    obtain ⟨⟨p, g, hp, rfl⟩, hmiddle'⟩ := mem_idsToForget_iff.mp (List.min?_mem hlo)
    obtain ⟨hpfirst, -⟩ := hmiddle' p g hp rfl
    by_cases hidg : g.id = invalidId
    · refine hstart ⟨by omega, ⟨p, g, hp, hmiddle' p g hp rfl, hidg⟩,
        ⟨q, f, hq, ⟨hfirst, hlast⟩, hidf⟩, fun j x hj hjout hidx => ?_⟩
      exact hjout (hmiddle' j x hj (by rw [hidx, hidg]))
    · have hlt := id_lt_of_position_lt hids (show i < p by omega) he
        (hmasked.getElem?_eq hp hidg) hide hidg
      omega

/-- A range that a placeholder starts takes in the first event. -/
theorem first_mem_range (hmasked : MaskedEvents masked original)
    (hids : original.Pairwise (fun a b => a.id ≠ invalidId → b.id ≠ invalidId → a.id < b.id))
    (hlo : (sizes.idsToForget masked).min? = some lo)
    (hhi : (sizes.idsToForget masked).max? = some hi)
    (hstart : PlaceholderStartsRange sizes masked) :
    ∃ e, original[0]? = some e ∧ e.id ≠ invalidId ∧ (0 ≤ e.id → lo ≤ e.id ∧ e.id ≤ hi) := by
  obtain ⟨hhead, ⟨p, g, hp, hpmiddle, hidg⟩, ⟨q, f, hq, hqmiddle, hidf⟩, hkeptIds⟩ := hstart
  obtain ⟨hlomem, hlomin⟩ := List.min?_eq_some_iff.mp hlo
  obtain ⟨hhimem, hhimax⟩ := List.max?_eq_some_iff.mp hhi
  have hlen : 0 < masked.length := by
    have hqmax := hqmiddle.2
    omega
  have hzero : masked[0]? = some masked[0] := List.getElem?_eq_getElem hlen
  have hzeroOut : ¬ InMiddle sizes.keepFirst (sizes.target - sizes.keepFirst) masked.length 0 := by
    rintro ⟨hle, -⟩
    omega
  have hidZero := hkeptIds 0 _ hzero hzeroOut
  have hzeroOriginal := hmasked.getElem?_eq hzero hidZero
  have hqo := hmasked.getElem?_eq hq hidf
  -- the invalid id occurs in the middle only, and so does the id of the event
  have hinvalidMem : invalidId ∈ sizes.idsToForget masked := by
    refine mem_idsToForget_iff.mpr ⟨⟨p, g, hp, hidg⟩, fun j x hj hidx => ?_⟩
    by_contra hout
    exact hkeptIds j x hj hout hidx
  have hfMem : f.id ∈ sizes.idsToForget masked := by
    refine mem_idsToForget_iff.mpr ⟨⟨q, f, hq, rfl⟩, fun j x hj hidx => ?_⟩
    have hidx' : x.id ≠ invalidId := by
      rw [hidx]
      exact hidf
    have hjo := hmasked.getElem?_eq hj hidx'
    rcases Nat.lt_trichotomy j q with hlt | rfl | hgt
    · have hlt' := id_lt_of_position_lt hids hlt hjo hqo hidx' hidf
      omega
    · exact hqmiddle
    · have hlt' := id_lt_of_position_lt hids hgt hqo hjo hidf hidx'
      omega
  refine ⟨_, hzeroOriginal, hidZero, fun hnonneg => ⟨?_, ?_⟩⟩
  · -- the range starts at the id of the placeholders, below every stored id
    have hle := hlomin _ hinvalidMem
    have hinvalid : invalidId = -1 := rfl
    omega
  · have hqpos : 0 < q := by
      have hqmin := hqmiddle.1
      omega
    have hlt := id_lt_of_position_lt hids hqpos hzeroOriginal hqo hidZero hidf
    have hle := hhimax _ hfMem
    omega

end Range

/-- **When a condensation behind masking stages spares the kept events**: exactly when no
placeholder starts its range. -/
theorem keepsHeadAndTail_iff (str : Event → Except PyError String)
    (validate : String → Except String StateSummary)
    (response : LLMResponse) (stages : List MaskingCondenser) (c : AmortizedForgettingCondenser)
    (history : List Event) (hsorted : history.Pairwise (fun a b => a.id < b.id))
    (hnonneg : ∀ e ∈ history, 0 ≤ e.id) (action : CondensationAction)
    (hcondense : pipelineCondense str validate response
      (stages.map .masking ++ [.rolling (.amortizedForgetting c)]) (View.fromEvents history)
        = .ok (.condensation action))
    (condensation : Event) (hcond : condensation.condensation? = some action)
    (hid : ∀ e ∈ history, e.id < condensation.id) :
    KeepsHeadAndTail c.sizes history condensation ↔
      ¬ PlaceholderStartsRange c.sizes (maskedView stages (View.fromEvents history)).events := by
  have hmasked := maskedEvents_maskedView stages (View.fromEvents history)
  have hids := pairwise_fromEvents hsorted
  obtain ⟨lo, hi, hlo, hhi, rfl⟩ :=
    amortized_getCondensation_eq_ok_iff.mp (pipelineCondense_amortized hcondense)
  constructor
  · intro hkeeps hstart
    obtain ⟨e, he, hide, hrange⟩ := first_mem_range hmasked hids hlo hhi hstart
    have hmem : e ∈ (View.fromEvents history).events := List.mem_of_getElem? he
    have hpos : 0 ≤ e.id := by
      rcases mem_fromEvents_iff.mp hmem with hkept | ⟨text, summaryOffset, -, rfl⟩
      · exact hnonneg e (View.mem_keptEvents.mp hkept).1
      · exact absurd rfl hide
    -- the first event belongs to the head, and the range takes it out
    have hhead : ¬ InMiddle c.sizes.keepFirst (c.sizes.target - c.sizes.keepFirst)
        (View.fromEvents history).events.length 0 := by
      rintro ⟨hle, -⟩
      have hhead := hstart.1
      omega
    rcases (mem_fromEvents_append_forgetRange hnonneg hcond hid hmem).mp (hkeeps 0 e he hhead) with
      hinvalid | hout
    · exact hide hinvalid
    · exact hout (hrange hpos)
  · intro hstart i e he hout
    have hmem : e ∈ (View.fromEvents history).events := List.mem_of_getElem? he
    rw [mem_fromEvents_append_forgetRange hnonneg hcond hid hmem]
    rcases mem_fromEvents_iff.mp hmem with hkept | ⟨text, summaryOffset, -, rfl⟩
    · right
      rw [← hmasked.length_eq] at hout
      exact not_mem_range_of_not_inMiddle hmasked hids hlo hhi hstart he
        (hnonneg e (View.mem_keptEvents.mp hkept).1) hout
    · exact Or.inl rfl

/-- A task, a command, its output and two more commands. -/
def taskAndCommands : List Event :=
  [{ id := 0, source := some .user, body := .action (.message { content := "task" }) },
   { id := 1, source := some .environment,
     body := .observation ⟨"output", .cmdOutput "ls" false⟩ },
   { id := 2, source := some .agent, body := .action (.agentThink "") },
   { id := 3, source := some .agent, body := .action (.agentThink "") },
   { id := 4, source := some .agent, body := .action (.agentThink "") }]

/-- A condenser that keeps the first event and at most four events. -/
def keepTask : AmortizedForgettingCondenser := ⟨⟨4, 1, by decide⟩⟩

/-- The condensation action that forgets the ids from -1 to 3. -/
def forgetFromPlaceholder : Event :=
  { id := 5, source := some .agent, body := .action (.condensation (.forgetRange (-1) 3)) }

/-- With the output masked the range starts at the placeholder, and the task is forgotten
although the condenser keeps the first event. -/
theorem masked_output_forgets_task :
    pipelineCondense (fun _ => .ok "") (fun _ => .error "") ⟨none, []⟩
      [.masking (.observationMasking ⟨3⟩), .rolling (.amortizedForgetting keepTask)]
      (View.fromEvents taskAndCommands) = .ok (.condensation (.forgetRange (-1) 3)) ∧
    (∃ e ∈ taskAndCommands.head?, e ∈ (View.fromEvents taskAndCommands).events ∧
      e ∉ (View.fromEvents (taskAndCommands ++ [forgetFromPlaceholder])).events) ∧
    ¬ KeepsHeadAndTail keepTask.sizes taskAndCommands forgetFromPlaceholder := by
  refine ⟨by decide, ⟨_, rfl, by decide, by decide⟩, ?_⟩
  intro hkeeps
  have hmem := hkeeps 0 _ rfl (by decide)
  revert hmem
  decide

/-- Behind a stage that masks nothing the same condenser keeps the task. -/
theorem keepsHeadAndTail_taskAndCommands :
    KeepsHeadAndTail keepTask.sizes taskAndCommands
      { id := 5, body := .action (.condensation (.forgetRange 1 3)) } := by
  refine (keepsHeadAndTail_iff (fun _ => .ok "") (fun _ => .error "") ⟨none, []⟩
    [.browserOutput ⟨1⟩] keepTask taskAndCommands (by decide) (by decide) (.forgetRange 1 3)
    (by decide) _ rfl (by decide)).mpr ?_
  rintro ⟨-, ⟨i, e, he, -, hid⟩, -, -⟩
  have hnoPlaceholder : ∀ e ∈ (maskedView [.browserOutput ⟨1⟩]
      (View.fromEvents taskAndCommands)).events, e.id ≠ invalidId := by decide
  exact hnoPlaceholder e (List.mem_of_getElem? he) hid

end OpenHands
