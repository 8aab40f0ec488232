/-
# Where a loop starts

`StuckDetector.is_stuck` looks for loops in a filtered part of the history and says where the
loop starts, as an index into the filtered events moved by the events it did not look at.
`_truncate_memory_to_point` cuts the whole history there.  The events that the filter removes
are not counted, and the start is the first event that equals one of the repetition.
-/
import Mathlib
import OpenHands.Event
import OpenHands.Lib.PyStr

namespace OpenHands.StuckDetector

open PyStr

abbrev Text := List Char

/-! ## Events -/

/-- The class of an event and its fields: those the detector reads, and the others. -/
inductive Content (φ : Type)
  | messageAction (fields : φ)
  | ipythonRunCellAction (code : Text) (fields : φ)
  | nullAction (fields : φ)
  | otherAction (className : String) (fields : φ)
  | cmdOutputObservation (command : Text) (exitCode : ℤ) (fields : φ)
  | ipythonRunCellObservation (content : Text) (fields : φ)
  | errorObservation (fields : φ)
  | agentCondensationObservation (fields : φ)
  | nullObservation (fields : φ)
  | otherObservation (className : String) (fields : φ)
  deriving DecidableEq

structure Event (φ : Type) where
  content : Content φ
  source : Option EventSource
  deriving DecidableEq

namespace Event

variable {φ : Type}

def isAction (event : Event φ) : Bool :=
  match event.content with
  | .messageAction _ | .ipythonRunCellAction _ _ | .nullAction _ | .otherAction _ _ => true
  | _ => false

def isObservation (event : Event φ) : Bool := !event.isAction

def isMessageAction (event : Event φ) : Bool :=
  match event.content with
  | .messageAction _ => true
  | _ => false

def isUserMessage (event : Event φ) : Bool :=
  event.isMessageAction && event.source = some .user

def isAgentMessage (event : Event φ) : Bool :=
  event.isMessageAction && event.source = some .agent

/-- `isinstance(event, (NullAction, NullObservation))`. -/
def isNull (event : Event φ) : Bool :=
  match event.content with
  | .nullAction _ | .nullObservation _ => true
  | _ => false

def isError (event : Event φ) : Bool :=
  match event.content with
  | .errorObservation _ => true
  | _ => false

def isCondensation (event : Event φ) : Bool :=
  match event.content with
  | .agentCondensationObservation _ => true
  | _ => false

/-- The content of an `IPythonRunCellObservation`. -/
def ipythonContent? (event : Event φ) : Option Text :=
  match event.content with
  | .ipythonRunCellObservation content _ => some content
  | _ => none

variable [DecidableEq φ]

/-- `event == other`: the source is no field of the dataclass. -/
def eq (event other : Event φ) : Bool := event.content = other.content

/-- `_eq_no_pid`. -/
def eqNoPid (event other : Event φ) : Bool :=
  match event.content, other.content with
  | .ipythonRunCellAction code _, .ipythonRunCellAction code' _ =>
    if "edit_file_by_replace(".toList <:+: code ∧ "edit_file_by_replace(".toList <:+: code' then
      2 < (code.splitOn '\n').length
        ∧ (code.splitOn '\n').take 3 = (code'.splitOn '\n').take 3
    else event.eq other
  | .cmdOutputObservation command exitCode _, .cmdOutputObservation command' exitCode' _ =>
    command = command' ∧ exitCode = exitCode'
  | _, _ => event.eq other

end Event

section

variable {φ : Type} (history : List (Event φ)) (headlessMode : Bool)

/-! ## The part that is looked at -/

/-- `filtered_history_offset`. -/
def filteredHistoryOffset : ℕ :=
  if headlessMode then 0
  else
    match history.reverse.findIdx? Event.isUserMessage with
    | some i => history.length - i - 1 + 1
    -- `last_user_msg_idx` is `-1`.
    | none => 0

/-- The events that the filter keeps. -/
def keeps (event : Event φ) : Bool := !(event.isUserMessage || event.isNull)

def historyToCheck : List (Event φ) := history.drop (filteredHistoryOffset history headlessMode)

def filteredHistory : List (Event φ) := (historyToCheck history headlessMode).filter keeps

end

section

variable {φ : Type} (filtered : List (Event φ))

/-- The last `n` events of a kind, the last one first. -/
def lastEvents (kind : Event φ → Bool) (n : ℕ) : List (Event φ) :=
  (filtered.reverse.filter kind).take n

/-! ## The repetitions -/

/-- All events equal the first one. -/
def allEqNoPid [DecidableEq φ] : List (Event φ) → Bool
  | [] => true
  | event :: events => (event :: events).all event.eqNoPid

/-- The condition of `_is_stuck_repeating_action_observation`. -/
def repeatsActionObservation [DecidableEq φ] : Bool :=
  let lastActions := lastEvents filtered Event.isAction 4
  let lastObservations := lastEvents filtered Event.isObservation 4
  lastActions.length = 4 && lastObservations.length = 4 &&
    allEqNoPid lastActions && allEqNoPid lastObservations

def syntaxErrorMessages : List Text :=
  ["SyntaxError: unterminated string literal (detected at line".toList,
    "SyntaxError: invalid syntax. Perhaps you forgot a comma?".toList,
    "SyntaxError: incomplete input".toList]

/-- `len(set(lines)) == 1`. -/
def allSame (lines : List Text) : Bool := lines.dedup.length = 1

/-- The lines of an observation, the last one first. -/
def linesBackwards (content : Text) : List Text := ((strip content).splitOn '\n').reverse

/-- The third line from the end, if the last two are those of the interpreter. -/
def errorLine? (content : Text) : Option Text :=
  match linesBackwards content with
  | interpreter :: directory :: line :: _ =>
    if "[Jupyter current working directory:".toList <+: directory
        ∧ "[Jupyter Python interpreter:".toList <+: interpreter then some line
    else none
  | _ => none

/-- `_check_for_consistent_invalid_syntax`. -/
def consistentInvalidSyntax (contents : List Text) (errorMessage : Text) : Bool :=
  let firstLines := contents.map fun content => strip (((strip content).splitOn '\n').headD [])
  let validLines := (contents.filterMap errorLine?).filter (errorMessage <:+: ·)
  contents.all (fun content => 6 ≤ (linesBackwards content).length) &&
    firstLines.all ("Cell In[1], line".toList <+: ·) &&
    allSame firstLines && validLines.length = 3 && allSame validLines

/-- `_check_for_consistent_line_error`. -/
def consistentLineError (contents : List Text) (errorMessage : Text) : Bool :=
  let errorLines := (contents.filterMap errorLine?).filter (errorMessage <:+: ·)
  contents.all (fun content => (errorLine? content).isSome) &&
    errorLines.length = 3 && allSame errorLines

/-- One of the syntax errors comes again and again. -/
def repeatsSyntaxError (contents : List Text) : Bool :=
  syntaxErrorMessages.any fun errorMessage =>
    if "SyntaxError: unterminated string literal (detected at line".toList <+: errorMessage then
      consistentLineError contents errorMessage
    else consistentInvalidSyntax contents errorMessage

/-- The condition of `_is_stuck_repeating_action_error`. -/
def repeatsActionError [DecidableEq φ] : Bool :=
  let lastActions := lastEvents filtered Event.isAction 4
  let lastObservations := lastEvents filtered Event.isObservation 4
  if lastActions.length < 3 ∨ lastObservations.length < 3 then false
  else
    allEqNoPid (lastActions.take 3) &&
      if (lastObservations.take 3).all Event.isError then true
      else
        let contents := (lastObservations.take 3).filterMap Event.ipythonContent?
        (lastObservations.take 3).all (·.ipythonContent?.isSome) && repeatsSyntaxError contents

/-- The events of a kind with their indices. -/
def indexed (kind : Event φ → Bool) : List (Event φ × ℕ) :=
  filtered.zipIdx.filter fun item => kind item.1

/-- The condition of `_is_stuck_monologue`. -/
def repeatsMessage [DecidableEq φ] : Bool :=
  let agentMessageActions := indexed filtered Event.isAgentMessage
  if 3 ≤ agentMessageActions.length then
    match agentMessageActions.rtake 3 with
    | [first, second, third] =>
      first.1.eq second.1 && first.1.eq third.1 &&
        !((filtered.take third.2).drop (first.2 + 1)).any Event.isObservation
    | _ => false
  else false

/-- Every other event is the same, three times. -/
def alternate [DecidableEq φ] : List (Event φ) → Bool
  | [e₀, e₁, e₂, e₃, e₄, e₅] =>
    e₀.eqNoPid e₂ && e₀.eqNoPid e₄ && e₁.eqNoPid e₃ && e₁.eqNoPid e₅
  | _ => false

/-- The condition of `_is_stuck_action_observation_pattern`. -/
def repeatsPattern [DecidableEq φ] : Bool :=
  6 ≤ filtered.length && alternate (lastEvents filtered Event.isAction 6) &&
    alternate (lastEvents filtered Event.isObservation 6)

/-- Two condensations in a row among the last ten: `_is_stuck_context_window_error`. -/
def repeatedCondensation : Option ((Event φ × ℕ) × (Event φ × ℕ)) :=
  let condensationEvents := indexed filtered Event.isCondensation
  if condensationEvents.length < 10 then none
  else
    let lastCondensationEvents := condensationEvents.rtake 10
    (lastCondensationEvents.zip lastCondensationEvents.tail).find? fun pair =>
      ((filtered.take pair.2.2).drop (pair.1.2 + 1)).all Event.isCondensation

end

/-! ## `is_stuck` -/

inductive LoopType
  | repeatingActionObservation
  | repeatingActionError
  | monologue
  | repeatingActionObservationPattern
  | contextWindowError
  deriving DecidableEq

structure StuckAnalysis where
  loopType : LoopType
  loopRepeatTimes : ℕ
  loopStartIdx : ℕ
  deriving DecidableEq

section

variable {φ : Type} [DecidableEq φ] (filtered : List (Event φ)) (offset : ℕ)

/-- `filtered_history.index(event)`. -/
def index (event : Event φ) : ℕ := filtered.findIdx event.eq

/-- `filtered_history.index(last_actions[-1])`, of the last `n` actions. -/
def indexOfLastAction (n : ℕ) : ℕ :=
  match (lastEvents filtered Event.isAction n).getLast? with
  | some action => index filtered action
  | none => 0

def isStuckRepeatingActionObservation : Option StuckAnalysis :=
  if repeatsActionObservation filtered then
    some ⟨.repeatingActionObservation, 4, indexOfLastAction filtered 4 + offset⟩
  else none

def isStuckRepeatingActionError : Option StuckAnalysis :=
  if repeatsActionError filtered then
    some ⟨.repeatingActionError, 3, indexOfLastAction filtered 4 + offset⟩
  else none

def isStuckMonologue : Option StuckAnalysis :=
  if repeatsMessage filtered then
    (((indexed filtered Event.isAgentMessage).rtake 3).head?).map fun first =>
      ⟨.monologue, 3, first.2 + offset⟩
  else none

def isStuckActionObservationPattern : Option StuckAnalysis :=
  if repeatsPattern filtered then
    some ⟨.repeatingActionObservationPattern, 3, indexOfLastAction filtered 6 + offset⟩
  else none

def isStuckContextWindowError : Option StuckAnalysis :=
  (repeatedCondensation filtered).map fun pair => ⟨.contextWindowError, 2, pair.1.2 + offset⟩

/-- `is_stuck`: the `stuck_analysis`, if it returns `True`. -/
def isStuck (history : List (Event φ)) (headlessMode : Bool) : Option StuckAnalysis :=
  let offset := filteredHistoryOffset history headlessMode
  let filtered := filteredHistory history headlessMode
  if filtered.length < 3 then none
  else
    isStuckRepeatingActionObservation filtered offset
      <|> isStuckRepeatingActionError filtered offset
      <|> isStuckMonologue filtered offset
      <|> isStuckActionObservationPattern filtered offset
      <|> isStuckContextWindowError filtered offset

/-- `_truncate_memory_to_point`: the history. -/
def truncateMemoryToPoint (history : List (Event φ)) (recoveryPoint : ℕ) : List (Event φ) :=
  if history.length ≤ recoveryPoint then history else history.take recoveryPoint

end

/-! ## The oldest event of a repetition -/

section

variable {φ : Type} (filtered : List (Event φ))

/-- The indices of the last `n` events of a kind. -/
def lastIndices (kind : Event φ → Bool) (n : ℕ) : List ℕ :=
  ((indexed filtered kind).rtake n).map Prod.snd

/-- The events that are compared. -/
def repetition : LoopType → List ℕ
  | .repeatingActionObservation =>
    lastIndices filtered Event.isAction 4 ++ lastIndices filtered Event.isObservation 4
  | .repeatingActionError =>
    lastIndices filtered Event.isAction 3 ++ lastIndices filtered Event.isObservation 3
  | .monologue => lastIndices filtered Event.isAgentMessage 3
  | .repeatingActionObservationPattern =>
    lastIndices filtered Event.isAction 6 ++ lastIndices filtered Event.isObservation 6
  | .contextWindowError =>
    match repeatedCondensation filtered with
    | some (first, second) => [first.2, second.2]
    | none => []

end

section

variable {φ : Type} (history : List (Event φ)) (headlessMode : Bool)

/-- The index in the history of an event that the filter keeps. -/
def historyIndex (k : ℕ) : Option ℕ :=
  ((((historyToCheck history headlessMode).zipIdx
    (filteredHistoryOffset history headlessMode)).filter fun item => keeps item.1)[k]?).map Prod.snd

/-- The indices in the history of the events of a repetition. -/
def repetitionInHistory (loopType : LoopType) : List ℕ :=
  (repetition (filteredHistory history headlessMode) loopType).filterMap
    (historyIndex history headlessMode)

/-- The start of the loop is the index in the history of the oldest event of the repetition, and
the truncation keeps what stands before this event. -/
def StartsAtOldest [DecidableEq φ] : Prop :=
  ∀ analysis ∈ isStuck history headlessMode,
    ∃ oldest ∈ (repetitionInHistory history headlessMode analysis.loopType).min?,
      analysis.loopStartIdx = oldest ∧
        truncateMemoryToPoint history analysis.loopStartIdx = history.take oldest

/-! ## Where it does -/

/-- How many events the filter removes before the `k`-th one that it keeps. -/
def removedBefore : List (Event φ) → ℕ → ℕ
  | [], _ => 0
  | event :: events, k =>
    if keeps event then
      match k with
      | 0 => 0
      | k + 1 => removedBefore events k
    else removedBefore events k + 1

/-- The first loop that is found. -/
def firstLoop [DecidableEq φ] (filtered : List (Event φ)) : Option LoopType :=
  if filtered.length < 3 then none
  else if repeatsActionObservation filtered then some .repeatingActionObservation
  else if repeatsActionError filtered then some .repeatingActionError
  else if repeatsMessage filtered then some .monologue
  else if repeatsPattern filtered then some .repeatingActionObservationPattern
  else if (repeatedCondensation filtered).isSome then some .contextWindowError
  else none

/-- How many of the last actions are looked at for the action that is looked up. -/
def LoopType.lookUp? : LoopType → Option ℕ
  | .repeatingActionObservation | .repeatingActionError => some 4
  | .repeatingActionObservationPattern => some 6
  | .monologue | .contextWindowError => none

/-- The filter removes nothing before the oldest event of the repetition, which is the action
that is looked up, and no event before it equals it.  Or the oldest event is an observation, and
the action is found as many events behind it as the filter removes before it. -/
def Aligned [DecidableEq φ] (loopType : LoopType) : Prop :=
  let filtered := filteredHistory history headlessMode
  ∃ oldest ∈ (repetition filtered loopType).min?,
    let removed := removedBefore (historyToCheck history headlessMode) oldest
    match loopType.lookUp? with
    | none => removed = 0
    | some n =>
      ∃ first ∈ (lastIndices filtered Event.isAction n).head?, ∃ action ∈ filtered[first]?,
        (removed = 0 ∧ first = oldest ∧ ∀ event ∈ filtered.take oldest, action.eq event = false) ∨
          (oldest < first ∧ index filtered action = oldest + removed)

end

/-! ## Indices -/

section

variable {φ : Type} {filtered : List (Event φ)} {kind : Event φ → Bool} {n k : ℕ}

theorem indexed_sublist (filtered : List (Event φ)) (kind : Event φ → Bool) :
    ((indexed filtered kind).map Prod.snd).Sublist (List.range filtered.length) := by
  rw [List.range_eq_range', ← List.zipIdx_map_snd 0 filtered]
  exact List.filter_sublist.map _

theorem lastIndices_sublist (filtered : List (Event φ)) (kind : Event φ → Bool) (n : ℕ) :
    (lastIndices filtered kind n).Sublist (List.range filtered.length) :=
  ((List.drop_sublist _ _).map _).trans (indexed_sublist filtered kind)

theorem length_lastIndices (filtered : List (Event φ)) (kind : Event φ → Bool) (n : ℕ) :
    (lastIndices filtered kind n).length = min n (indexed filtered kind).length := by
  rw [lastIndices, List.length_map, List.rtake, List.length_drop]
  omega

/-- Two condensations in a row stand in their order. -/
theorem lt_of_repeatedCondensation {pair : (Event φ × ℕ) × (Event φ × ℕ)}
    (h : repeatedCondensation filtered = some pair) :
    pair.1.2 < pair.2.2 ∧ pair.2.2 < filtered.length := by
  unfold repeatedCondensation at h
  simp only at h
  split_ifs at h
  have hmem := List.mem_of_find?_eq_some h
  generalize hlast : (indexed filtered Event.isCondensation).rtake 10 = last at hmem
  have hsub : (last.map Prod.snd).Sublist (List.range filtered.length) := by
    rw [← hlast]
    exact lastIndices_sublist filtered Event.isCondensation 10
  have hsorted : (last.map Prod.snd).Pairwise (· < ·) := List.pairwise_lt_range.sublist hsub
  obtain ⟨i, hi, hpair⟩ := List.mem_iff_getElem.mp hmem
  rw [List.length_zip, List.length_tail] at hi
  rw [List.getElem_zip, List.getElem_tail] at hpair
  constructor
  · have hlt := List.pairwise_iff_getElem.mp hsorted i (i + 1) (by rw [List.length_map]; omega)
      (by rw [List.length_map]; omega) (by omega)
    rw [List.getElem_map, List.getElem_map] at hlt
    rw [← hpair]
    exact hlt
  · have hlast : pair.2 ∈ last := by
      rw [← hpair]
      exact List.getElem_mem _
    exact List.mem_range.mp (hsub.subset (List.mem_map_of_mem hlast))

/-- The last events of a kind are those at their indices. -/
theorem lastEvents_eq (filtered : List (Event φ)) (kind : Event φ → Bool) (n : ℕ) :
    lastEvents filtered kind n
      = (((indexed filtered kind).rtake n).map Prod.fst).reverse := by
  have hfst : (indexed filtered kind).map Prod.fst = filtered.filter kind := by
    conv_rhs => rw [← List.zipIdx_map_fst 0 filtered, List.filter_map]
    rfl
  unfold lastEvents
  rw [List.filter_reverse, ← hfst, List.rtake_eq_reverse_take_reverse, List.map_reverse,
    List.reverse_reverse, List.map_take, List.map_reverse]

theorem length_lastEvents (filtered : List (Event φ)) (kind : Event φ → Bool) (n : ℕ) :
    (lastEvents filtered kind n).length = (lastIndices filtered kind n).length := by
  rw [lastEvents_eq, lastIndices, List.length_reverse, List.length_map, List.length_map]

/-- The event that is looked up stands at the first of the last indices. -/
theorem getElem?_of_getLast?_lastEvents {event : Event φ}
    (h : (lastEvents filtered kind n).getLast? = some event) :
    ∃ first ∈ (lastIndices filtered kind n).head?, filtered[first]? = some event := by
  rw [lastEvents_eq, List.getLast?_reverse, List.head?_map, Option.map_eq_some_iff] at h
  obtain ⟨item, hitem, rfl⟩ := h
  refine ⟨item.2, ?_, ?_⟩
  · rw [lastIndices, List.head?_map, hitem]
    rfl
  · have hmem : item ∈ filtered.zipIdx :=
      List.mem_of_mem_filter (List.mem_of_mem_drop (List.mem_of_head? hitem))
    exact List.mem_zipIdx_iff_getElem?.mp hmem

theorem lt_length_of_mem_repetition {loopType : LoopType} {i : ℕ}
    (hi : i ∈ repetition filtered loopType) :
    i < filtered.length := by
  have hlast : ∀ {kind : Event φ → Bool} {n : ℕ}, i ∈ lastIndices filtered kind n →
      i < filtered.length :=
    fun hmem => List.mem_range.mp ((lastIndices_sublist filtered _ _).subset hmem)
  have hboth : ∀ {n : ℕ}, i ∈ lastIndices filtered Event.isAction n
      ++ lastIndices filtered Event.isObservation n → i < filtered.length :=
    fun hmem => (List.mem_append.mp hmem).elim hlast hlast
  cases loopType with
  | repeatingActionObservation => exact hboth hi
  | repeatingActionError => exact hboth hi
  | monologue => exact hlast hi
  | repeatingActionObservationPattern => exact hboth hi
  | contextWindowError =>
    rw [repetition] at hi
    split at hi
    · rename_i hpair
      obtain ⟨hlt, hlength⟩ := lt_of_repeatedCondensation hpair
      rcases List.mem_cons.mp hi with rfl | hi
      · exact hlt.trans hlength
      · rw [List.mem_singleton.mp hi]
        exact hlength
    · exact absurd hi List.not_mem_nil

/-- The first of an increasing list is the least. -/
theorem min?_lastIndices (filtered : List (Event φ)) (kind : Event φ → Bool) (n : ℕ) :
    (lastIndices filtered kind n).min? = (lastIndices filtered kind n).head? := by
  have hsorted := List.pairwise_lt_range.sublist (lastIndices_sublist filtered kind n)
  cases hlist : lastIndices filtered kind n with
  | nil => rfl
  | cons first rest =>
    rw [hlist, List.pairwise_cons] at hsorted
    rw [List.head?_cons, List.min?_eq_some_iff]
    refine ⟨List.mem_cons_self, ?_⟩
    intro b hb
    rcases List.mem_cons.mp hb with rfl | hb
    · exact le_refl _
    · exact (hsorted.1 b hb).le

/-! ## The history -/

theorem removedBefore_mono (events : List (Event φ)) : Monotone (removedBefore events) := by
  refine monotone_nat_of_le_succ ?_
  induction events with
  | nil => exact fun k => le_refl _
  | cons event events ih =>
    intro k
    unfold removedBefore
    split_ifs
    · cases k with
      | zero => exact Nat.zero_le _
      | succ k => exact ih k
    · exact Nat.succ_le_succ (ih k)

/-- The filter moves an index by the events that it removes. -/
theorem getElem?_kept (events : List (Event φ)) (start k : ℕ)
    (hk : k < (events.filter keeps).length) :
    (((events.zipIdx start).filter fun item => keeps item.1)[k]?).map Prod.snd
      = some (start + k + removedBefore events k) := by
  induction events generalizing start k with
  | nil => exact absurd hk (Nat.not_lt_zero k)
  | cons event events ih =>
    rw [List.zipIdx_cons]
    by_cases hkeep : keeps event = true
    · rw [List.filter_cons_of_pos hkeep] at hk
      rw [List.filter_cons_of_pos (by exact hkeep)]
      cases k with
      | zero => rw [removedBefore, if_pos hkeep]; rfl
      | succ k =>
        rw [List.length_cons] at hk
        rw [List.getElem?_cons_succ, ih (start + 1) k (by omega), removedBefore, if_pos hkeep]
        congr 1
        omega
    · rw [List.filter_cons_of_neg hkeep] at hk
      rw [List.filter_cons_of_neg (by exact hkeep)]
      rw [ih (start + 1) k hk]
      conv_rhs => unfold removedBefore
      rw [if_neg hkeep]
      congr 1
      omega

/-- Indices in the history are in the order of those among the events that are kept. -/
theorem min?_filterMap {f : ℕ → Option ℕ} {g : ℕ → ℕ} (hg : Monotone g) {indices : List ℕ}
    (hf : ∀ i ∈ indices, f i = some (g i)) {oldest : ℕ} (h : indices.min? = some oldest) :
    (indices.filterMap f).min? = some (g oldest) := by
  rw [List.min?_eq_some_iff] at h ⊢
  constructor
  · exact List.mem_filterMap.mpr ⟨oldest, h.1, hf oldest h.1⟩
  · intro b hb
    obtain ⟨i, hi, hb⟩ := List.mem_filterMap.mp hb
    rw [hf i hi] at hb
    cases hb
    exact hg (h.2 i hi)

/-- The history index of the oldest event of a repetition. -/
theorem min?_repetitionInHistory (history : List (Event φ)) (headlessMode : Bool)
    {loopType : LoopType} {oldest : ℕ}
    (holdest : (repetition (filteredHistory history headlessMode) loopType).min? = some oldest) :
    (repetitionInHistory history headlessMode loopType).min? =
      some (filteredHistoryOffset history headlessMode + oldest
        + removedBefore (historyToCheck history headlessMode) oldest) := by
  have hmono : Monotone fun k => filteredHistoryOffset history headlessMode + k
      + removedBefore (historyToCheck history headlessMode) k := by
    intro i j hij
    have hremoved := removedBefore_mono (historyToCheck history headlessMode) hij
    simp only
    omega
  refine min?_filterMap hmono (fun i hi => ?_) holdest
  exact getElem?_kept _ _ _ (lt_length_of_mem_repetition hi)

end

/-! ## What is found -/

section

variable {φ : Type} [DecidableEq φ] {filtered : List (Event φ)}

def LoopType.repeatTimes : LoopType → ℕ
  | .repeatingActionObservation => 4
  | .repeatingActionError => 3
  | .monologue => 3
  | .repeatingActionObservationPattern => 3
  | .contextWindowError => 2

/-- The start of a loop among the events that are kept. -/
def startIdx (filtered : List (Event φ)) : LoopType → Option ℕ
  | .repeatingActionObservation | .repeatingActionError => some (indexOfLastAction filtered 4)
  | .monologue => (lastIndices filtered Event.isAgentMessage 3).head?
  | .repeatingActionObservationPattern => some (indexOfLastAction filtered 6)
  | .contextWindowError => (repeatedCondensation filtered).map (·.1.2)

theorem exists_of_repeatsMessage (h : repeatsMessage filtered = true) :
    ∃ first second third,
      (indexed filtered Event.isAgentMessage).rtake 3 = [first, second, third] := by
  unfold repeatsMessage at h
  simp only at h
  split_ifs at h
  split at h
  · exact ⟨_, _, _, ‹_›⟩
  · cases h

theorem isStuck_eq (history : List (Event φ)) (headlessMode : Bool) :
    isStuck history headlessMode =
      (firstLoop (filteredHistory history headlessMode)).bind fun loopType =>
        (startIdx (filteredHistory history headlessMode) loopType).map fun start =>
          ⟨loopType, loopType.repeatTimes, start + filteredHistoryOffset history headlessMode⟩ := by
  unfold isStuck firstLoop
  generalize filteredHistoryOffset history headlessMode = offset
  generalize filteredHistory history headlessMode = filtered
  simp only
  have hnone : ∀ next : Option StuckAnalysis, (none <|> next) = next := fun _ => rfl
  by_cases hlength : filtered.length < 3
  · rw [if_pos hlength, if_pos hlength]
    rfl
  rw [if_neg hlength, if_neg hlength]
  by_cases hobservation : repeatsActionObservation filtered = true
  · rw [isStuckRepeatingActionObservation, if_pos hobservation, if_pos hobservation]
    rfl
  rw [isStuckRepeatingActionObservation, if_neg hobservation, if_neg hobservation, hnone]
  by_cases herror : repeatsActionError filtered = true
  · rw [isStuckRepeatingActionError, if_pos herror, if_pos herror]
    rfl
  rw [isStuckRepeatingActionError, if_neg herror, if_neg herror, hnone]
  by_cases hmessage : repeatsMessage filtered = true
  · obtain ⟨first, second, third, hlast⟩ := exists_of_repeatsMessage hmessage
    rw [isStuckMonologue, if_pos hmessage, if_pos hmessage, Option.bind_some, startIdx, lastIndices,
      hlast]
    rfl
  rw [isStuckMonologue, if_neg hmessage, if_neg hmessage, hnone]
  by_cases hpattern : repeatsPattern filtered = true
  · rw [isStuckActionObservationPattern, if_pos hpattern, if_pos hpattern]
    rfl
  rw [isStuckActionObservationPattern, if_neg hpattern, if_neg hpattern, hnone,
    isStuckContextWindowError]
  cases hcondensation : repeatedCondensation filtered with
  | none => rfl
  | some pair =>
    rw [if_pos (by rfl), Option.bind_some, startIdx, hcondensation]
    rfl

/-- The condition that a loop meets. -/
def Found (filtered : List (Event φ)) : LoopType → Prop
  | .repeatingActionObservation => repeatsActionObservation filtered = true
  | .repeatingActionError => repeatsActionError filtered = true
  | .monologue => repeatsMessage filtered = true
  | .repeatingActionObservationPattern => repeatsPattern filtered = true
  | .contextWindowError => ∃ pair, repeatedCondensation filtered = some pair

variable {loopType : LoopType}

theorem found_of_firstLoop (h : firstLoop filtered = some loopType) : Found filtered loopType := by
  unfold firstLoop at h
  split_ifs at h with _ hobservation herror hmessage hpattern hcondensation
  · cases h
    exact hobservation
  · cases h
    exact herror
  · cases h
    exact hmessage
  · cases h
    exact hpattern
  · cases h
    exact Option.isSome_iff_exists.mp hcondensation

/-- The actions that are looked at when a loop is found. -/
theorem lookUp_le_length {n : ℕ} (h : Found filtered loopType) (hn : loopType.lookUp? = some n) :
    3 ≤ (lastEvents filtered Event.isAction n).length := by
  cases loopType with
  | repeatingActionObservation =>
    cases hn
    unfold Found repeatsActionObservation at h
    simp only [Bool.and_eq_true, decide_eq_true_eq] at h
    omega
  | repeatingActionError =>
    cases hn
    unfold Found repeatsActionError at h
    simp only at h
    split_ifs at h
    · omega
    · omega
  | monologue => cases hn
  | repeatingActionObservationPattern =>
    cases hn
    unfold Found repeatsPattern at h
    simp only [Bool.and_eq_true, decide_eq_true_eq] at h
    obtain ⟨⟨-, halternate⟩, -⟩ := h
    unfold alternate at halternate
    split at halternate
    · simp [*]
    · cases halternate
  | contextWindowError => cases hn

theorem repetition_ne_nil (h : Found filtered loopType) : repetition filtered loopType ≠ [] := by
  have hactions : ∀ {n m : ℕ}, loopType.lookUp? = some n → 0 < m → ∀ others : List ℕ,
      lastIndices filtered Event.isAction m ++ others ≠ [] := by
    intro n m hn hm others
    have hlength := lookUp_le_length h hn
    rw [length_lastEvents, length_lastIndices] at hlength
    refine List.append_ne_nil_of_left_ne_nil (List.ne_nil_of_length_pos ?_) _
    rw [length_lastIndices]
    omega
  cases loopType with
  | repeatingActionObservation => exact hactions rfl (by decide) _
  | repeatingActionError => exact hactions rfl (by decide) _
  | monologue =>
    obtain ⟨first, second, third, hlast⟩ := exists_of_repeatsMessage h
    rw [repetition, lastIndices, hlast]
    exact List.cons_ne_nil _ _
  | repeatingActionObservationPattern => exact hactions rfl (by decide) _
  | contextWindowError =>
    obtain ⟨⟨first, second⟩, hpair⟩ := h
    rw [repetition, hpair]
    exact List.cons_ne_nil _ _

/-- The first event that equals an action stands no later than the action. -/
theorem index_le {first : ℕ} {action : Event φ} (h : filtered[first]? = some action) :
    index filtered action ≤ first := by
  by_contra hlt
  obtain ⟨hfirst, hget⟩ := List.getElem?_eq_some_iff.mp h
  have hbefore : first < filtered.findIdx action.eq := Nat.lt_of_not_le hlt
  have hne := List.not_of_lt_findIdx hbefore
  rw [hget] at hne
  simp [Event.eq] at hne

/-- An action is found at its place exactly when no event before it equals it. -/
theorem index_eq_iff {first : ℕ} {action : Event φ} (h : filtered[first]? = some action) :
    index filtered action = first ↔ ∀ event ∈ filtered.take first, action.eq event = false := by
  obtain ⟨hfirst, hget⟩ := List.getElem?_eq_some_iff.mp h
  have hself : action.eq filtered[first] = true := by
    rw [hget]
    exact decide_eq_true rfl
  rw [index, List.findIdx_eq hfirst]
  constructor
  · rintro ⟨-, hbefore⟩ event hevent
    obtain ⟨i, hi, rfl⟩ := List.mem_iff_getElem.mp hevent
    rw [List.length_take] at hi
    rw [List.getElem_take]
    exact hbefore i (by omega)
  · intro hbefore
    refine ⟨hself, fun j hj => hbefore _ ?_⟩
    exact List.mem_take_iff_getElem.mpr ⟨j, by omega, rfl⟩

/-- The start that is computed, compared with the oldest event of the repetition. -/
theorem aligned_iff (history : List (Event φ)) (headlessMode : Bool)
    (h : Found (filteredHistory history headlessMode) loopType) {oldest start : ℕ}
    (holdest : (repetition (filteredHistory history headlessMode) loopType).min? = some oldest)
    (hstart : startIdx (filteredHistory history headlessMode) loopType = some start) :
    Aligned history headlessMode loopType ↔
      start = oldest + removedBefore (historyToCheck history headlessMode) oldest := by
  unfold Aligned
  generalize filteredHistory history headlessMode = filtered at h holdest hstart ⊢
  generalize historyToCheck history headlessMode = checked
  simp only [holdest, exists_eq_left', Option.mem_def, Option.some.injEq]
  -- Where no action is looked up, the start is the oldest event.
  have hdirect : start = oldest →
      (removedBefore checked oldest = 0 ↔ start = oldest + removedBefore checked oldest) := by
    rintro rfl
    omega
  have hlookUp : ∀ n, loopType.lookUp? = some n → start = indexOfLastAction filtered n →
      ((∃ first, (lastIndices filtered Event.isAction n).head? = some first ∧
        ∃ action, filtered[first]? = some action ∧
          ((removedBefore checked oldest = 0 ∧ first = oldest ∧
            ∀ event ∈ filtered.take oldest, action.eq event = false) ∨
          (oldest < first ∧ index filtered action = oldest + removedBefore checked oldest))) ↔
        start = oldest + removedBefore checked oldest) := by
    intro n hn hindex
    have hne : lastEvents filtered Event.isAction n ≠ [] := by
      have hlength := lookUp_le_length h hn
      exact List.ne_nil_of_length_pos (by omega)
    have haction := List.getLast?_eq_some_getLast hne
    generalize (lastEvents filtered Event.isAction n).getLast hne = action at haction
    obtain ⟨first, hfirst, hget⟩ := getElem?_of_getLast?_lastEvents haction
    have hstartIndex : start = index filtered action := by
      rw [hindex, indexOfLastAction, haction]
    have hle := index_le hget
    rw [hstartIndex, Option.mem_def.mp hfirst]
    simp only [Option.some.injEq, exists_eq_left', hget]
    constructor
    · rintro (⟨hremoved, rfl, hbefore⟩ | ⟨-, hmoved⟩)
      · rw [(index_eq_iff hget).mpr hbefore]
        omega
      · exact hmoved
    · intro hmoved
      rcases Nat.lt_trichotomy oldest first with hlt | rfl | hlt
      · exact .inr ⟨hlt, hmoved⟩
      · exact .inl ⟨by omega, rfl, (index_eq_iff hget).mp (by omega)⟩
      -- The action stands before the repetition, and what is found not behind the action.
      · omega
  cases loopType with
  | repeatingActionObservation => exact hlookUp 4 rfl (Option.some.inj hstart).symm
  | repeatingActionError => exact hlookUp 4 rfl (Option.some.inj hstart).symm
  | monologue =>
    refine hdirect (Option.some.inj ?_)
    rw [← holdest, ← hstart, repetition, startIdx, min?_lastIndices]
  | repeatingActionObservationPattern => exact hlookUp 6 rfl (Option.some.inj hstart).symm
  | contextWindowError =>
    refine hdirect (Option.some.inj ?_)
    obtain ⟨pair, hpair⟩ := h
    have hlt := (lt_of_repeatedCondensation hpair).1
    rw [← holdest, ← hstart, repetition, startIdx, hpair, Option.map_some, List.min?_cons,
      List.min?_cons]
    simp [hlt.le]

theorem startIdx_of_found (h : Found filtered loopType) :
    ∃ start, startIdx filtered loopType = some start := by
  cases loopType with
  | repeatingActionObservation => exact ⟨_, rfl⟩
  | repeatingActionError => exact ⟨_, rfl⟩
  | monologue =>
    obtain ⟨first, second, third, hlast⟩ := exists_of_repeatsMessage h
    rw [startIdx, lastIndices, hlast]
    exact ⟨_, rfl⟩
  | repeatingActionObservationPattern => exact ⟨_, rfl⟩
  | contextWindowError =>
    obtain ⟨pair, hpair⟩ := h
    rw [startIdx, hpair]
    exact ⟨_, rfl⟩

/-- The start of a loop is right exactly when nothing is removed before its oldest event, this
event is the action that is looked up and no event before equals it, or when the two differences
cancel out. -/
theorem startsAtOldest_iff (history : List (Event φ)) (headlessMode : Bool) :
    StartsAtOldest history headlessMode ↔
      ∀ loopType ∈ firstLoop (filteredHistory history headlessMode),
        Aligned history headlessMode loopType := by
  unfold StartsAtOldest
  rw [isStuck_eq]
  cases hloop : firstLoop (filteredHistory history headlessMode) with
  | none => exact ⟨fun _ _ h => (nomatch h), fun _ _ h => (nomatch h)⟩
  | some loopType =>
    have hfound := found_of_firstLoop hloop
    obtain ⟨start, hstart⟩ := startIdx_of_found hfound
    obtain ⟨oldest, holdest⟩ := Option.ne_none_iff_exists'.mp
      (fun h => repetition_ne_nil hfound (List.min?_eq_none_iff.mp h))
    have htruncate : ∀ k, truncateMemoryToPoint history k = history.take k := by
      intro k
      unfold truncateMemoryToPoint
      split_ifs with hk
      · exact (List.take_of_length_le hk).symm
      · rfl
    rw [Option.bind_some, hstart, Option.map_some]
    simp only [Option.mem_def, Option.some.injEq, forall_eq']
    rw [aligned_iff history headlessMode hfound holdest hstart,
      min?_repetitionInHistory history headlessMode holdest]
    simp only [Option.some.injEq, exists_eq_left', htruncate]
    constructor
    · rintro ⟨hmoved, -⟩
      omega
    · intro hmoved
      have hsame : start + filteredHistoryOffset history headlessMode
          = filteredHistoryOffset history headlessMode + oldest
            + removedBefore (historyToCheck history headlessMode) oldest := by
        omega
      exact ⟨hsame, by rw [hsame]⟩

/-- A message of the user, and four times the same action with the same observation. -/
def fourTimes : List (Event Unit) :=
  ⟨.messageAction (), some .user⟩ :: (List.replicate 4
    [⟨.otherAction "CmdRunAction" (), some .agent⟩,
      ⟨.cmdOutputObservation "ls".toList 0 (), some .environment⟩]).flatten

/-- The message of the user is not counted: the loop is said to start with it. -/
theorem not_startsAtOldest_fourTimes : ¬ StartsAtOldest fourTimes true := by
  intro h
  obtain ⟨oldest, holdest, hstart, -⟩ := h ⟨.repeatingActionObservation, 4, 0⟩ (by decide)
  have hone : (repetitionInHistory fourTimes true .repeatingActionObservation).min? = some 1 := by
    decide
  rw [Option.mem_def, hone] at holdest
  cases holdest
  cases hstart

end

end OpenHands.StuckDetector
