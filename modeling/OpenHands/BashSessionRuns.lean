/-
# What a run of the bash session shows

The terminal shows what is typed and what the command writes, and behind it the next prompt.  Each
call returns what has come since the last one, without a stretch that was typed.  This goes wrong
where new output begins with a command that was refused, where a call returns while the next prompt
is being written, and where the output itself looks like a prompt.
-/
import OpenHands.BashSession

namespace OpenHands.BashSession

open JsonText PS1Metadata PyStr TextPieces

/-! ## The screen -/

/-- A character behind the prompt; what is typed is echoed, the rest is written by the command. -/
structure Shown where
  char : Char
  echoed : Bool
  deriving DecidableEq

def text (shown : List Shown) : Text := shown.map Shown.char

@[simp] theorem text_append (a b : List Shown) : text (a ++ b) = text a ++ text b :=
  List.map_append

/-- What the terminal shows from the prompt before a command to the one behind it. -/
structure Screen where
  prompt : Text
  shown : List Shown
  nextPrompt : Text
  blank : Text
  blank_isSpace : ∀ c ∈ blank, PyStr.isSpace c = true

namespace Screen

variable (screen : Screen)

def whole : Text := screen.prompt ++ '\n' :: (text screen.shown ++ screen.nextPrompt ++ screen.blank)

/-- How much is shown behind the prompt in a pane. -/
def behind (pane : Text) : ℕ := pane.length - (screen.prompt.length + 1)

/-- What has come since the last return. -/
def since (session : Session) (pane : Text) : List Shown :=
  (screen.shown.take (screen.behind pane)).drop session.prevOutput.length

/-- The pane shows no part of the next prompt, and the prompt is the only one found in it. -/
structure Running (F : FloatFormat) (pane : Text) : Prop where
  found : ∃ prompt, matchesPs1Metadata F pane = [prompt] ∧ prompt.stop = screen.prompt.length
  length_le : pane.length ≤ screen.prompt.length + 1 + screen.shown.length

/-- The pane shows the next prompt, and both prompts are found in it, and no others. -/
structure Finished (F : FloatFormat) (pane : Text) : Prop where
  found : ∃ prompt next, matchesPs1Metadata F pane = [prompt, next] ∧
    prompt.stop = screen.prompt.length ∧
    next.start = screen.prompt.length + 1 + screen.shown.length ∧
    next.stop = next.start + screen.nextPrompt.length ∧ next.stop ≤ pane.length

end Screen

/-- Where the new text begins with the command, the command was typed there. -/
def Echoes (command : Text) (new : List Shown) : Prop :=
  ∀ before echo behind, new = before ++ echo ++ behind →
    (∀ x ∈ before, PyStr.isSpace x.char = true) → text echo = strip command →
      ∀ x ∈ echo, x.echoed = true

/-- The new text without the command is not too long, or the command is hidden. -/
def Fits (command : Text) (new : List Shown) (hidden : Bool) : Prop :=
  hidden = true ∨ (rstrip (removeCommandPrefix (text new) command)).length ≤ maxCmdOutputSize

/-- When a call is answered with what is new on the screen. -/
def Outcome.Clear (screen : Screen) (F : FloatFormat) (session : Session) (action : CmdRunAction) :
    Outcome → Prop
  | .refused _ => True
  | .rejected pane => screen.Running F pane ∧
      Echoes (strip action.command) (screen.since session pane) ∧
      Fits (strip action.command) (screen.since session pane) action.hidden
  | .waited .completed sent pane => screen.Finished F pane ∧
      Echoes sent (screen.since session pane) ∧ Fits sent (screen.since session pane) action.hidden
  | .waited _ sent pane => screen.Running F pane ∧
      Echoes sent (screen.since session pane) ∧ Fits sent (screen.since session pane) false

/-- The content is what was new on the screen up to surrounding whitespace, without a stretch that
was typed. -/
def Shows (new : List Shown) (content : Text) : Prop :=
  ∃ before echo behind, new = before ++ echo ++ behind ∧ (∀ x ∈ echo, x.echoed = true) ∧
    content = strip (text (before ++ behind))

/-! ## The content of an answer -/

theorem strip_append_blank {s w : Text} (hw : ∀ c ∈ w, PyStr.isSpace c = true) :
    strip (s ++ w) = strip s := sameText_append_blank hw

theorem strip_blank_append {s w : Text} (hw : ∀ c ∈ w, PyStr.isSpace c = true) :
    strip (w ++ s) = strip s := by
  unfold strip lstrip
  rw [List.dropWhile_append_of_pos hw]

/-- Either nothing is removed, or the command at the beginning. -/
theorem rstrip_removeCommandPrefix (u command : Text) :
    rstrip (removeCommandPrefix u command) = strip u ∨
      ∃ x y, u = x ++ lstrip command ++ y ∧ (∀ c ∈ x, PyStr.isSpace c = true) ∧
        rstrip (removeCommandPrefix u command) = strip y := by
  unfold removeCommandPrefix removePrefix
  split_ifs with hprefix
  · obtain ⟨y, hy⟩ := hprefix
    refine Or.inr ⟨u.takeWhile PyStr.isSpace, y, ?_, fun c hc => List.mem_takeWhile_imp hc, ?_⟩
    · rw [List.append_assoc, hy]
      exact (List.takeWhile_append_dropWhile ..).symm
    · rw [← hy, List.drop_left]
      rfl
  · left
    exact sameText_lstrip u

/-- Whitespace at the end does not make the content longer. -/
theorem length_content_le {u w command : Text} (hw : ∀ c ∈ w, PyStr.isSpace c = true) :
    (rstrip (removeCommandPrefix (u ++ w) command)).length
      ≤ (rstrip (removeCommandPrefix u command)).length := by
  obtain ⟨v, hv, hlstrip⟩ := lstrip_append_blank (s := u) hw
  unfold removeCommandPrefix removePrefix
  rw [hlstrip]
  by_cases hstarts : lstrip command <+: lstrip u
  · rw [if_pos (hstarts.trans (List.prefix_append _ v)), if_pos hstarts]
    obtain ⟨r, hr⟩ := hstarts
    rw [← hr, List.append_assoc, List.drop_left, List.drop_left]
    exact Nat.le_of_eq (congrArg List.length (strip_append_blank (s := r) hv))
  · rw [if_neg hstarts]
    split_ifs with hlong
    · -- The command reaches into the whitespace, and nothing else is left.
      have hlength : (lstrip u).length ≤ (lstrip command).length := by
        by_contra hlt
        exact hstarts (List.prefix_of_prefix_length_le hlong (List.prefix_append _ v) (by omega))
      have hrest : rstrip (lstrip ((lstrip u ++ v).drop (lstrip command).length)) = [] := by
        rw [List.drop_append, List.drop_eq_nil_of_le hlength, List.nil_append]
        have hblank := strip_append_blank (s := [])
          (w := v.drop ((lstrip command).length - (lstrip u).length))
          fun c hc => hv c (List.mem_of_mem_drop hc)
        exact hblank
      rw [hrest]
      exact Nat.zero_le _
    · have hsame : rstrip (lstrip (lstrip u ++ v)) = rstrip (lstrip (lstrip u)) :=
        strip_append_blank hv
      rw [hsame]

/-- A stripped text does not end with whitespace. -/
theorem isSpace_getLast?_strip {s : Text} : ∀ c ∈ (strip s).getLast?, PyStr.isSpace c = false := by
  intro c hc
  have hne : strip s ≠ [] := by
    intro hnil
    rw [hnil] at hc
    cases hc
  rw [List.getLast?_eq_some_getLast hne] at hc
  cases hc
  exact (Bool.not_eq_true _).mp (List.rdropWhile_last_not PyStr.isSpace (lstrip s) hne)

/-- What is left of the new text when the command was typed where it is removed. -/
theorem shows_content {new : List Shown} {w command : Text}
    (hw : ∀ c ∈ w, PyStr.isSpace c = true) (h : Echoes command new) :
    Shows new (rstrip (removeCommandPrefix (text new ++ w) command)) := by
  have hall : strip (text new ++ w) = strip (text (new ++ [])) := by
    rw [List.append_nil, strip_append_blank hw]
  rcases rstrip_removeCommandPrefix (text new ++ w) command with hnone | ⟨x, y, hu, hx, hrest⟩
  · exact ⟨new, [], [], by simp, fun x hx => absurd hx List.not_mem_nil, hnone.trans hall⟩
  · have hcommand : lstrip command = strip command ++ (lstrip command).rtakeWhile PyStr.isSpace :=
      (List.rdropWhile_append_rtakeWhile ..).symm
    have hv : ∀ c ∈ (lstrip command).rtakeWhile PyStr.isSpace, PyStr.isSpace c = true :=
      fun c hc => List.mem_rtakeWhile_imp hc
    generalize (lstrip command).rtakeWhile PyStr.isSpace = v at hcommand hv
    have hy : strip (v ++ y) = strip y := strip_blank_append hv
    rw [hcommand, ← List.append_assoc, List.append_assoc] at hu
    rw [hrest, ← hy]
    have hsplit : ∀ z, text new = x ++ strip command ++ z → strip (v ++ y) = strip z →
        Shows new (strip (v ++ y)) := by
      intro z hz hsame
      obtain ⟨front, behind, rfl, hfront, hbehind⟩ := List.map_eq_append_iff.mp hz
      obtain ⟨before, echo, rfl, hbefore, hecho⟩ := List.map_eq_append_iff.mp hfront
      have hspace : ∀ c ∈ before, PyStr.isSpace c.char = true := by
        intro c hc
        refine hx c.char ?_
        rw [← hbefore]
        exact List.mem_map_of_mem hc
      refine ⟨before, echo, behind, rfl, h before echo behind rfl hspace hecho, ?_⟩
      rw [text_append, text, text, hbefore, hbehind, strip_blank_append hx, hsame]
    rcases List.append_eq_append_iff.mp hu with ⟨z, hz, hw'⟩ | ⟨z, hz, hw'⟩
    · -- The command reaches into the whitespace at the end.
      rw [hw'] at hw
      have hz' : ∀ c ∈ z, PyStr.isSpace c = true := fun c hc => hw c (List.mem_append_left _ hc)
      have hnil : strip (v ++ y) = [] :=
        strip_append_blank (s := []) fun c hc => hw c (List.mem_append_right z hc)
      by_cases hempty : strip command = []
      · rw [hempty, List.append_nil] at hz
        have hnew : strip (text (new ++ [])) = [] := by
          rw [List.append_nil]
          refine strip_append_blank (s := []) fun c hc => hx c ?_
          rw [hz]
          exact List.mem_append_left z hc
        exact ⟨new, [], [], by simp, fun x hx => absurd hx List.not_mem_nil, hnil.trans hnew.symm⟩
      · have hz : z = [] := by
          by_contra hne
          have hlast := congrArg List.getLast? hz
          rw [List.getLast?_append_of_ne_nil _ hempty, List.getLast?_append_of_ne_nil _ hne] at hlast
          have hvisible := isSpace_getLast?_strip (s := command) (z.getLast hne)
            (by rw [hlast, List.getLast?_eq_some_getLast hne]; rfl)
          rw [hz' _ (List.getLast_mem hne)] at hvisible
          cases hvisible
        subst hz
        rw [List.append_nil] at hz
        exact hsplit [] (by rw [List.append_nil, hz]) hnil
    · refine hsplit z hz ?_
      rw [hw', strip_append_blank hw]

/-! ## The answers -/

section

variable {screen : Screen} {F : FloatFormat} {session : Session} {pane : Text} {seen : List Shown}

/-- What stands behind the prompt in a pane. -/
theorem drop_pane (hpane : pane <+: screen.whole) (n : ℕ) :
    pane.drop (screen.prompt.length + 1 + n)
      = ((text screen.shown ++ screen.nextPrompt ++ screen.blank).drop n).take
          (screen.behind pane - n) := by
  obtain ⟨rest, hrest⟩ := hpane
  have htake : pane = screen.whole.take pane.length := by
    rw [← hrest, List.take_left]
  have hdrop : screen.whole.drop (screen.prompt.length + 1 + n)
      = (text screen.shown ++ screen.nextPrompt ++ screen.blank).drop n := by
    have hprompt : screen.whole = (screen.prompt ++ ['\n']) ++
        (text screen.shown ++ screen.nextPrompt ++ screen.blank) := by
      rw [Screen.whole, List.append_assoc screen.prompt]
      rfl
    rw [hprompt, ← List.drop_drop, List.drop_left' (by rw [List.length_append]; rfl)]
  rw [htake, List.drop_take, hdrop, ← htake]
  congr 1
  unfold Screen.behind
  omega

/-- The raw output of a command that is running. -/
theorem combine_of_running (hpane : pane <+: screen.whole) (h : screen.Running F pane) :
    combineOutputsBetweenMatches pane (matchesPs1Metadata F pane) false
      = text (screen.shown.take (screen.behind pane)) := by
  obtain ⟨⟨prompt, hmatches, hstop⟩, hlength⟩ := h
  have hbehind : screen.behind pane ≤ (text screen.shown).length := by
    unfold Screen.behind text
    rw [List.length_map]
    omega
  have hdrop := drop_pane hpane 0
  rw [Nat.add_zero, List.drop_zero, Nat.sub_zero, List.append_assoc,
    List.take_append_of_le_length hbehind] at hdrop
  rw [hmatches, combineOutputsBetweenMatches, if_neg Bool.false_ne_true, hstop, hdrop, text, text,
    List.map_take]

/-- The raw output of a command that has completed. -/
theorem combine_of_finished (hpane : pane <+: screen.whole) (h : screen.Finished F pane) :
    screen.shown.take (screen.behind pane) = screen.shown ∧
      ∃ w, (∀ c ∈ w, PyStr.isSpace c = true) ∧
        ∃ prompt next, matchesPs1Metadata F pane = [prompt, next] ∧
          combineOutputsBetweenMatches pane [prompt, next] false = text screen.shown ++ w := by
  obtain ⟨prompt, next, hmatches, hstop, hstart, hend, hlength⟩ := h.found
  have hshown : (text screen.shown).length = screen.shown.length := List.length_map _
  have hbehind : screen.shown.length + screen.nextPrompt.length ≤ screen.behind pane := by
    unfold Screen.behind
    omega
  have hfirst : slice pane (prompt.stop + 1) next.start = text screen.shown := by
    have hdrop := drop_pane hpane 0
    rw [Nat.add_zero] at hdrop
    have hcount : next.start - (prompt.stop + 1) = (text screen.shown).length := by
      rw [hshown]
      omega
    rw [slice, hcount, hstop, hdrop, List.take_take, List.drop_zero, List.append_assoc,
      List.take_append_of_le_length (by omega), List.take_of_length_le (by omega)]
  have hlast : ∀ c ∈ pane.drop (next.stop + 1), PyStr.isSpace c = true := by
    intro c hc
    have hsum : next.stop + 1 = screen.prompt.length + 1
        + ((text screen.shown ++ screen.nextPrompt).length + 1) := by
      rw [List.length_append, hshown]
      omega
    rw [hsum, drop_pane hpane] at hc
    have hmem := List.mem_of_mem_take hc
    rw [← List.drop_drop, List.drop_left] at hmem
    exact screen.blank_isSpace c (List.mem_of_mem_drop hmem)
  refine ⟨List.take_of_length_le (by omega), '\n' :: pane.drop (next.stop + 1), ?_, prompt, next,
    hmatches, ?_⟩
  · intro c hc
    rcases List.mem_cons.mp hc with rfl | hc
    · decide
    · exact hlast c hc
  · rw [combineOutputsBetweenMatches, outputsBetween, outputsBetween, hfirst]
    all_goals simp

variable (session) in
/-- The output is made from what is new and from the whitespace behind it. -/
theorem getCommandOutput_eq (command w : Text) (new : List Shown) (metadata : CmdOutputMetadata)
    (continuePrefix : Text) (hraw : session.prevOutput = text seen) :
    ∃ metadata', getCommandOutput session command (text (seen ++ new) ++ w) metadata continuePrefix
      = ({ session with prevOutput := text (seen ++ new) ++ w },
        rstrip (removeCommandPrefix (text new ++ w) command), metadata') := by
  have hremoved : (if session.prevOutput ≠ [] then
      removePrefix session.prevOutput (text (seen ++ new) ++ w) else text (seen ++ new) ++ w)
        = text new ++ w := by
    rw [hraw, text_append, List.append_assoc]
    split_ifs with hempty
    · rw [removePrefix, if_pos (List.prefix_append _ _), List.drop_left]
    · rw [not_not.mp hempty, List.nil_append]
  unfold getCommandOutput
  simp only [hremoved]
  exact ⟨_, rfl⟩

/-- A content that fits is not truncated. -/
theorem make_content {content command : Text} {metadata : CmdOutputMetadata} {hidden : Bool}
    (h : hidden = true ∨ content.length ≤ maxCmdOutputSize) :
    (CmdOutputObservation.make content command metadata hidden).content = content := by
  unfold CmdOutputObservation.make maybeTruncate
  rcases h with h | h
  · exact if_pos h
  · simp only [if_pos h, ite_self]

/-- What has been seen goes on with what is new. -/
theorem seen_append_since (hseen : seen <+: screen.shown) (hraw : session.prevOutput = text seen)
    (hbehind : session.prevOutput.length ≤ screen.behind pane) :
    screen.shown.take (screen.behind pane) = seen ++ screen.since session pane := by
  have hlength : session.prevOutput.length = seen.length := by
    rw [hraw]
    exact List.length_map _
  have hprefix : seen <+: screen.shown.take (screen.behind pane) :=
    List.prefix_take_iff.mpr ⟨hseen, by omega⟩
  obtain ⟨new, hnew⟩ := hprefix
  rw [Screen.since, ← hnew, hlength, List.drop_left]

/-- The answer while a command is running. -/
theorem answerRunning_shows (outputSuffix : Text) {command : Text} {hidden : Bool}
    (hseen : seen <+: screen.shown) (hraw : session.prevOutput = text seen)
    (hpane : pane <+: screen.whole) (hbehind : session.prevOutput.length ≤ screen.behind pane)
    (hrunning : screen.Running F pane) (hechoes : Echoes command (screen.since session pane))
    (hfits : Fits command (screen.since session pane) hidden) :
    ∃ observation,
      answerRunning session command pane (matchesPs1Metadata F pane) outputSuffix hidden
        = ({ session with prevOutput := text (seen ++ screen.since session pane) },
          .cmdOutput observation) ∧
      Shows (screen.since session pane) observation.content := by
  have hblank : ∀ c ∈ ([] : Text), PyStr.isSpace c = true := by simp
  have hshows := shows_content hblank hechoes
  obtain ⟨metadata, houtput⟩ := getCommandOutput_eq session command []
    (screen.since session pane) { outputSuffix := outputSuffix } previousOutputPrefix hraw
  have hcombine := combine_of_running hpane hrunning
  rw [seen_append_since hseen hraw hbehind] at hcombine
  rw [List.append_nil] at hshows
  rw [List.append_nil, List.append_nil, ← hcombine] at houtput
  unfold answerRunning
  simp only [houtput]
  refine ⟨.make (rstrip (removeCommandPrefix (text (screen.since session pane)) command)) command
    metadata hidden, by rw [hcombine], ?_⟩
  rw [make_content hfits]
  exact hshows

/-- The answer when a command has completed. -/
theorem handleCompletedCommand_shows {host : Host} {command : Text} {hidden : Bool}
    {session' : Session} {observation : Observation} (hseen : seen <+: screen.shown)
    (hraw : session.prevOutput = text seen) (hpane : pane <+: screen.whole)
    (hbehind : session.prevOutput.length ≤ screen.behind pane)
    (hfinished : screen.Finished host.toFloatFormat pane)
    (hechoes : Echoes command (screen.since session pane))
    (hfits : Fits command (screen.since session pane) hidden)
    (h : handleCompletedCommand host session command pane
      (matchesPs1Metadata host.toFloatFormat pane) hidden = some (session', observation)) :
    session'.prevStatus = some .completed ∧ seen ++ screen.since session pane = screen.shown ∧
      ∃ output, observation = .cmdOutput output ∧
        Shows (screen.since session pane) output.content := by
  obtain ⟨htake, w, hw, prompt, next, hmatches, hcombine⟩ := combine_of_finished hpane hfinished
  have hall := seen_append_since hseen hraw hbehind
  rw [htake] at hall
  rw [hall] at hcombine
  rw [hmatches] at h
  unfold handleCompletedCommand at h
  obtain ⟨last, -, h⟩ := Option.bind_eq_some_iff.mp h
  obtain ⟨metadata, -, h⟩ := Option.bind_eq_some_iff.mp h
  have htwo : decide ([prompt, next].length = 1) = false := rfl
  rw [htwo] at h
  have houtput := fun cwd metadata => getCommandOutput_eq { session with cwd := cwd } command w
    (screen.since session pane) metadata [] hraw
  simp only [hcombine] at h
  obtain ⟨metadata', houtput⟩ := houtput _ _
  rw [houtput] at h
  cases h
  refine ⟨rfl, hall.symm, _, rfl, ?_⟩
  have hlong : hidden = true ∨
      (rstrip (removeCommandPrefix (text (screen.since session pane) ++ w) command)).length
        ≤ maxCmdOutputSize :=
    hfits.imp_right (le_trans (length_content_le hw))
  rw [make_content hlong]
  exact shows_content hw hechoes

end

/-! ## Runs -/

/-- The panes that a call looks at. -/
def Call.observed (call : Call) : List Text := call.initialPane :: call.polls.map Poll.paneContent

/-- The calls up to the one that returns the completed command. -/
def run (host : Host) : Session → List Call → Option (Session × List Observation)
  | session, [] => some (session, [])
  | session, call :: calls =>
    (execute host session call).bind fun (session, observation) =>
      if session.prevStatus = some .completed then some (session, [observation])
      else (run host session calls).map fun (last, observations) => (last, observation :: observations)

/-- Every call is answered with what is new on the screen. -/
def ClearRun (screen : Screen) (host : Host) : Session → List Call → Prop
  | _, [] => True
  | session, call :: calls =>
    (∀ o ∈ outcome host session call, o.Clear screen host.toFloatFormat session call.action) ∧
      ∀ r ∈ execute host session call, r.1.prevStatus ≠ some .completed →
        ClearRun screen host r.1 calls

/-- The call sends a new command. -/
structure Starts (host : Host) (call : Call) : Prop where
  command_ne_nil : strip call.action.command ≠ []
  not_input : call.action.isInput = false
  single : (splitBashCommands (strip call.action.command)
    (host.parse (strip call.action.command))).length ≤ 1

/-- The pane grows, up to the whole screen. -/
structure Growing (screen : Screen) (calls : List Call) : Prop where
  onScreen : ∀ pane ∈ calls.flatMap Call.observed, pane <+: screen.whole
  grows : (calls.flatMap Call.observed).Pairwise fun pane later => pane <+: later

/-- The contents of the observations that are no errors. -/
def contents (observations : List Observation) : List Text :=
  observations.filterMap fun
    | .cmdOutput observation => some observation.content
    | .error _ => none

theorem contents_cons (observation : Observation) (rest : List Observation) :
    contents (observation :: rest) = contents [observation] ++ contents rest :=
  List.filterMap_append (l := [observation])

section

variable {screen : Screen} {call : Call} {calls : List Call}

theorem Growing.tail (h : Growing screen (call :: calls)) : Growing screen calls where
  onScreen := fun pane hpane => h.onScreen pane (List.mem_append_right _ hpane)
  grows := (List.pairwise_append.mp h.grows).2.1

theorem Growing.later (h : Growing screen (call :: calls)) : ∀ pane ∈ call.observed,
    ∀ later ∈ calls.flatMap Call.observed, pane <+: later :=
  (List.pairwise_append.mp h.grows).2.2

end

theorem pollLoop_mem {host : Host} {session : Session} {action : CmdRunAction} {count : ℕ}
    {startTime : ℚ} {ending : Ending} {pane : Text} : ∀ {polls : List Poll} {lastPane : Text}
    {lastChange : ℚ}, pollLoop host session action count startTime lastPane lastChange polls
      = some (ending, pane) → pane ∈ polls.map Poll.paneContent
  | [], _, _, h => by cases h
  | poll :: polls, lastPane, lastChange, h => by
    rw [pollLoop] at h
    generalize (if poll.paneContent ≠ lastPane then poll.now else lastChange) = change at h
    split_ifs at h
    · cases h
      exact List.mem_cons_self
    · cases h
      exact List.mem_cons_self
    · split at h
      · cases h
        exact List.mem_cons_self
      · exact List.mem_cons_of_mem _ (pollLoop_mem h)

section

variable {screen : Screen} {host : Host} {session : Session} {call : Call}

/-- What an outcome says about the state before it. -/
theorem outcome_cases {o : Outcome} (h : outcome host session call = some o)
    (hready : session.running = true ∨ Starts host call) :
    (∃ content, o = .refused (.error content) ∧ session.running = true) ∨
    (∃ pane, o = .rejected pane ∧ session.running = true ∧ pane ∈ call.observed) ∨
    ∃ ending sent pane, o = .waited ending sent pane ∧ pane ∈ call.observed := by
  unfold outcome at h
  simp only at h
  split_ifs at h with hempty hinput hmultiple hreject
  · rcases hready with hrunning | hstarts
    · rw [hempty.1] at hrunning
      cases hrunning
    · exact absurd hempty.2 hstarts.command_ne_nil
  · rcases hready with hrunning | hstarts
    · rw [hinput.1] at hrunning
      cases hrunning
    · rw [hstarts.not_input] at hinput
      exact absurd hinput.2 Bool.false_ne_true
  · cases h
    rcases hready with hrunning | hstarts
    · exact Or.inl ⟨_, rfl, hrunning⟩
    · exact absurd hstarts.single (Nat.not_le.mpr hmultiple)
  · cases h
    refine Or.inr (Or.inl ⟨_, rfl, ?_, List.mem_cons_self⟩)
    have hstatus := hreject.1
    simp only [List.mem_cons, List.not_mem_nil, or_false] at hstatus
    unfold Session.running
    rcases hstatus with hstatus | hstatus <;> rw [hstatus] <;> decide
  all_goals
    obtain ⟨sent, -, h⟩ := Option.bind_eq_some_iff.mp h
    obtain ⟨⟨ending, pane⟩, hloop, h⟩ := Option.bind_eq_some_iff.mp h
    cases h
    exact Or.inr (Or.inr ⟨_, _, _, rfl, List.mem_cons_of_mem _ (pollLoop_mem hloop)⟩)

/-- What has been returned is what the session remembers. -/
structure Told (screen : Screen) (session : Session) (seen : List Shown) : Prop where
  output : session.prevOutput = text seen
  onScreen : seen <+: screen.shown

theorem running_ne_completed (h : session.running = true) :
    session.prevStatus ≠ some .completed := by
  intro hstatus
  rw [Session.running, hstatus] at h
  exact absurd h (by decide)

theorem behind_mono {pane later : Text} (h : pane <+: later) :
    screen.behind pane ≤ screen.behind later :=
  Nat.sub_le_sub_right h.length_le _

/-- A call is answered with what is new, and the session remembers it or is ready. -/
theorem execute_told {session' : Session} {observation : Observation} {seen : List Shown}
    (hready : session.running = true ∨ Starts host call) (htold : Told screen session seen)
    (hpanes : ∀ pane ∈ call.observed, pane <+: screen.whole ∧
      session.prevOutput.length ≤ screen.behind pane)
    (hclear : ∀ o ∈ outcome host session call,
      o.Clear screen host.toFloatFormat session call.action)
    (h : execute host session call = some (session', observation)) :
    ∃ news, List.Forall₂ Shows news (contents [observation]) ∧
      ((session'.prevStatus = some .completed ∧ seen ++ news.flatten = screen.shown) ∨
        session'.running = true ∧ Told screen session' (seen ++ news.flatten) ∧
          ∀ later, (∀ pane ∈ call.observed, pane <+: later) →
            session'.prevOutput.length ≤ screen.behind later) := by
  obtain ⟨o, houtcome, hanswer⟩ := Option.bind_eq_some_iff.mp h
  replace hclear := hclear o houtcome
  have hkept : ∀ {pane : Text}, pane ∈ call.observed →
      Told screen { session with prevOutput := text (seen ++ screen.since session pane) }
        (seen ++ screen.since session pane) ∧
      ∀ later, (∀ pane ∈ call.observed, pane <+: later) →
        (text (seen ++ screen.since session pane)).length ≤ screen.behind later := by
    intro pane hpane
    have hsince := seen_append_since htold.onScreen htold.output (hpanes pane hpane).2
    rw [← hsince]
    refine ⟨⟨rfl, List.take_prefix _ _⟩, fun later hlater => ?_⟩
    rw [text, List.length_map, List.length_take]
    exact (Nat.min_le_left _ _).trans (behind_mono (hlater pane hpane))
  have hrunning : ∀ (session₀ : Session) {pane command suffix : Text} {hidden : Bool},
      pane ∈ call.observed → session₀.prevOutput = session.prevOutput →
      session₀.running = true → screen.Running host.toFloatFormat pane →
      Echoes command (screen.since session pane) → Fits command (screen.since session pane) hidden →
      answerRunning session₀ command pane (matchesPs1Metadata host.toFloatFormat pane) suffix hidden
        = (session', observation) →
      ∃ news, List.Forall₂ Shows news (contents [observation]) ∧
        session'.running = true ∧ Told screen session' (seen ++ news.flatten) ∧
          ∀ later, (∀ pane ∈ call.observed, pane <+: later) →
            session'.prevOutput.length ≤ screen.behind later := by
    intro session₀ pane command suffix hidden hpane houtput hstatus hscreen hechoes hfits hanswer
    have hsince : screen.since session₀ pane = screen.since session pane := by
      unfold Screen.since
      rw [houtput]
    obtain ⟨honScreen, hbehind⟩ := hpanes pane hpane
    rw [← houtput] at hbehind
    rw [← hsince] at hechoes hfits
    obtain ⟨output, hequal, hshows⟩ := answerRunning_shows suffix htold.onScreen
      (houtput.trans htold.output) honScreen hbehind hscreen hechoes hfits
    rw [hequal, hsince] at hanswer
    rw [hsince] at hshows
    cases hanswer
    obtain ⟨htold', hlater⟩ := hkept hpane
    refine ⟨[screen.since session pane], List.Forall₂.cons hshows List.Forall₂.nil, hstatus, ?_,
      hlater⟩
    rw [List.flatten_cons, List.flatten_nil, List.append_nil]
    exact ⟨rfl, htold'.onScreen⟩
  rcases outcome_cases houtcome hready with
    ⟨content, rfl, hstatus⟩ | ⟨pane, rfl, hstatus, hpane⟩ | ⟨ending, sent, pane, rfl, hpane⟩
  · cases hanswer
    refine ⟨[], List.Forall₂.nil, Or.inr ⟨hstatus, ?_, fun later hlater => ?_⟩⟩
    · rw [List.flatten_nil, List.append_nil]
      exact htold
    · exact (hpanes call.initialPane List.mem_cons_self).2.trans
        (behind_mono (hlater _ List.mem_cons_self))
  · obtain ⟨hscreen, hechoes, hfits⟩ := hclear
    obtain ⟨news, hnews, hrest⟩ := hrunning session hpane rfl hstatus hscreen hechoes hfits
      (Option.some.inj hanswer)
    exact ⟨news, hnews, Or.inr hrest⟩
  · cases ending with
    | completed =>
      obtain ⟨hscreen, hechoes, hfits⟩ := hclear
      obtain ⟨honScreen, hbehind⟩ := hpanes pane hpane
      obtain ⟨hstatus, hall, output, rfl, hshows⟩ := handleCompletedCommand_shows htold.onScreen
        htold.output honScreen hbehind hscreen hechoes hfits hanswer
      refine ⟨[screen.since session pane], List.Forall₂.cons hshows List.Forall₂.nil,
        Or.inl ⟨hstatus, ?_⟩⟩
      rw [List.flatten_cons, List.flatten_nil, List.append_nil]
      exact hall
    | noChangeTimeout =>
      obtain ⟨hscreen, hechoes, hfits⟩ := hclear
      obtain ⟨news, hnews, hrest⟩ := hrunning { session with prevStatus := some .noChangeTimeout }
        hpane rfl rfl hscreen hechoes hfits (Option.some.inj hanswer)
      exact ⟨news, hnews, Or.inr hrest⟩
    | hardTimeout timeout =>
      obtain ⟨hscreen, hechoes, hfits⟩ := hclear
      obtain ⟨news, hnews, hrest⟩ := hrunning { session with prevStatus := some .hardTimeout }
        hpane rfl rfl hscreen hechoes hfits (Option.some.inj hanswer)
      exact ⟨news, hnews, Or.inr hrest⟩

/-- From a session that remembers what has been returned, each further content is new, and all is
returned when the command has completed. -/
theorem told_of_run : ∀ {calls : List Call} {session last : Session}
    {observations : List Observation} {seen : List Shown},
    (session.running = true ∨ ∃ call ∈ calls.head?, Starts host call) →
    Told screen session seen → Growing screen calls →
    (∀ pane ∈ calls.flatMap Call.observed, session.prevOutput.length ≤ screen.behind pane) →
    ClearRun screen host session calls → run host session calls = some (last, observations) →
    ∃ news, List.Forall₂ Shows news (contents observations) ∧
      ((last.prevStatus = some .completed ∧ seen ++ news.flatten = screen.shown) ∨
        last.prevStatus ≠ some .completed ∧ Told screen last (seen ++ news.flatten))
  | [], session, last, observations, seen, hready, htold, _, _, _, hrun => by
    cases hrun
    refine ⟨[], List.Forall₂.nil, Or.inr ⟨?_, ?_⟩⟩
    · rcases hready with hrunning | ⟨call, hcall, -⟩
      · exact running_ne_completed hrunning
      · cases hcall
    · rw [List.flatten_nil, List.append_nil]
      exact htold
  | call :: calls, session, last, observations, seen, hready, htold, hgrow, hpanes, hclear, hrun => by
    obtain ⟨hclearCall, hclearCalls⟩ := hclear
    have hreadyCall : session.running = true ∨ Starts host call := by
      rcases hready with hrunning | ⟨first, hfirst, hstarts⟩
      · exact Or.inl hrunning
      · cases hfirst
        exact Or.inr hstarts
    have hpanesCall : ∀ pane ∈ call.observed, pane <+: screen.whole ∧
        session.prevOutput.length ≤ screen.behind pane := fun pane hpane =>
      have hmem := List.mem_flatMap_of_mem List.mem_cons_self hpane
      ⟨hgrow.onScreen pane hmem, hpanes pane hmem⟩
    rw [run] at hrun
    obtain ⟨⟨session', observation⟩, hexecute, hrun⟩ := Option.bind_eq_some_iff.mp hrun
    obtain ⟨news, hnews, hend⟩ :=
      execute_told hreadyCall htold hpanesCall hclearCall hexecute
    rcases hend with ⟨hcompleted, hall⟩ | ⟨hrunning, htold', hlater⟩
    · simp only [if_pos hcompleted] at hrun
      cases hrun
      exact ⟨news, hnews, Or.inl ⟨hcompleted, hall⟩⟩
    · have hcompleted := running_ne_completed hrunning
      simp only [if_neg hcompleted] at hrun
      obtain ⟨⟨last, rest⟩, hcalls, hrun⟩ := Option.map_eq_some_iff.mp hrun
      cases hrun
      obtain ⟨newsRest, hnewsRest, hendRest⟩ := told_of_run (Or.inl hrunning) htold' hgrow.tail
        (fun later hmem => hlater later fun pane hpane => hgrow.later pane hpane later hmem)
        (hclearCalls _ hexecute hcompleted) hcalls
      refine ⟨news ++ newsRest, ?_, ?_⟩
      · rw [contents_cons]
        exact List.rel_append hnews hnewsRest
      · rw [List.flatten_append, ← List.append_assoc]
        exact hendRest

end

/-- The property: the contents of a run are the output of the command, piece by piece.  Each is a
piece of it up to surrounding whitespace, without a stretch that was typed. -/
def ShowsOutput (screen : Screen) (last : Session) (observations : List Observation) : Prop :=
  ∃ news, List.Forall₂ Shows news (contents observations) ∧ news.flatten <+: screen.shown ∧
    (last.prevStatus = some .completed → news.flatten = screen.shown) ∧
    (last.prevStatus ≠ some .completed → last.prevOutput = text news.flatten)

/-- The contents of a clear run are the output of the command: nothing is lost or shown twice. -/
theorem shows_run {screen : Screen} {host : Host} {session last : Session} {first : Call}
    {calls : List Call} {observations : List Observation} (hready : session.prevOutput = [])
    (hfirst : Starts host first) (hgrow : Growing screen (first :: calls))
    (hclear : ClearRun screen host session (first :: calls))
    (hrun : run host session (first :: calls) = some (last, observations)) :
    ShowsOutput screen last observations := by
  have htold : Told screen session [] := ⟨hready, List.nil_prefix⟩
  have hpanes : ∀ pane ∈ (first :: calls).flatMap Call.observed,
      session.prevOutput.length ≤ screen.behind pane := by
    intro pane _
    rw [hready]
    exact Nat.zero_le _
  obtain ⟨news, hnews, hend⟩ :=
    told_of_run (Or.inr ⟨first, rfl, hfirst⟩) htold hgrow hpanes hclear hrun
  refine ⟨news, hnews, ?_⟩
  rcases hend with ⟨hcompleted, hall⟩ | ⟨hrunning, htold⟩
  · rw [List.nil_append] at hall
    exact ⟨⟨[], by rw [List.append_nil, hall]⟩, fun _ => hall, fun h => absurd hcompleted h⟩
  · exact ⟨htold.onScreen, fun h => absurd h hrunning, fun _ => htold.output⟩

/-! ## A command of one word -/

/-- The syntax tree of a command of one word. -/
def oneWord (n : ℕ) : BashEscaping.Node :=
  .mk (.other "command") (0, n) none [.mk .word (0, n) none [] []] []

def oneWordHost : Host where
  toFloatFormat := onlyIntegers
  upper := fun c => [c.toUpper]
  parse := fun command => .nodes [oneWord command.length]

def freshSession : Session where
  noChangeTimeoutSeconds := 30
  cwd := "/".toList
  prevStatus := none
  prevOutput := []

def promptText : Text := "###PS1JSON###\n\x7b\x7d\n###PS1END###".toList

/-- The pane when `make` was typed and has written a text. -/
def makePane (written : Text) : Text := promptText ++ "\nmake\n".toList ++ written

/-- The screen of `make`, which writes a text. -/
def makeScreen (written : Text) : Screen where
  prompt := promptText
  shown := "make\n".toList.map (Shown.mk · true) ++ written.map (Shown.mk · false)
  nextPrompt := promptText
  blank := []
  blank_isSpace := by simp

/-- `make` is typed, and its time limit passes before it writes anything. -/
def typeMake : Call where
  action := { command := "make".toList, timeout := some 1 }
  initialPane := promptText
  startTime := 0
  polls := [⟨makePane [], 1⟩]

/-- An empty command waits for the end of the one that is running. -/
def waitForMake (shown written : Text) : Call where
  action := { command := [] }
  initialPane := makePane shown
  startTime := 2
  polls := [⟨makePane written ++ promptText, 3⟩]

/-- `ls` is sent while `make` is running. -/
def sendLs (shown : Text) : Call where
  action := { command := "ls".toList }
  initialPane := makePane shown
  startTime := 2
  polls := []

/-- `make` is typed, and its end is waited for. -/
def makeCalls : List Call := [waitForMake [] "ok\n".toList]

def runningSession : Session where
  noChangeTimeoutSeconds := 30
  cwd := "/".toList
  prevStatus := some .hardTimeout
  prevOutput := "make\n".toList

/-- How the two calls end, the session between them, the prompts that are found in the two panes,
and what is new in them. -/
theorem calls_make :
    (outcome oneWordHost freshSession typeMake
          = some (.waited (.hardTimeout 1) "make".toList (makePane [])) ∧
      (execute oneWordHost freshSession typeMake).map Prod.fst = some runningSession ∧
      outcome oneWordHost runningSession (waitForMake [] "ok\n".toList)
        = some (.waited .completed [] (makePane "ok\n".toList ++ promptText))) ∧
    ((matchesPs1Metadata onlyIntegers (makePane [])).map Match.stop = [promptText.length] ∧
      (matchesPs1Metadata onlyIntegers (makePane "ok\n".toList ++ promptText)).map
        (fun found => (found.start, found.stop)) = [(0, 29), (38, 67)]) ∧
    ((∀ x ∈ (makeScreen "ok\n".toList).since freshSession (makePane []), x.echoed = true) ∧
      (rstrip (removeCommandPrefix
        (text ((makeScreen "ok\n".toList).since freshSession (makePane [])))
          "make".toList)).length ≤ maxCmdOutputSize ∧
      (rstrip (removeCommandPrefix (text ((makeScreen "ok\n".toList).since runningSession
        (makePane "ok\n".toList ++ promptText))) [])).length ≤ maxCmdOutputSize) ∧
    ((makePane []).length = 35 ∧ (makePane "ok\n".toList ++ promptText).length = 67 ∧
      promptText.length = 29 ∧ (makeScreen "ok\n".toList).shown.length = 8) := by
  decide +kernel

theorem clearRun_make : ClearRun (makeScreen "ok\n".toList) oneWordHost freshSession
    (typeMake :: makeCalls) := by
  obtain ⟨⟨hfirst, hexecute, hsecond⟩, ⟨hpane, hscreen⟩, ⟨htyped, hfitsFirst, hfitsSecond⟩,
    hlengthFirst, hlength, hprompt', hshown⟩ := calls_make
  have hlengthPrompt : (makeScreen "ok\n".toList).prompt.length = 29 := hprompt'
  have hlengthNext : (makeScreen "ok\n".toList).nextPrompt.length = 29 := hprompt'
  refine ⟨fun o ho => ?_, fun r hr _ => ⟨fun o ho => ?_, fun _ _ _ => trivial⟩⟩
  · rw [hfirst] at ho
    cases ho
    obtain ⟨found, hfound, hstop⟩ := List.map_eq_singleton_iff.mp hpane
    refine ⟨⟨⟨found, hfound, hstop⟩, by omega⟩, fun before echo behind hnew _ _ x hx => ?_,
      Or.inr hfitsFirst⟩
    -- All that is new was typed.
    refine htyped x ?_
    rw [hnew]
    exact List.mem_append_left _ (List.mem_append_right _ hx)
  · have hsession : r.1 = runningSession := by
      rw [hr] at hexecute
      exact Option.some.inj hexecute
    rw [hsession, hsecond] at ho
    rw [hsession]
    cases ho
    obtain ⟨prompt, rest, hmatches, hprompt, hrest⟩ := List.map_eq_cons_iff.mp hscreen
    obtain ⟨next, hnext, hstop⟩ := List.map_eq_singleton_iff.mp hrest
    rw [hnext] at hmatches
    refine ⟨⟨prompt, next, hmatches, ?_⟩, fun before echo behind _ _ hecho x hx => ?_,
      Or.inr hfitsSecond⟩
    · simp only [Prod.mk.injEq] at hprompt hstop
      omega
    · -- The empty command is found nowhere.
      rw [List.map_eq_nil_iff.mp hecho] at hx
      cases hx

/-- Both contents of this run are shown. -/
theorem shows_run_make : ∃ last observations,
    run oneWordHost freshSession (typeMake :: makeCalls) = some (last, observations) ∧
      ShowsOutput (makeScreen "ok\n".toList) last observations := by
  have hrun : (run oneWordHost freshSession (typeMake :: makeCalls)).isSome = true := by
    decide +kernel
  obtain ⟨⟨last, observations⟩, hrun⟩ := Option.isSome_iff_exists.mp hrun
  have hstarts : Starts oneWordHost typeMake :=
    ⟨by decide +kernel, rfl, by decide +kernel⟩
  have hgrow : Growing (makeScreen "ok\n".toList) (typeMake :: makeCalls) :=
    ⟨by decide +kernel, by decide +kernel⟩
  exact ⟨last, observations, hrun, shows_run rfl hstarts hgrow clearRun_make hrun⟩

/-! ## A refused command -/

/-- A piece with an empty content has only whitespace and what was typed. -/
theorem Shows.echoed_of_nil {new : List Shown} (h : Shows new []) :
    ∀ x ∈ new, x.echoed = true ∨ PyStr.isSpace x.char = true := by
  obtain ⟨before, echo, behind, rfl, hecho, hcontent⟩ := h
  have hink : ink (text (before ++ behind)) = [] := by
    rw [← ink_strip, ← hcontent]
    rfl
  have hblank := ink_eq_nil_iff.mp hink
  intro x hx
  by_cases hmem : x ∈ echo
  · exact Or.inl (hecho x hmem)
  · refine Or.inr (hblank x.char (List.mem_map_of_mem ?_))
    simp only [List.mem_append] at hx ⊢
    tauto

/-- `make` is running and has written `ls`; the command `ls`, which is refused, takes it away. -/
def refusedCalls : List Call := [sendLs "ls\n".toList, waitForMake "ls\n".toList "ls\n".toList]

/-- What `make` has written is in no content. -/
theorem not_showsOutput_refused : Starts oneWordHost typeMake ∧
    Growing (makeScreen "ls\n".toList) (typeMake :: refusedCalls) ∧
      ∃ last observations,
        run oneWordHost freshSession (typeMake :: refusedCalls) = some (last, observations) ∧
          ¬ShowsOutput (makeScreen "ls\n".toList) last observations := by
  have hrun : (run oneWordHost freshSession (typeMake :: refusedCalls)).map
      (fun r => (r.1.prevStatus, contents r.2)) = some (some .completed, [[], [], []]) := by
    decide +kernel
  obtain ⟨⟨last, observations⟩, hsome, hpair⟩ := Option.map_eq_some_iff.mp hrun
  obtain ⟨hstatus, hcontents⟩ := Prod.mk.inj hpair
  refine ⟨⟨by decide +kernel, rfl, by decide +kernel⟩, ⟨by decide +kernel, by decide +kernel⟩, last,
    observations, hsome, ?_⟩
  rintro ⟨news, hnews, -, hall, -⟩
  rw [hcontents] at hnews
  have hnil : ∀ new ∈ news, Shows new [] := by
    obtain _ | ⟨hfirst, _ | ⟨hsecond, _ | ⟨hthird, _ | _⟩⟩⟩ := hnews
    simp [hfirst, hsecond, hthird]
  have hmem : Shown.mk 'l' false ∈ news.flatten := by
    rw [hall hstatus]
    decide +kernel
  obtain ⟨new, hnew, hl⟩ := List.mem_flatten.mp hmem
  exact absurd ((hnil new hnew).echoed_of_nil _ hl) (by decide)

end OpenHands.BashSession
