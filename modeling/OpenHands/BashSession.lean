/-
# The bash session

A command is typed into a terminal pane, and the pane is polled until a new prompt stands in it or
a time limit has passed.  What is returned is the text behind the prompt, without what was returned
before (`prev_output`) and without the command, which the terminal has echoed.
-/
import OpenHands.BashEscaping
import OpenHands.Lib.PyLines
import OpenHands.PS1Metadata

namespace OpenHands.BashSession

open BashEscaping (Node Span)
open JsonText PS1Metadata PyStr TextPieces

/-! ## Commands -/

/-- What `bashlex.parse` gives or raises. -/
inductive Parsed
  | nodes (nodes : List Node)
  | parsingError
  | attributeError

/-- The libraries of a session: how floating point numbers are written, upper case, `bashlex`. -/
structure Host extends FloatFormat where
  upper : Char → Text
  parse : Text → Parsed

/-- `result[-1] += text`. -/
def appendLast (result : List Text) (text : Text) : List Text :=
  match result.getLast? with
  | some last => result.dropLast ++ [last ++ text]
  | none => result

/-- The loop of `split_bash_commands`: what has been found, and `last_end`. -/
def splitNodes (commands : Text) : List Text → ℕ → List Node → List Text × ℕ
  | result, lastEnd, [] => (result, lastEnd)
  | result, lastEnd, node :: nodes =>
    let between := slice commands lastEnd node.pos.1
    let withBetween :=
      if lastEnd < node.pos.1 then
        if result ≠ [] then appendLast result (rstrip between)
        else if strip between ≠ [] then [rstrip between]
        else result
      else result
    splitNodes commands (withBetween ++ [rstrip (slice commands node.pos.1 node.pos.2)]) node.pos.2
      nodes

/-- `split_bash_commands`. -/
def splitBashCommands (commands : Text) (parsed : Parsed) : List Text :=
  if strip commands = [] then [[]]
  else
    match parsed with
    | .nodes nodes =>
      let (result, lastEnd) := splitNodes commands [] 0 nodes
      let remaining := rstrip (commands.drop lastEnd)
      if lastEnd < commands.length then
        if result ≠ [] then appendLast result remaining
        else if remaining ≠ [] then [remaining]
        else result
      else result
    | _ => [commands]

/-- `escape_bash_special_chars`, which does not catch an `AttributeError`. -/
def escapeSpecialChars (command : Text) : Parsed → Option Text
  | .nodes nodes => some (BashEscaping.escapeBashSpecialChars command (some nodes))
  | .parsingError => some (BashEscaping.escapeBashSpecialChars command none)
  | .attributeError => if strip command = [] then some [] else none

/-! ## Observations -/

/-- `MAX_CMD_OUTPUT_SIZE`. -/
def maxCmdOutputSize : ℕ := 30000

/-- `_maybe_truncate`. -/
def maybeTruncate (content : Text) : Text :=
  if content.length ≤ maxCmdOutputSize then content
  else content.take (maxCmdOutputSize / 2) ++
    "\n[... Observation truncated due to length ...]\n".toList ++
      content.drop (content.length - maxCmdOutputSize / 2)

structure CmdOutputObservation where
  content : Text
  command : Text
  metadata : CmdOutputMetadata
  hidden : Bool
  deriving DecidableEq

/-- `CmdOutputObservation(...)`: the content is truncated unless the command is hidden. -/
def CmdOutputObservation.make (content command : Text) (metadata : CmdOutputMetadata)
    (hidden : Bool) : CmdOutputObservation where
  content := if hidden then content else maybeTruncate content
  command := command
  metadata := metadata
  hidden := hidden

inductive Observation
  | cmdOutput (observation : CmdOutputObservation)
  | error (content : Text)
  deriving DecidableEq

/-- `CmdRunAction`. -/
structure CmdRunAction where
  command : Text
  isInput : Bool := false
  blocking : Bool := false
  hidden : Bool := false
  timeout : Option ℚ := none

/-! ## The state of a session -/

inductive BashCommandStatus
  | continued
  | completed
  | noChangeTimeout
  | hardTimeout
  deriving DecidableEq

structure Session where
  noChangeTimeoutSeconds : ℕ
  cwd : Text
  prevStatus : Option BashCommandStatus
  prevOutput : Text
  deriving DecidableEq

/-- The previous command is not completed. -/
def Session.running (session : Session) : Bool :=
  session.prevStatus ∈ [some .continued, some .noChangeTimeout, some .hardTimeout]

/-! ## The output of a command -/

/-- `s.removeprefix(p)`. -/
def removePrefix (p s : Text) : Text := if p <+: s then s.drop p.length else s

/-- `_remove_command_prefix`. -/
def removeCommandPrefix (commandOutput command : Text) : Text :=
  lstrip (removePrefix (lstrip command) (lstrip commandOutput))

/-- `_get_command_output`: the session, the output and the metadata after it. -/
def getCommandOutput (session : Session) (command rawCommandOutput : Text)
    (metadata : CmdOutputMetadata) (continuePrefix : Text) : Session × Text × CmdOutputMetadata :=
  let commandOutput :=
    if session.prevOutput ≠ [] then removePrefix session.prevOutput rawCommandOutput
    else rawCommandOutput
  let metadata :=
    if session.prevOutput ≠ [] then { metadata with outputPrefix := continuePrefix } else metadata
  ({ session with prevOutput := rawCommandOutput },
    rstrip (removeCommandPrefix commandOutput command), metadata)

/-- The texts between the prompts, each with a line break. -/
def outputsBetween (paneContent : Text) : List Match → Text
  | before :: after :: others =>
    slice paneContent (before.stop + 1) after.start ++ '\n' ::
      outputsBetween paneContent (after :: others)
  | [last] => paneContent.drop (last.stop + 1)
  | [] => []

/-- `_combine_outputs_between_matches`. -/
def combineOutputsBetweenMatches (paneContent : Text) (ps1Matches : List Match)
    (getContentBeforeLastMatch : Bool) : Text :=
  match ps1Matches with
  | [only] =>
    if getContentBeforeLastMatch then paneContent.take only.start
    else paneContent.drop (only.stop + 1)
  | [] => paneContent
  | _ => outputsBetween paneContent ps1Matches

/-- `_is_special_key`. -/
def isSpecialKey (command : Text) : Bool :=
  "C-".toList <+: strip command && (strip command).length = 3

/-- `TIMEOUT_MESSAGE_TEMPLATE`. -/
def timeoutMessageTemplate : Text :=
  ("You may wait longer to see additional output by sending empty command '', " ++
    "send other commands to interact with the current process, " ++
    "send keys (\"C-c\", \"C-z\", \"C-d\") to interrupt/kill the previous command before " ++
    "sending your new command, " ++
    "or use the timeout parameter in execute_bash for future commands.").toList

def previousOutputPrefix : Text := "[Below is the output of the previous command.]\n".toList

section

variable (host : Host) (session : Session)

/-- `_handle_completed_command`; nothing is returned where no prompt was found or its metadata
cannot be read. -/
def handleCompletedCommand (command paneContent : Text) (ps1Matches : List Match) (hidden : Bool) :
    Option (Session × Observation) := do
  let last ← ps1Matches.getLast?
  let metadata ← fromPs1Match host.toFloatFormat last
  let getContentBeforeLastMatch : Bool := ps1Matches.length = 1
  let cwd :=
    match metadata.workingDir with
    | some workingDir => if workingDir ≠ [] then workingDir else session.cwd
    | none => session.cwd
  let rawCommandOutput :=
    combineOutputsBetweenMatches paneContent ps1Matches getContentBeforeLastMatch
  let outputPrefix :=
    if getContentBeforeLastMatch then
      "[Previous command outputs are truncated. Showing the last ".toList ++
        Nat.toDigits 10 (PyStr.splitlines rawCommandOutput).length ++
          " lines of the output below.]\n".toList
    else metadata.outputPrefix
  let completed := "\n[The command completed with exit code ".toList ++ intText metadata.exitCode
  let outputSuffix :=
    if isSpecialKey command then
      completed ++ ". CTRL+".toList ++ (command.getLast?.elim [] host.upper) ++ " was sent.]".toList
    else completed ++ ".]".toList
  let (session, commandOutput, metadata) := getCommandOutput { session with cwd := cwd } command
    rawCommandOutput { metadata with outputPrefix := outputPrefix, outputSuffix := outputSuffix } []
  pure ({ session with prevStatus := some .completed, prevOutput := [] },
    .cmdOutput (.make commandOutput command metadata hidden))

/-- What the two handlers of time limits and the answer to a rejected command have in common. -/
def answerRunning (command paneContent : Text) (ps1Matches : List Match) (outputSuffix : Text)
    (hidden : Bool) : Session × Observation :=
  let rawCommandOutput := combineOutputsBetweenMatches paneContent ps1Matches false
  let (session, commandOutput, metadata) := getCommandOutput session command rawCommandOutput
    { outputSuffix := outputSuffix } previousOutputPrefix
  (session, .cmdOutput (.make commandOutput command metadata hidden))

/-- `_handle_nochange_timeout_command`. -/
def handleNochangeTimeoutCommand (command paneContent : Text) (ps1Matches : List Match) :
    Session × Observation :=
  answerRunning { session with prevStatus := some .noChangeTimeout } command paneContent ps1Matches
    ("\n[The command has no new output after ".toList ++
      Nat.toDigits 10 session.noChangeTimeoutSeconds ++ " seconds. ".toList ++
        timeoutMessageTemplate ++ "]".toList) false

/-- `_handle_hard_timeout_command`. -/
def handleHardTimeoutCommand (command paneContent : Text) (ps1Matches : List Match) (timeout : ℚ) :
    Session × Observation :=
  answerRunning { session with prevStatus := some .hardTimeout } command paneContent ps1Matches
    ("\n[The command timed out after ".toList ++ host.text timeout ++ " seconds. ".toList ++
      timeoutMessageTemplate ++ "]".toList) false

/-- The answer to a new command while the previous one is running. -/
def rejectCommand (command paneContent : Text) (ps1Matches : List Match) (hidden : Bool) :
    Session × Observation :=
  answerRunning session command paneContent ps1Matches
    ("\n[Your command \"".toList ++ command ++
      ("\" is NOT executed. The previous command is still running - You CANNOT send new " ++
        "commands until the previous command is completed. By setting `is_input` to `true`, you " ++
        "can interact with the current process: ").toList ++
          timeoutMessageTemplate ++ "]".toList) hidden

end

/-! ## Executing an action -/

/-- The pane at a time. -/
structure Poll where
  paneContent : Text
  now : ℚ

/-- Why the loop ends. -/
inductive Ending
  | completed
  | noChangeTimeout
  | hardTimeout (timeout : ℚ)
  deriving DecidableEq

/-- `pane.rstrip().endswith(CMD_OUTPUT_PS1_END.rstrip())`. -/
def endsWithPrompt (paneContent : Text) : Bool := rstrip ps1End <:+ rstrip paneContent

/-- The loop of `execute`, and the pane at its end; when the polls end, the session was
interrupted. -/
def pollLoop (host : Host) (session : Session) (action : CmdRunAction) (initialPs1Count : ℕ)
    (startTime : ℚ) : Text → ℚ → List Poll → Option (Ending × Text)
  | _, _, [] => none
  | lastPaneOutput, lastChangeTime, poll :: polls =>
    let lastChangeTime := if poll.paneContent ≠ lastPaneOutput then poll.now else lastChangeTime
    if initialPs1Count < (matchesPs1Metadata host.toFloatFormat poll.paneContent).length ∨
        endsWithPrompt poll.paneContent then
      some (.completed, poll.paneContent)
    else if action.blocking = false ∧
        session.noChangeTimeoutSeconds ≤ poll.now - lastChangeTime then
      some (.noChangeTimeout, poll.paneContent)
    else
      match action.timeout.filter fun timeout => timeout ≠ 0 ∧ timeout ≤ poll.now - startTime with
      | some timeout => some (.hardTimeout timeout, poll.paneContent)
      | none => pollLoop host session action initialPs1Count startTime poll.paneContent
          lastChangeTime polls

/-- How a call of `execute` ends: before it looks at the pane, at its first look, or at the end of
its loop, with the command that was sent. -/
inductive Outcome
  | refused (observation : Observation)
  | rejected (paneContent : Text)
  | waited (ending : Ending) (sent paneContent : Text)
  deriving DecidableEq

/-- A call of `execute`: the action, and what the pane shows before and at each poll. -/
structure Call where
  action : CmdRunAction
  initialPane : Text
  startTime : ℚ
  polls : List Poll

def noPreviousCommand (message : String) : Observation :=
  .cmdOutput (.make ("ERROR: No previous running command to ".toList ++ message.toList) [] {} false)

/-- `f'({i + 1}) {cmd}'` for every command. -/
def enumerated (commands : List Text) : List Text :=
  commands.zipIdx.map fun (command, i) => '(' :: Nat.toDigits 10 (i + 1) ++ ") ".toList ++ command

def multipleCommands (commands : List Text) : Observation :=
  .error (("ERROR: Cannot execute multiple commands at once.\n" ++
    "Please run each command separately OR chain them into a single command via && or ;\n" ++
    "Provided commands:\n").toList ++ (List.intersperse ['\n'] (enumerated commands)).flatten)

section

variable (host : Host) (session : Session) (call : Call)

/-- The first part of `execute`, up to the handlers. -/
def outcome : Option Outcome :=
  let command := strip call.action.command
  if session.running = false ∧ command = [] then
    some (.refused (noPreviousCommand "retrieve logs from."))
  else if session.running = false ∧ call.action.isInput then
    some (.refused (noPreviousCommand "interact with."))
  else
    let splitedCommands := splitBashCommands command (host.parse command)
    if 1 < splitedCommands.length then some (.refused (multipleCommands splitedCommands))
    else if session.prevStatus ∈ [some .hardTimeout, some .noChangeTimeout] ∧
        endsWithPrompt call.initialPane = false ∧ call.action.isInput = false ∧ command ≠ [] then
      some (.rejected call.initialPane)
    else do
      let sent ←
        if command = [] ∨ call.action.isInput then some command
        else escapeSpecialChars command (host.parse command)
      let initialPs1Count := (matchesPs1Metadata host.toFloatFormat call.initialPane).length
      let (ending, paneContent) ← pollLoop host session call.action initialPs1Count call.startTime
        call.initialPane call.startTime call.polls
      pure (.waited ending sent paneContent)

/-- The handlers. -/
def answer : Outcome → Option (Session × Observation)
  | .refused observation => some (session, observation)
  | .rejected paneContent =>
    some (rejectCommand session (strip call.action.command) paneContent
      (matchesPs1Metadata host.toFloatFormat paneContent) call.action.hidden)
  | .waited .completed sent paneContent =>
    handleCompletedCommand host session sent paneContent
      (matchesPs1Metadata host.toFloatFormat paneContent) call.action.hidden
  | .waited .noChangeTimeout sent paneContent =>
    some (handleNochangeTimeoutCommand session sent paneContent
      (matchesPs1Metadata host.toFloatFormat paneContent))
  | .waited (.hardTimeout timeout) sent paneContent =>
    some (handleHardTimeoutCommand host session sent paneContent
      (matchesPs1Metadata host.toFloatFormat paneContent) timeout)

/-- `execute`, or nothing where it raises. -/
def execute : Option (Session × Observation) :=
  (outcome host session call).bind (answer host session call)

end

end OpenHands.BashSession
