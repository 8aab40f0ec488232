/-
# Splitting a text into bash commands

`split_bash_commands` cuts a text at the top-level nodes that `bashlex` finds in it.  What stands
between two nodes goes to the command before, what stands behind the last node too, and every
piece loses the whitespace at its end.

The invariant of the loop: up to whitespace, the commands so far are the text up to `last_end`.
-/
import Mathlib
import OpenHands.Lib.PyStr
import OpenHands.Lib.TextPieces

namespace OpenHands.BashCommands

open PyStr TextPieces

abbrev Text := List Char

/-- `node.pos`. -/
abbrev Span := ℕ × ℕ

/-- `result[-1] += text`, for a result that is not empty. -/
def addToLast (text : Text) : List Text → List Text
  | [] => []
  | [command] => [command ++ text]
  | command :: commands => command :: addToLast text commands

/-- `result` and `last_end`. -/
structure Split where
  result : List Text := []
  lastEnd : ℕ := 0

/-- One turn of the loop over the nodes. -/
def Split.addNode (commands : Text) (split : Split) (pos : Span) : Split :=
  let between := slice commands split.lastEnd pos.1
  let result :=
    if pos.1 > split.lastEnd then
      if split.result ≠ [] then addToLast (rstrip between) split.result
      else if strip between ≠ [] then split.result ++ [rstrip between]
      else split.result
    else split.result
  { result := result ++ [rstrip (slice commands pos.1 pos.2)]
    lastEnd := pos.2 }

/-- `split_bash_commands`, with the spans of the nodes that `bashlex.parse` gives; a text that
cannot be parsed is returned as it is. -/
def splitBashCommands (commands : Text) (parsed : Option (List Span)) : List Text :=
  if strip commands = [] then [[]]
  else
    match parsed with
    | none => [commands]
    | some nodes =>
      let split := nodes.foldl (Split.addNode commands) {}
      let remaining := rstrip (slice commands split.lastEnd commands.length)
      if split.lastEnd < commands.length ∧ split.result ≠ [] then
        addToLast remaining split.result
      else if split.lastEnd < commands.length then
        if remaining ≠ [] then split.result ++ [remaining] else split.result
      else split.result

/-- The spans stand behind one another, from a position on. -/
def InOrder : ℕ → List Span → Prop
  | _, [] => True
  | lastEnd, pos :: nodes => lastEnd ≤ pos.1 ∧ pos.1 ≤ pos.2 ∧ InOrder pos.2 nodes

section

variable {commands : Text} {parsed : Option (List Span)} {split : Split} {pos : Span}

theorem flatten_addToLast (text : Text) {result : List Text} (h : result ≠ []) :
    (addToLast text result).flatten = result.flatten ++ text := by
  induction result with
  | nil => exact absurd rfl h
  | cons command result ih =>
    cases result with
    | nil => simp [addToLast]
    | cons next result =>
      show command ++ (addToLast text (next :: result)).flatten = _
      rw [ih (List.cons_ne_nil _ _), ← List.append_assoc, ← List.flatten_cons]

/-- A gap that is not added has no ink. -/
theorem ink_of_strip_eq_nil {text : Text} (h : strip text = []) : ink text = [] := by
  rw [← ink_strip, h]
  rfl

/-- Adding a text that has been stripped on the right, in one of the two ways, adds its ink. -/
theorem ink_add (text : Text) (result : List Text) :
    ink (if result ≠ [] then addToLast (rstrip text) result
      else if strip text ≠ [] then result ++ [rstrip text] else result).flatten
        = ink result.flatten ++ ink text := by
  split_ifs with hresult htext
  · rw [flatten_addToLast _ hresult, ink_append, ink_rstrip]
  · rw [List.flatten_append, List.flatten_singleton, ink_append, ink_rstrip]
  · rw [not_not] at htext
    rw [ink_of_strip_eq_nil htext, List.append_nil]

/-- **The invariant of the loop.** -/
def Split.Covers (commands : Text) (split : Split) : Prop :=
  ink split.result.flatten = ink (slice commands 0 split.lastEnd)

theorem Split.Covers.addNode (h : split.Covers commands) (hstart : split.lastEnd ≤ pos.1)
    (hstop : pos.1 ≤ pos.2) : (split.addNode commands pos).Covers commands := by
  have hgap : ink (slice commands 0 pos.1)
      = ink split.result.flatten ++ ink (slice commands split.lastEnd pos.1) := by
    rw [h, ← ink_append, slice_append_slice commands (Nat.zero_le _) hstart]
  have hnode : ink (slice commands 0 pos.2)
      = ink (slice commands 0 pos.1) ++ ink (slice commands pos.1 pos.2) := by
    rw [← ink_append, slice_append_slice commands (Nat.zero_le _) hstop]
  unfold Split.Covers Split.addNode
  rw [List.flatten_append, List.flatten_singleton, ink_append, ink_rstrip, hnode, hgap]
  congr 1
  by_cases hlt : pos.1 > split.lastEnd
  · rw [if_pos hlt, ink_add]
  · -- The node follows the one before at once.
    have heq : pos.1 = split.lastEnd := by omega
    rw [if_neg hlt, heq, slice_self]
    simp [ink]

theorem Split.Covers.foldl {nodes : List Span} (h : split.Covers commands)
    (hnodes : InOrder split.lastEnd nodes) :
    (nodes.foldl (Split.addNode commands) split).Covers commands := by
  induction nodes generalizing split with
  | nil => exact h
  | cons pos nodes ih =>
    obtain ⟨hstart, hstop, hnodes⟩ := hnodes
    rw [List.foldl_cons]
    apply ih (h.addNode hstart hstop)
    exact hnodes

/-- What stands behind the last node comes to the commands. -/
theorem Split.Covers.remaining (h : split.Covers commands) :
    ink (if split.lastEnd < commands.length ∧ split.result ≠ [] then
        addToLast (rstrip (slice commands split.lastEnd commands.length)) split.result
      else if split.lastEnd < commands.length then
        if rstrip (slice commands split.lastEnd commands.length) ≠ [] then
          split.result ++ [rstrip (slice commands split.lastEnd commands.length)]
        else split.result
      else split.result).flatten = ink commands := by
  by_cases hlt : split.lastEnd < commands.length
  · have hwhole : ink commands = ink split.result.flatten
        ++ ink (slice commands split.lastEnd commands.length) := by
      rw [h, ← ink_append, slice_append_slice commands (Nat.zero_le _) (Nat.le_of_lt hlt),
        slice_length]
    rw [hwhole]
    by_cases hresult : split.result ≠ []
    · rw [if_pos ⟨hlt, hresult⟩, flatten_addToLast _ hresult, ink_append, ink_rstrip]
    · rw [if_neg (fun hand => hresult hand.2), if_pos hlt]
      split_ifs with hremaining
      · rw [List.flatten_append, List.flatten_singleton, ink_append, ink_rstrip]
      · rw [not_not] at hremaining
        rw [← ink_rstrip (slice commands split.lastEnd commands.length), hremaining]
        simp [ink]
  · rw [if_neg (fun hand => hlt hand.1), if_neg hlt, h]
    -- The last node reaches to the end of the text.
    show ink ((commands.drop 0).take (split.lastEnd - 0)) = ink commands
    rw [List.drop_zero, List.take_of_length_le (by omega)]

/-- **Nothing is lost**: up to whitespace, the commands put together are the text. -/
theorem ink_splitBashCommands (commands : Text) (parsed : Option (List Span))
    (hparsed : ∀ nodes ∈ parsed, InOrder 0 nodes) :
    ink (splitBashCommands commands parsed).flatten = ink commands := by
  unfold splitBashCommands
  by_cases hblank : strip commands = []
  · rw [if_pos hblank, ink_of_strip_eq_nil hblank]
    rfl
  · rw [if_neg hblank]
    cases parsed with
    | none => rw [List.flatten_singleton]
    | some nodes =>
      have hstart : ({} : Split).Covers commands := by
        show ink [] = ink (slice commands 0 0)
        rw [slice_self]
      exact (hstart.foldl (hparsed nodes rfl)).remaining

end

/-- Two commands with a comment between them, and a comment behind them. -/
theorem ink_splitBashCommands_comments :
    InOrder 0 [(1, 3), (8, 11)] ∧
      splitBashCommands " ls # a\npwd # b\n".toList (some [(1, 3), (8, 11)])
        = ["ls # a".toList, "pwd # b".toList] ∧
      ink (splitBashCommands " ls # a\npwd # b\n".toList (some [(1, 3), (8, 11)])).flatten
        = ink " ls # a\npwd # b\n".toList := by
  have hnodes : InOrder 0 [(1, 3), (8, 11)] := by
    simp [InOrder]
  refine ⟨hnodes, by decide, ?_⟩
  apply ink_splitBashCommands
  rintro nodes ⟨⟩
  exact hnodes

end OpenHands.BashCommands
