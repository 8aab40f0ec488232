/-
# Special characters of bash

`escape_bash_special_chars` walks over the syntax tree of a command and copies the command piece
by piece, with one cursor.  The backslashes before special characters are written twice in the
words that are not quoted and in the text between the words.  A here-document is copied when its
redirection is met, and the cursor is put behind the redirection: where the two do not end
together, the text between them is copied once more.
-/
import Mathlib
import OpenHands.Lib.PyStr
import OpenHands.Lib.TextPieces

namespace OpenHands.BashEscaping

open PyStr TextPieces

abbrev Text := List Char

/-! ## Syntax trees -/

inductive Kind
  | word
  | redirect
  | commandSubstitution
  | other (name : String)
  deriving DecidableEq

/-- `(start, stop)`. -/
abbrev Span := ℕ × ℕ

/-- A node of `bashlex`: its `kind` and `pos`, the `pos` of its `heredoc`, its `parts`, and the
children that are not among the parts (the `output` of a redirection, the `command` of a
substitution, the `list` of a compound command). -/
inductive Node
  | mk (kind : Kind) (pos : Span) (heredoc : Option Span) (parts others : List Node)

def Node.pos : Node → Span
  | .mk _ pos _ _ _ => pos

/-! ## Escaping -/

/-- `[;&|><]`. -/
def special (c : Char) : Bool := c ∈ [';', '&', '|', '>', '<']

/-- `re.sub(r'\\([;&|><])', r'\\\\\1', text)`: a match begins with a backslash and ends with
another character, so two matches have none in common. -/
def escape : Text → Text
  | [] => []
  | c :: text =>
    if c = '\\' ∧ ∃ d ∈ text.head?, special d = true then c :: c :: escape text
    else c :: escape text

/-- The text begins and ends as a quoted string or a command substitution does. -/
def preserved (text : Text) : Bool :=
  ("\"".toList <+: text && "\"".toList <:+ text) || ("'".toList <+: text && "'".toList <:+ text) ||
    ("$(".toList <+: text && ")".toList <:+ text) || ("`".toList <+: text && "`".toList <:+ text)

/-- `parts` and `last_pos`. -/
structure Cursor where
  parts : List Text
  lastPos : ℕ

mutual

/-- `visit_node`. -/
def visitNode (command : Text) : Node → Cursor → Cursor
  | .mk .redirect pos (some heredoc) _ _, cursor =>
    { parts := cursor.parts ++ [slice command cursor.lastPos pos.1,
        slice command pos.1 heredoc.1, slice command heredoc.1 heredoc.2]
      lastPos := pos.2 }
  | .mk .word pos _ _ _, cursor =>
    let between := escape (slice command cursor.lastPos pos.1)
    let wordText := slice command pos.1 pos.2
    { parts := cursor.parts ++
        [between, if preserved wordText then wordText else escape wordText]
      lastPos := pos.2 }
  | .mk _ _ _ parts _, cursor => visitNodes command parts cursor

def visitNodes (command : Text) : List Node → Cursor → Cursor
  | [], cursor => cursor
  | node :: nodes, cursor => visitNodes command nodes (visitNode command node cursor)

end

/-- The loop over the nodes of the command. -/
def visitRoots (command : Text) : List Node → Cursor → Cursor
  | [], cursor => cursor
  | node :: nodes, cursor =>
    let between := escape (slice command cursor.lastPos node.pos.1)
    visitRoots command nodes
      (visitNode command node { parts := cursor.parts ++ [between], lastPos := node.pos.1 })

/-- `escape_bash_special_chars`, with what `bashlex.parse` gives; a command that cannot be parsed
is returned as it is. -/
def escapeBashSpecialChars (command : Text) (parsed : Option (List Node)) : Text :=
  if strip command = [] then []
  else
    match parsed with
    | none => command
    | some nodes =>
      let cursor := visitRoots command nodes ⟨[], 0⟩
      (cursor.parts ++ [slice command cursor.lastPos command.length]).flatten

/-! ## Where backslashes may be doubled -/

/-- The text is a quoted string. -/
def quoted (text : Text) : Bool :=
  ("\"".toList <+: text && "\"".toList <:+ text) || ("'".toList <+: text && "'".toList <:+ text)

mutual

/-- The quoted words, the command substitutions and the bodies of here-documents. -/
def Node.protectedSpans (command : Text) : Node → List Span
  | .mk kind pos heredoc parts others =>
    (if kind = .commandSubstitution ∨ kind = .word ∧ quoted (slice command pos.1 pos.2) then [pos]
      else []) ++ heredoc.toList ++ protectedSpansOf command parts
        ++ protectedSpansOf command others

def protectedSpansOf (command : Text) : List Node → List Span
  | [] => []
  | node :: nodes => node.protectedSpans command ++ protectedSpansOf command nodes

end

/-- A backslash before a special character. -/
def pairAt (command : Text) (i : ℕ) : Bool :=
  command[i]? = some '\\' && (command[i + 1]?).any special

/-- The index lies in a quoted word, a command substitution or a here-document. -/
def Protected (command : Text) (parsed : Option (List Node)) (i : ℕ) : Prop :=
  ∃ nodes ∈ parsed, ∃ span ∈ protectedSpansOf command nodes, span.1 ≤ i ∧ i < span.2

/-- The text is the command, with backslashes doubled only where they may be. -/
def Faithful (command : Text) (parsed : Option (List Node)) (text : Text) : Prop :=
  ∃ doubled : ℕ → Bool, text = double doubled 0 command ∧
    ∀ i, doubled i = true → pairAt command i = true ∧ ¬ Protected command parsed i

/-! ## The assumption on `bashlex` -/

mutual

/-- Where a node ends with its parts.  A redirection is made longer up to the end of a
here-document that follows at once, and then ends behind the command that it is a part of. -/
def Node.reach : Node → ℕ
  | .mk _ pos _ parts _ => reachOf pos.2 parts

def reachOf (stop : ℕ) : List Node → ℕ
  | [] => stop
  | node :: nodes => max node.reach (reachOf stop nodes)

end

mutual

/-- The parts lie in their order behind the beginning of their parents, and the body of a
here-document begins behind its redirection, or is what it was made longer by. -/
def Node.Ordered : Node → Prop
  | .mk _ pos heredoc parts _ =>
    pos.1 ≤ pos.2 ∧ partsOrdered pos.1 (reachOf pos.2 parts) parts ∧
      ∀ body ∈ heredoc, pos.1 ≤ body.1 ∧ body.1 ≤ body.2 ∧ (pos.2 ≤ body.1 ∨ pos.2 = body.2)

def partsOrdered (start stop : ℕ) : List Node → Prop
  | [] => start ≤ stop
  | node :: nodes => start ≤ node.pos.1 ∧ node.Ordered ∧ partsOrdered node.reach stop nodes

end

theorem le_reachOf (stop : ℕ) (nodes : List Node) : stop ≤ reachOf stop nodes := by
  induction nodes with
  | nil => exact le_refl _
  | cons node nodes ih => exact ih.trans (le_max_right _ _)

/-! ## What is visited -/

/-- What the walk stops at: the beginning of a node of the command, a word, a redirection with a
here-document. -/
inductive Visit
  | start (pos : ℕ)
  | word (pos : Span)
  | heredoc (pos body : Span)

mutual

def Node.visits : Node → List Visit
  | .mk .redirect pos (some body) _ _ => [.heredoc pos body]
  | .mk .word pos _ _ _ => [.word pos]
  | .mk _ _ _ parts _ => visitsOf parts

def visitsOf : List Node → List Visit
  | [] => []
  | node :: nodes => node.visits ++ visitsOf nodes

end

def rootVisits : List Node → List Visit
  | [] => []
  | node :: nodes => .start node.pos.1 :: (node.visits ++ rootVisits nodes)

/-- A span of the command that is copied. -/
structure Piece where
  escaped : Bool
  span : Span

def Piece.text (command : Text) (piece : Piece) : Text :=
  if piece.escaped then escape (slice command piece.span.1 piece.span.2)
  else slice command piece.span.1 piece.span.2

namespace Visit

/-- What is copied at a visit, from the cursor on. -/
def pieces (command : Text) (lastPos : ℕ) : Visit → List Piece
  | .start pos => [⟨true, lastPos, pos⟩]
  | .word pos => [⟨true, lastPos, pos.1⟩, ⟨!preserved (slice command pos.1 pos.2), pos⟩]
  | .heredoc pos body => [⟨false, lastPos, pos.1⟩, ⟨false, pos.1, body.1⟩, ⟨false, body⟩]

/-- Where the cursor is behind a visit. -/
def next : Visit → ℕ
  | .start pos => pos
  | .word pos => pos.2
  | .heredoc pos _ => pos.2

def step (command : Text) (cursor : Cursor) (visit : Visit) : Cursor where
  parts := cursor.parts ++ (visit.pieces command cursor.lastPos).map (Piece.text command)
  lastPos := visit.next

end Visit

/-- All that is copied. -/
def piecesFrom (command : Text) : ℕ → List Visit → List Piece
  | lastPos, [] => [⟨false, lastPos, command.length⟩]
  | lastPos, visit :: visits => visit.pieces command lastPos ++ piecesFrom command visit.next visits

section

variable {command : Text}

mutual

theorem visitNode_eq : ∀ (node : Node) (cursor : Cursor),
    visitNode command node cursor = node.visits.foldl (Visit.step command) cursor
  | .mk kind pos heredoc parts others, cursor => by
    cases kind with
    | redirect =>
      cases heredoc with
      | some body => rfl
      | none => exact visitNodes_eq parts cursor
    | word =>
      rw [visitNode, Node.visits, List.foldl_cons, List.foldl_nil, Visit.step, Visit.pieces]
      cases hpreserved : preserved (slice command pos.1 pos.2) <;>
        simp [Piece.text, Visit.next]
    | commandSubstitution => exact visitNodes_eq parts cursor
    | other name => exact visitNodes_eq parts cursor

theorem visitNodes_eq : ∀ (nodes : List Node) (cursor : Cursor),
    visitNodes command nodes cursor = (visitsOf nodes).foldl (Visit.step command) cursor
  | [], cursor => rfl
  | node :: nodes, cursor => by
    rw [visitNodes, visitsOf, List.foldl_append, visitNode_eq node cursor, visitNodes_eq nodes]

end

theorem visitRoots_eq (nodes : List Node) (cursor : Cursor) :
    visitRoots command nodes cursor = (rootVisits nodes).foldl (Visit.step command) cursor := by
  induction nodes generalizing cursor with
  | nil => rfl
  | cons node nodes ih =>
    rw [visitRoots, rootVisits, List.foldl_cons, List.foldl_append, ← visitNode_eq, ih]
    rfl

/-- The text that is returned is that of the pieces. -/
theorem flatten_piecesFrom (visits : List Visit) (cursor : Cursor) :
    ((visits.foldl (Visit.step command) cursor).parts ++
      [slice command (visits.foldl (Visit.step command) cursor).lastPos command.length]).flatten
        = cursor.parts.flatten ++
          ((piecesFrom command cursor.lastPos visits).map (Piece.text command)).flatten := by
  induction visits generalizing cursor with
  | nil =>
    rw [List.flatten_append]
    rfl
  | cons visit visits ih =>
    rw [List.foldl_cons, ih, piecesFrom, List.map_append, List.flatten_append, ← List.append_assoc]
    congr 1
    exact List.flatten_append

/-! ## The order of the visits -/

/-- A visit stands behind the cursor. -/
def Visit.Follows (lastPos : ℕ) : Visit → Prop
  | .start pos => lastPos ≤ pos
  | .word pos => lastPos ≤ pos.1 ∧ pos.1 ≤ pos.2
  | .heredoc pos body => lastPos ≤ pos.1 ∧ pos.1 ≤ pos.2 ∧ pos.1 ≤ body.1 ∧ body.1 ≤ body.2 ∧
    (pos.2 ≤ body.1 ∨ pos.2 = body.2)

/-- The visits stand behind one another, and in front of an end. -/
def InOrder (stop : ℕ) : ℕ → List Visit → Prop
  | lastPos, [] => lastPos ≤ stop
  | lastPos, visit :: visits => visit.Follows lastPos ∧ InOrder stop visit.next visits

theorem InOrder.append {stop stop' lastPos : ℕ} {visits visits' : List Visit}
    (h : InOrder stop lastPos visits) (h' : ∀ pos ≤ stop, InOrder stop' pos visits') :
    InOrder stop' lastPos (visits ++ visits') := by
  induction visits generalizing lastPos with
  | nil => exact h' lastPos h
  | cons visit visits ih => exact ⟨h.1, ih h.2⟩

theorem Visit.Follows.mono {lastPos lastPos' : ℕ} {visit : Visit} (h : visit.Follows lastPos)
    (hle : lastPos' ≤ lastPos) : visit.Follows lastPos' := by
  cases visit with
  | start pos => exact hle.trans h
  | word pos => exact ⟨hle.trans h.1, h.2⟩
  | heredoc pos body => exact ⟨hle.trans h.1, h.2⟩

theorem InOrder.mono {stop lastPos lastPos' : ℕ} {visits : List Visit}
    (h : InOrder stop lastPos visits) (hle : lastPos' ≤ lastPos) : InOrder stop lastPos' visits := by
  cases visits with
  | nil => exact hle.trans h
  | cons visit visits => exact ⟨h.1.mono hle, h.2⟩

theorem Visit.Follows.le_next {lastPos : ℕ} {visit : Visit} (h : visit.Follows lastPos) :
    lastPos ≤ visit.next := by
  cases visit with
  | start pos => exact h
  | word pos => exact h.1.trans h.2
  | heredoc pos body => exact h.1.trans h.2.1

theorem InOrder.le {stop lastPos : ℕ} {visits : List Visit} (h : InOrder stop lastPos visits) :
    lastPos ≤ stop := by
  induction visits generalizing lastPos with
  | nil => exact h
  | cons visit visits ih => exact h.1.le_next.trans (ih h.2)

mutual

theorem inOrder_visits : ∀ (node : Node), node.Ordered → InOrder node.reach node.pos.1 node.visits
  | .mk kind pos heredoc parts others, h => by
    obtain ⟨hpos, hparts, hbody⟩ := h
    cases kind with
    | redirect =>
      cases heredoc with
      | some body =>
        obtain ⟨hbegin, hend, hbehind⟩ := hbody body rfl
        exact ⟨⟨le_refl _, hpos, hbegin, hend, hbehind⟩, le_reachOf _ parts⟩
      | none => exact inOrder_visitsOf parts hparts
    | word => exact ⟨⟨le_refl _, hpos⟩, le_reachOf _ parts⟩
    | commandSubstitution => exact inOrder_visitsOf parts hparts
    | other name => exact inOrder_visitsOf parts hparts

theorem inOrder_visitsOf : ∀ (nodes : List Node) {start stop : ℕ}, partsOrdered start stop nodes →
    InOrder stop start (visitsOf nodes)
  | [], start, stop, h => h
  | node :: nodes, start, stop, h => by
    obtain ⟨hstart, hnode, hnodes⟩ := h
    exact ((inOrder_visits node hnode).mono hstart).append
      fun pos hle => (inOrder_visitsOf nodes hnodes).mono hle

end

theorem inOrder_rootVisits : ∀ (nodes : List Node) {start stop : ℕ}, partsOrdered start stop nodes →
    InOrder stop start (rootVisits nodes)
  | [], start, stop, h => h
  | node :: nodes, start, stop, h => by
    obtain ⟨hstart, hnode, hnodes⟩ := h
    exact ⟨hstart, (inOrder_visits node hnode).append
      fun pos hle => (inOrder_rootVisits nodes hnodes).mono hle⟩

/-! ## Pieces that follow one another -/

/-- Escaping doubles the backslashes of the pairs. -/
theorem escape_eq_double (text : Text) (k : ℕ) :
    escape text = double (fun i => pairAt text (i - k)) k text := by
  induction text generalizing k with
  | nil => rfl
  | cons c text ih =>
    have hpair : pairAt (c :: text) (k - k) = true ↔
        c = '\\' ∧ ∃ d ∈ text.head?, special d = true := by
      rw [Nat.sub_self]
      unfold pairAt
      cases text <;> simp
    have hrest : double (fun i => pairAt (c :: text) (i - k)) (k + 1) text = escape text := by
      rw [ih (k + 1)]
      apply double_congr
      intro j hj _
      rw [show j - k = (j - (k + 1)) + 1 by omega]
      rfl
    rw [escape, double, hrest]
    simp only [hpair]

theorem escape_slice (command : Text) (a b : ℕ) :
    escape (slice command a b)
      = double (fun i => pairAt command i && decide (i + 1 < b)) a (slice command a b) := by
  rw [escape_eq_double _ a]
  apply double_congr
  intro j hj hlt
  have hlength : (slice command a b).length ≤ b - a := List.length_take_le _ _
  unfold pairAt
  rw [getElem?_slice, getElem?_slice, if_pos (by omega), show a + (j - a) = j by omega,
    show a + (j - a + 1) = j + 1 by omega]
  by_cases hnext : j + 1 < b
  · rw [if_pos (by omega), decide_eq_true hnext, Bool.and_true]
  · rw [if_neg (by omega), decide_eq_false hnext, Bool.and_false]
    exact Bool.and_false _

/-- The backslashes that are doubled. -/
def marks (command : Text) (pieces : List Piece) (i : ℕ) : Bool :=
  pieces.any fun piece =>
    piece.escaped && decide (piece.span.1 ≤ i) && (pairAt command i && decide (i + 1 < piece.span.2))

theorem marks_cons (command : Text) (piece : Piece) (pieces : List Piece) (i : ℕ) :
    marks command (piece :: pieces) i =
      (piece.escaped && decide (piece.span.1 ≤ i) &&
        (pairAt command i && decide (i + 1 < piece.span.2)) || marks command pieces i) :=
  rfl

/-- Pieces that follow one another give the whole text. -/
theorem text_of_tiles {stop : ℕ} (hstop : stop ≤ command.length) {pieces : List Piece} {start : ℕ}
    (h : Tiles stop start (pieces.map Piece.span)) :
    (pieces.map (Piece.text command)).flatten
      = double (marks command pieces) start (slice command start stop) := by
  induction pieces generalizing start with
  | nil =>
    cases h
    rw [slice_self]
    rfl
  | cons piece pieces ih =>
    obtain ⟨hstart, hle, hrest⟩ := h
    have hend : piece.span.2 ≤ stop := hrest.le
    have hlength : start + (slice command start piece.span.2).length = piece.span.2 := by
      rw [length_slice (by omega)]
      omega
    rw [List.map_cons, List.flatten_cons, ih hrest, ← slice_append_slice command hle hend,
      double_append, hlength]
    congr 1
    · -- The further pieces begin behind this one.
      have hothers : ∀ j < piece.span.2, marks command pieces j = false := by
        intro j hj
        refine List.any_eq_false.mpr fun other hother => ?_
        have hbehind := hrest.start_le other.span (List.mem_map_of_mem hother)
        rw [decide_eq_false (by omega : ¬ other.span.1 ≤ j), Bool.and_false, Bool.false_and]
        exact Bool.false_ne_true
      unfold Piece.text
      split_ifs with hescaped
      · rw [escape_slice, hstart]
        apply double_congr
        intro j hj hlt
        rw [marks_cons, hothers j (by omega), hescaped, decide_eq_true (by omega : piece.span.1 ≤ j)]
        simp
      · rw [hstart]
        refine (double_eq_self fun j hj hlt => ?_).symm
        rw [marks_cons, hothers j (by omega), (Bool.not_eq_true _).mp hescaped]
        simp
    · apply double_congr
      intro j hj _
      rw [marks_cons, decide_eq_false (by omega : ¬ j + 1 < piece.span.2)]
      simp

/-- The pieces follow one another where every here-document ends with its redirection. -/
theorem tiles_piecesFrom {visits : List Visit} {lastPos : ℕ}
    (h : InOrder command.length lastPos visits)
    (hbodies : ∀ pos body, Visit.heredoc pos body ∈ visits → pos.2 = body.2) :
    Tiles command.length lastPos ((piecesFrom command lastPos visits).map Piece.span) := by
  induction visits generalizing lastPos with
  | nil => exact ⟨rfl, h, rfl⟩
  | cons visit visits ih =>
    obtain ⟨hvisit, hvisits⟩ := h
    have hrest := ih hvisits fun pos body hmem => hbodies pos body (List.mem_cons_of_mem _ hmem)
    cases visit with
    | start pos => exact ⟨rfl, hvisit, hrest⟩
    | word pos => exact ⟨rfl, hvisit.1, rfl, hvisit.2, hrest⟩
    | heredoc pos body =>
      obtain ⟨hlast, hpos, hbegin, hend, -⟩ := hvisit
      have hsame := hbodies pos body List.mem_cons_self
      rw [Visit.next, hsame] at hrest
      refine ⟨rfl, hlast, rfl, hbegin, rfl, hend, ?_⟩
      rw [Visit.next, hsame]
      exact hrest

/-! ## What is copied twice -/

theorem count_escape (text : Text) : (escape text).count '\n' = text.count '\n' := by
  rw [escape_eq_double text 0]
  apply count_double
  intro j hj
  rw [Nat.zero_add, Nat.sub_zero] at hj
  unfold pairAt at hj
  simp only [Bool.and_eq_true, decide_eq_true_eq] at hj
  rw [hj.1]
  decide

theorem count_text (piece : Piece) :
    (piece.text command).count '\n' = (slice command piece.span.1 piece.span.2).count '\n' := by
  unfold Piece.text
  split_ifs
  · exact count_escape _
  · rfl

/-- The line breaks between the end of a redirection and that of its here-document. -/
def Visit.again (command : Text) : Visit → ℕ
  | .heredoc pos body => (slice command pos.2 body.2).count '\n'
  | _ => 0

/-- The line breaks behind redirections are copied once more. -/
theorem count_piecesFrom {visits : List Visit} {lastPos : ℕ}
    (h : InOrder command.length lastPos visits) :
    ((piecesFrom command lastPos visits).map (Piece.text command)).flatten.count '\n'
      = (slice command lastPos command.length).count '\n'
        + (visits.map (Visit.again command)).sum := by
  have hsplit : ∀ {a b c : ℕ}, a ≤ b → b ≤ c → (slice command a c).count '\n'
      = (slice command a b).count '\n' + (slice command b c).count '\n' := by
    intro a b c hab hbc
    rw [← slice_append_slice command hab hbc, List.count_append]
  induction visits generalizing lastPos with
  | nil =>
    simp only [piecesFrom, List.map_cons, List.map_nil, List.flatten_cons, List.flatten_nil,
      List.append_nil, count_text, List.sum_nil, Nat.add_zero]
  | cons visit visits ih =>
    obtain ⟨hvisit, hvisits⟩ := h
    have hnext := hvisits.le
    rw [piecesFrom, List.map_append, List.flatten_append, List.count_append, ih hvisits,
      List.map_cons, List.sum_cons]
    cases visit with
    | start pos =>
      have hall := hsplit hvisit hnext
      simp only [Visit.pieces, List.map_cons, List.map_nil, List.flatten_cons, List.flatten_nil,
        List.append_nil, count_text, Visit.again, Visit.next] at hall ⊢
      omega
    | word pos =>
      have hword := hsplit hvisit.1 hvisit.2
      have hall := hsplit (hvisit.1.trans hvisit.2) hnext
      simp only [Visit.pieces, List.map_cons, List.map_nil, List.flatten_cons, List.flatten_nil,
        List.append_nil, List.count_append, count_text, Visit.again, Visit.next] at hword hall ⊢
      omega
    | heredoc pos body =>
      obtain ⟨hbefore, hpos, hbegin, hend, hbehind⟩ := hvisit
      have hstop : pos.2 ≤ body.2 := by omega
      have hfirst := hsplit hbefore hbegin
      have hbody := hsplit (hbefore.trans hbegin) hend
      have hagain := hsplit (hbefore.trans hpos) hstop
      have hall := hsplit (hbefore.trans hpos) hnext
      simp only [Visit.pieces, List.map_cons, List.map_nil, List.flatten_cons, List.flatten_nil,
        List.append_nil, List.count_append, count_text, Visit.again, Visit.next] at hall ⊢
      omega

/-! ## When the command stays the same -/

/-- The spans that are escaped: the text before a node of the command or a word, up to what is
visited before, and the words that are not preserved. -/
def escapedSpans (command : Text) : ℕ → List Visit → List Span
  | _, [] => []
  | lastPos, .start pos :: visits => (lastPos, pos) :: escapedSpans command pos visits
  | lastPos, .word pos :: visits =>
    (lastPos, pos.1) :: ((if preserved (slice command pos.1 pos.2) then [] else [pos]) ++
      escapedSpans command pos.2 visits)
  | _, .heredoc pos _ :: visits => escapedSpans command pos.2 visits

/-- A command that is more than whitespace, or empty.  Every here-document ends with its
redirection, and no backslash in an escaped span is protected. -/
structure Plain (command : Text) (parsed : Option (List Node)) : Prop where
  blank : strip command = [] → command = []
  heredocs : strip command ≠ [] → ∀ nodes ∈ parsed, ∀ pos body,
    Visit.heredoc pos body ∈ rootVisits nodes → pos.2 = body.2
  escapes : strip command ≠ [] → ∀ nodes ∈ parsed,
    ∀ span ∈ escapedSpans command 0 (rootVisits nodes), ∀ i, span.1 ≤ i → i + 1 < span.2 →
      pairAt command i = true → ¬ Protected command parsed i

/-- The body of a here-document begins on a line of its own. -/
def BodiesOnLines (command : Text) (nodes : List Node) : Prop :=
  ∀ pos body, Visit.heredoc pos body ∈ rootVisits nodes → pos.2 ≠ body.2 →
    '\n' ∈ slice command pos.2 body.2

theorem marks_piecesFrom (command : Text) (visits : List Visit) (lastPos i : ℕ) :
    marks command (piecesFrom command lastPos visits) i = true ↔
      ∃ span ∈ escapedSpans command lastPos visits,
        span.1 ≤ i ∧ pairAt command i = true ∧ i + 1 < span.2 := by
  induction visits generalizing lastPos with
  | nil => simp [marks, piecesFrom, escapedSpans]
  | cons visit visits ih =>
    cases visit with
    | start pos =>
      rw [piecesFrom, Visit.pieces, List.singleton_append, marks_cons, Bool.or_eq_true, Visit.next,
        ih, escapedSpans, List.exists_mem_cons_iff]
      simp
    | word pos =>
      rw [piecesFrom, Visit.pieces, List.cons_append, List.singleton_append, marks_cons, marks_cons,
        Bool.or_eq_true, Bool.or_eq_true, Visit.next, ih, escapedSpans, List.exists_mem_cons_iff]
      cases hpreserved : preserved (slice command pos.1 pos.2) with
      | true => simp
      | false =>
        rw [if_neg Bool.false_ne_true, List.singleton_append, List.exists_mem_cons_iff]
        simp
    | heredoc pos body =>
      rw [piecesFrom, Visit.pieces, List.cons_append, List.cons_append, List.singleton_append,
        marks_cons, marks_cons, marks_cons, Visit.next, escapedSpans, ← ih]
      simp

theorem escapeBashSpecialChars_blank (parsed : Option (List Node)) (h : strip command = []) :
    escapeBashSpecialChars command parsed = [] :=
  if_pos h

theorem escapeBashSpecialChars_some {nodes : List Node} (h : strip command ≠ []) :
    escapeBashSpecialChars command (some nodes)
      = ((piecesFrom command 0 (rootVisits nodes)).map (Piece.text command)).flatten := by
  rw [escapeBashSpecialChars, if_neg h]
  simp only [visitRoots_eq]
  exact flatten_piecesFrom (rootVisits nodes) ⟨[], 0⟩

/-- A faithful text has as many line breaks as the command. -/
theorem count_of_faithful {parsed : Option (List Node)} {text : Text}
    (h : Faithful command parsed text) : text.count '\n' = command.count '\n' := by
  obtain ⟨doubled, rfl, hdoubled⟩ := h
  apply count_double
  intro j hj
  have hpair := (hdoubled _ hj).1
  rw [Nat.zero_add, pairAt, Bool.and_eq_true, decide_eq_true_eq] at hpair
  rw [hpair.1]
  decide

theorem separated_of_pairs {doubled : ℕ → Bool}
    (h : ∀ i, doubled i = true → pairAt command i = true) : Separated doubled 0 command := by
  intro j hj
  rw [Nat.zero_add] at hj
  have hpair := h j hj
  rw [pairAt, Bool.and_eq_true, decide_eq_true_eq] at hpair
  obtain ⟨hbackslash, hnext⟩ := hpair
  obtain ⟨d, hd, hspecial⟩ := (Option.any_eq_true _ _).mp hnext
  refine ⟨d, hd, ?_⟩
  rw [hbackslash]
  rintro ⟨⟩
  exact absurd hspecial (by decide)

/-- Where the pieces follow one another, the text is faithful exactly when no protected backslash
is escaped. -/
theorem faithful_iff_of_heredocs {nodes : List Node} (hblank : strip command ≠ [])
    (hordered : partsOrdered 0 command.length nodes)
    (hheredocs : ∀ pos body, Visit.heredoc pos body ∈ rootVisits nodes → pos.2 = body.2) :
    Faithful command (some nodes) (escapeBashSpecialChars command (some nodes)) ↔
      ∀ i, marks command (piecesFrom command 0 (rootVisits nodes)) i = true →
        ¬ Protected command (some nodes) i := by
  have hpairs : ∀ i, marks command (piecesFrom command 0 (rootVisits nodes)) i = true →
      pairAt command i = true := by
    intro i hi
    obtain ⟨span, -, -, hpair, -⟩ := (marks_piecesFrom command (rootVisits nodes) 0 i).mp hi
    exact hpair
  rw [escapeBashSpecialChars_some hblank,
    text_of_tiles (le_refl _) (tiles_piecesFrom (inOrder_rootVisits nodes hordered) hheredocs),
    slice_length]
  constructor
  · rintro ⟨doubled, hdouble, hdoubled⟩ i hi
    have hsame := double_injective (separated_of_pairs hpairs)
      (separated_of_pairs fun j hj => (hdoubled j hj).1) hdouble i ?_
    · rw [Nat.zero_add] at hsame
      exact (hdoubled i (hsame ▸ hi)).2
    · have hpair := hpairs i hi
      rw [pairAt, Bool.and_eq_true, decide_eq_true_eq] at hpair
      exact (List.getElem?_eq_some_iff.mp hpair.1).1
  · exact fun h => ⟨_, rfl, fun i hi => ⟨hpairs i hi, h i hi⟩⟩

/-- The command comes back with backslashes doubled only where they may be when it is plain, and,
where the bodies of here-documents begin on lines of their own, only then. -/
theorem escapeBashSpecialChars_faithful (command : Text) (parsed : Option (List Node))
    (hordered : ∀ nodes ∈ parsed, partsOrdered 0 command.length nodes) :
    (Plain command parsed → Faithful command parsed (escapeBashSpecialChars command parsed)) ∧
      ((∀ nodes ∈ parsed, BodiesOnLines command nodes) →
        Faithful command parsed (escapeBashSpecialChars command parsed) → Plain command parsed) := by
  constructor
  · intro hplain
    by_cases hblank : strip command = []
    · rw [escapeBashSpecialChars_blank parsed hblank, hplain.blank hblank]
      exact ⟨fun _ => false, rfl, fun i hi => (nomatch hi)⟩
    · cases parsed with
      | none =>
        rw [escapeBashSpecialChars, if_neg hblank]
        refine ⟨fun _ => false, (double_eq_self fun _ _ _ => rfl).symm, fun i hi => (nomatch hi)⟩
      | some nodes =>
        rw [faithful_iff_of_heredocs hblank (hordered nodes rfl) (hplain.heredocs hblank nodes rfl)]
        intro i hi
        obtain ⟨span, hspan, hbegin, hpair, hend⟩ := (marks_piecesFrom command _ 0 i).mp hi
        exact hplain.escapes hblank nodes rfl span hspan i hbegin hend hpair
  · intro hbodies hfaithful
    have hheredocs : strip command ≠ [] → ∀ nodes ∈ parsed, ∀ pos body,
        Visit.heredoc pos body ∈ rootVisits nodes → pos.2 = body.2 := by
      rintro hblank nodes rfl pos body hvisit
      by_contra hne
      -- A line break behind the redirection is there twice.
      have hcount := count_of_faithful hfaithful
      rw [escapeBashSpecialChars_some hblank,
        count_piecesFrom (inOrder_rootVisits nodes (hordered nodes rfl)), slice_length] at hcount
      have hagain : 0 < Visit.again command (.heredoc pos body) :=
        List.count_pos_iff.mpr (hbodies nodes rfl pos body hvisit hne)
      have hle : Visit.again command (.heredoc pos body)
          ≤ ((rootVisits nodes).map (Visit.again command)).sum :=
        List.le_sum_of_mem (List.mem_map_of_mem hvisit)
      omega
    refine ⟨?_, hheredocs, ?_⟩
    · intro hblank
      rw [escapeBashSpecialChars_blank parsed hblank] at hfaithful
      obtain ⟨doubled, hnil, -⟩ := hfaithful
      exact eq_nil_of_double hnil.symm
    · rintro hblank nodes rfl span hspan i hbegin hend hpair
      exact (faithful_iff_of_heredocs hblank (hordered nodes rfl)
        (hheredocs hblank nodes rfl)).mp hfaithful i
        ((marks_piecesFrom command _ 0 i).mpr ⟨span, hspan, hbegin, hpair, hend⟩)

end

def heredocCommand : Text := "cat \\; <<E\nb\nE".toList

/-- `bashlex` makes the redirection longer where its here-document follows at once, and leaves
the command as it is. -/
def heredocNodes : List Node :=
  [.mk (.other "command") (0, 10) none
    [.mk .word (0, 3) none [] [], .mk .word (4, 6) none [] [],
      .mk .redirect (7, 14) (some (11, 14)) [] []] []]

/-- The here-document ends with its redirection, and the one backslash is doubled. -/
theorem escapeBashSpecialChars_faithful_heredoc :
    Plain heredocCommand (some heredocNodes) ∧
      Faithful heredocCommand (some heredocNodes)
        (escapeBashSpecialChars heredocCommand (some heredocNodes)) := by
  have hlength : heredocCommand.length = 14 := by decide
  have hordered : ∀ nodes ∈ some heredocNodes, partsOrdered 0 heredocCommand.length nodes := by
    rintro _ ⟨⟩
    rw [hlength]
    simp [heredocNodes, partsOrdered, Node.Ordered, Node.reach, reachOf, Node.pos]
  have hplain : Plain heredocCommand (some heredocNodes) := by
    refine ⟨fun h => absurd h (by decide), ?_, ?_⟩
    · rintro - _ ⟨⟩ pos body hvisit
      simp only [heredocNodes, rootVisits, Node.visits, visitsOf, List.append_nil,
        List.nil_append, List.cons_append, List.mem_cons, List.not_mem_nil] at hvisit
      grind
    · rintro - _ ⟨⟩ span hspan i - hend hpair ⟨_, ⟨⟩, body, hbody, hbegin, -⟩
      -- The body is the one protected span, and no pair stands in it.
      have hbody : body = (11, 14) := by
        have hspans : protectedSpansOf heredocCommand heredocNodes = [(11, 14)] := by decide
        rw [hspans] at hbody
        exact List.mem_singleton.mp hbody
      have hlt : i < 14 := by
        by_contra hle
        rw [pairAt, List.getElem?_eq_none (by omega : heredocCommand.length ≤ i)] at hpair
        cases hpair
      have hbefore : ∀ i < 14, pairAt heredocCommand i = true → i < 11 := by decide
      subst hbody
      exact absurd hbegin (Nat.not_le.mpr (hbefore i hlt hpair))
  exact ⟨hplain, (escapeBashSpecialChars_faithful _ _ hordered).1 hplain⟩

def redirectedCommand : Text := "cat <<E > o\nb\nE".toList

/-- The rest of the line stands between the redirection and its here-document. -/
def redirectedNodes : List Node :=
  [.mk (.other "command") (0, 11) none
    [.mk .word (0, 3) none [] [], .mk .redirect (4, 7) (some (12, 15)) [] [],
      .mk .redirect (8, 11) none [] [.mk .word (10, 11) none [] []]] []]

/-- The end of the command is copied twice. -/
theorem not_faithful_redirected : ¬ Faithful redirectedCommand (some redirectedNodes)
    (escapeBashSpecialChars redirectedCommand (some redirectedNodes)) := by
  intro h
  have hcount := count_of_faithful h
  revert hcount
  decide

end OpenHands.BashEscaping
