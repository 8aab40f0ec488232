/-
# Regular expressions that begin with a literal

A pattern is matched at one place of a text.  Scanning cuts the text into the characters
no match covers and the matches, from left to right; searching, iterating over the
matches and substituting them all read this one list.
-/
import OpenHands.Lib.PyStr

namespace PyRe

open PyStr

/-! ## Parts of a pattern -/

section Parts

variable {α : Type*}

/-- `([…]+)`, which takes as much as it can: nothing that may follow is of its kind. -/
def run (p : α → Bool) (s : List α) : Option (List α × List α) :=
  if s.takeWhile p = [] then none else some (s.takeWhile p, s.dropWhile p)

/-- What stands after a literal. -/
def afterLiteral [DecidableEq α] (pat s : List α) : Option (List α) :=
  if pat <+: s then some (s.drop pat.length) else none

theorem run_suffix {p : α → Bool} {s taken rest : List α} (h : run p s = some (taken, rest)) :
    rest <:+ s := by
  unfold run at h
  split_ifs at h
  cases h
  exact List.dropWhile_suffix p

/-- A run ends where a character of another kind stands. -/
theorem run_append_cons {p : α → Bool} {s : List α} (hne : s ≠ []) (hs : ∀ c ∈ s, p c = true)
    {d : α} (hd : p d = false) (rest : List α) :
    run p (s ++ d :: rest) = some (s, d :: rest) := by
  have hdrop : ¬ p d = true := by
    rw [hd]
    exact Bool.false_ne_true
  have htake : (s ++ d :: rest).takeWhile p = s := by
    rw [List.takeWhile_append_of_pos hs, List.takeWhile_cons_of_neg hdrop, List.append_nil]
  unfold run
  rw [htake, List.dropWhile_append_of_pos hs, List.dropWhile_cons_of_neg hdrop, if_neg hne]

theorem run_eq_some {p : α → Bool} {s taken rest : List α} (h : run p s = some (taken, rest)) :
    taken ≠ [] ∧ (∀ c ∈ taken, p c = true) ∧ s = taken ++ rest := by
  unfold run at h
  split_ifs at h with hne
  cases h
  exact ⟨hne, fun c hc => List.mem_takeWhile_imp hc, (List.takeWhile_append_dropWhile ..).symm⟩

variable [DecidableEq α]

theorem afterLiteral_suffix {pat s rest : List α} (h : afterLiteral pat s = some rest) :
    rest <:+ s := by
  unfold afterLiteral at h
  split_ifs at h
  cases h
  exact List.drop_suffix pat.length s

theorem afterLiteral_append (pat rest : List α) : afterLiteral pat (pat ++ rest) = some rest := by
  unfold afterLiteral
  rw [if_pos (List.prefix_append pat rest), List.drop_left]

theorem eq_of_afterLiteral {pat s rest : List α} (h : afterLiteral pat s = some rest) :
    s = pat ++ rest := by
  unfold afterLiteral at h
  split_ifs at h with hpat
  cases h
  obtain ⟨t, rfl⟩ := hpat
  rw [List.drop_left]

theorem cut_suffix {pat s before after : List α} (h : cut pat s = some (before, after)) :
    after <:+ s :=
  ⟨before ++ pat, (eq_of_cut h).symm⟩

end Parts

/-! ## Patterns -/

/-- A pattern beginning with a literal: what follows the literal captures something and
leaves a rest. -/
structure Pattern (α β : Type*) where
  lead : List α
  lead_ne_nil : lead ≠ []
  follow : List α → Option (β × List α)
  follow_suffix : ∀ {s : List α} {b : β} {rest : List α}, follow s = some (b, rest) → rest <:+ s

namespace Pattern

variable {α β : Type*} [DecidableEq α]

/-- A match at the start of a text. -/
def matchStart (p : Pattern α β) (s : List α) : Option (β × List α) :=
  (afterLiteral p.lead s).bind p.follow

theorem matchStart_append (p : Pattern α β) (s : List α) :
    p.matchStart (p.lead ++ s) = p.follow s := by
  unfold matchStart
  rw [afterLiteral_append, Option.bind_some]

theorem eq_of_matchStart (p : Pattern α β) {s rest : List α} {b : β}
    (h : p.matchStart s = some (b, rest)) :
    ∃ s', s = p.lead ++ s' ∧ p.follow s' = some (b, rest) := by
  obtain ⟨s', hlead, hfollow⟩ := Option.bind_eq_some_iff.mp h
  exact ⟨s', eq_of_afterLiteral hlead, hfollow⟩

theorem lead_prefix (p : Pattern α β) {s rest : List α} {b : β}
    (h : p.matchStart s = some (b, rest)) : p.lead <+: s := by
  obtain ⟨s', rfl, -⟩ := p.eq_of_matchStart h
  exact List.prefix_append p.lead s'

theorem rest_suffix (p : Pattern α β) {s rest : List α} {b : β}
    (h : p.matchStart s = some (b, rest)) : rest <:+ s := by
  obtain ⟨s', rfl, hfollow⟩ := p.eq_of_matchStart h
  exact (p.follow_suffix hfollow).trans (List.suffix_append p.lead s')

theorem rest_shorter (p : Pattern α β) {s rest : List α} {b : β}
    (h : p.matchStart s = some (b, rest)) : rest.length < s.length := by
  obtain ⟨s', rfl, hfollow⟩ := p.eq_of_matchStart h
  have hlead := List.length_pos_of_ne_nil p.lead_ne_nil
  have hle := (p.follow_suffix hfollow).length_le
  rw [List.length_append]
  omega

/-- The characters and matches of a text, in at most `fuel` steps. -/
def scan (p : Pattern α β) : ℕ → List α → List (α ⊕ β)
  | 0, _ => []
  | _, [] => []
  | fuel + 1, c :: s =>
    match p.matchStart (c :: s) with
    | some (b, rest) => .inr b :: scan p fuel rest
    | none => .inl c :: scan p fuel s

/-- The characters and matches of a text: every step takes at least one character. -/
def tokens (p : Pattern α β) (s : List α) : List (α ⊕ β) := p.scan s.length s

/-- `re.finditer(p, s)`. -/
def finditer (p : Pattern α β) (s : List α) : List β := (p.tokens s).filterMap Sum.getRight?

/-- `re.search(p, s)`. -/
def search (p : Pattern α β) (s : List α) : Option β := (p.finditer s).head?

/-- `re.sub(p, f, s)`. -/
def sub (p : Pattern α β) (f : β → List α) (s : List α) : List α :=
  (p.tokens s).flatMap (Sum.elim (fun c => [c]) f)

/-! ## One step of the scan -/

theorem scan_eq_of_le (p : Pattern α β) :
    ∀ {m n : ℕ} {s : List α}, s.length ≤ m → s.length ≤ n → p.scan m s = p.scan n s
  | m, n, [], _, _ => by
    cases m <;> cases n <;> rfl
  | 0, _, c :: s, hm, _ => by
    rw [List.length_cons] at hm
    omega
  | _, 0, c :: s, _, hn => by
    rw [List.length_cons] at hn
    omega
  | m + 1, n + 1, c :: s, hm, hn => by
    rw [List.length_cons] at hm hn
    unfold scan
    cases hmatch : p.matchStart (c :: s) with
    | none =>
      have hrec := scan_eq_of_le p (s := s) (Nat.le_of_succ_le_succ hm)
        (Nat.le_of_succ_le_succ hn)
      simp only [hrec]
    | some found =>
      have hlt := p.rest_shorter hmatch
      rw [List.length_cons] at hlt
      have hrec := scan_eq_of_le p (m := m) (n := n) (s := found.2) (by omega) (by omega)
      simp only [hrec]

theorem tokens_cons_of_none (p : Pattern α β) {c : α} {s : List α}
    (h : p.matchStart (c :: s) = none) : p.tokens (c :: s) = .inl c :: p.tokens s := by
  unfold tokens
  rw [List.length_cons, scan, h]

theorem tokens_of_some (p : Pattern α β) {s rest : List α} {b : β}
    (h : p.matchStart s = some (b, rest)) : p.tokens s = .inr b :: p.tokens rest := by
  have hlt := p.rest_shorter h
  cases s with
  | nil => exact absurd hlt (Nat.not_lt_zero _)
  | cons c s =>
    unfold tokens
    rw [List.length_cons] at hlt ⊢
    rw [scan, h]
    simp only
    rw [p.scan_eq_of_le (Nat.le_of_lt_succ hlt) (le_refl _)]

/-! ## Stretches without a match -/

/-- The leading literal does not overlap itself. -/
def Separated (p : Pattern α β) : Prop := ∀ c ∈ p.lead.head?, c ∉ p.lead.tail

/-- A stretch without the leading literal, up to where the literal may begin. -/
theorem tokens_append (p : Pattern α β) {x s : List α} (hx : ¬ p.lead <:+: x)
    (hs : ∀ c ∈ s.head?, c ∉ p.lead.tail) :
    p.tokens (x ++ s) = x.map .inl ++ p.tokens s := by
  induction x with
  | nil => rfl
  | cons c x ih =>
    have hnone : p.matchStart (c :: (x ++ s)) = none := by
      cases hmatch : p.matchStart (c :: (x ++ s)) with
      | none => rfl
      | some found =>
        have hlead := p.lead_prefix hmatch
        rw [← List.cons_append, prefix_append_iff_of_head (List.cons_ne_nil c x) hs] at hlead
        exact absurd hlead.isInfix hx
    rw [List.cons_append, p.tokens_cons_of_none hnone]
    rw [ih fun h => hx (List.infix_cons_iff.mpr (Or.inr h))]
    rfl

theorem finditer_append (p : Pattern α β) {x s : List α} (hx : ¬ p.lead <:+: x)
    (hs : ∀ c ∈ s.head?, c ∉ p.lead.tail) : p.finditer (x ++ s) = p.finditer s := by
  unfold finditer
  rw [p.tokens_append hx hs, List.filterMap_append, List.filterMap_map]
  have hnone : Sum.getRight? ∘ Sum.inl = fun _ : α => (none : Option β) := rfl
  rw [hnone, List.filterMap_none, List.nil_append]

theorem finditer_of_some (p : Pattern α β) {s rest : List α} {b : β}
    (h : p.matchStart s = some (b, rest)) : p.finditer s = b :: p.finditer rest := by
  unfold finditer
  rw [p.tokens_of_some h]
  rfl

theorem finditer_eq_nil (p : Pattern α β) {s : List α} (hs : ¬ p.lead <:+: s) :
    p.finditer s = [] := by
  have h := p.finditer_append (s := []) hs fun c hc => absurd hc (Option.not_mem_none c)
  rw [List.append_nil] at h
  exact h

theorem search_append (p : Pattern α β) {x s rest : List α} {b : β} (hx : ¬ p.lead <:+: x)
    (hs : ∀ c ∈ s.head?, c ∉ p.lead.tail) (h : p.matchStart s = some (b, rest)) :
    p.search (x ++ s) = some b := by
  unfold search
  rw [p.finditer_append hx hs, p.finditer_of_some h]
  rfl

theorem search_eq_none (p : Pattern α β) {s : List α} (hs : ¬ p.lead <:+: s) :
    p.search s = none := by
  unfold search
  rw [p.finditer_eq_nil hs]
  rfl

theorem sub_append (p : Pattern α β) (f : β → List α) {x s : List α} (hx : ¬ p.lead <:+: x)
    (hs : ∀ c ∈ s.head?, c ∉ p.lead.tail) : p.sub f (x ++ s) = x ++ p.sub f s := by
  unfold sub
  rw [p.tokens_append hx hs, List.flatMap_append, List.flatMap_map]
  congr 1
  exact List.flatMap_singleton' x

theorem sub_of_some (p : Pattern α β) (f : β → List α) {s rest : List α} {b : β}
    (h : p.matchStart s = some (b, rest)) : p.sub f s = f b ++ p.sub f rest := by
  unfold sub
  rw [p.tokens_of_some h]
  rfl

theorem sub_cons_of_none (p : Pattern α β) (f : β → List α) {c : α} {s : List α}
    (h : p.matchStart (c :: s) = none) : p.sub f (c :: s) = c :: p.sub f s := by
  unfold sub
  rw [p.tokens_cons_of_none h]
  rfl

/-- What a scan finds was matched at some place of the text. -/
theorem exists_match_of_mem_scan (p : Pattern α β) {b : β} :
    ∀ {n : ℕ} {s : List α}, .inr b ∈ p.scan n s →
      ∃ before s' rest : List α, s = before ++ s' ∧ p.matchStart s' = some (b, rest)
  | 0, s, h => absurd h List.not_mem_nil
  | n + 1, [], h => absurd h List.not_mem_nil
  | n + 1, c :: s, h => by
    unfold scan at h
    cases hmatch : p.matchStart (c :: s) with
    | none =>
      simp only [hmatch, List.mem_cons, reduceCtorEq, false_or] at h
      obtain ⟨before, s', rest, rfl, hs'⟩ := exists_match_of_mem_scan p h
      exact ⟨c :: before, s', rest, rfl, hs'⟩
    | some found =>
      simp only [hmatch, List.mem_cons, Sum.inr.injEq] at h
      rcases h with rfl | h
      · exact ⟨[], c :: s, found.2, rfl, hmatch⟩
      · obtain ⟨before, s', rest, hrest, hs'⟩ := exists_match_of_mem_scan p h
        obtain ⟨span, hspan⟩ := p.rest_suffix hmatch
        refine ⟨span ++ before, s', rest, ?_, hs'⟩
        rw [← hspan, hrest, List.append_assoc]

theorem exists_match_of_finditer (p : Pattern α β) {s : List α} {b : β} (h : b ∈ p.finditer s) :
    ∃ before s' rest : List α, s = before ++ s' ∧ p.matchStart s' = some (b, rest) := by
  obtain ⟨token, htoken, hb⟩ := List.mem_filterMap.mp h
  rw [Sum.getRight?_eq_some_iff] at hb
  rw [hb] at htoken
  exact p.exists_match_of_mem_scan htoken

theorem exists_match_of_search (p : Pattern α β) {s : List α} {b : β}
    (h : p.search s = some b) :
    ∃ before s' rest : List α, s = before ++ s' ∧ p.matchStart s' = some (b, rest) :=
  p.exists_match_of_finditer (List.mem_of_head? h)

end Pattern

/-! ## Literals -/

section Literal

variable {α : Type*} [DecidableEq α]

/-- A literal that is not empty. -/
def literal (pat : List α) (hne : pat ≠ []) : Pattern α Unit where
  lead := pat
  lead_ne_nil := hne
  follow s := some ((), s)
  follow_suffix := by
    intro s b rest h
    cases h
    exact List.suffix_refl s

/-- `s.count(pat)`. -/
def count (pat : List α) (hne : pat ≠ []) (s : List α) : ℕ :=
  ((literal pat hne).finditer s).length

/-- `s.replace(pat, new)`. -/
def replaceAll (pat : List α) (hne : pat ≠ []) (new s : List α) : List α :=
  (literal pat hne).sub (fun _ => new) s

end Literal

end PyRe
