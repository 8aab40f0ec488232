/-
# Matching brackets with a stack

A sequence whose elements open, close or do neither.  `Balanced` is the grammar of
the stretches in which everything opened is closed, and `Matched l a c` says that
`c` closes what `a` opened: the stretch between them is balanced.

`matchPairs` is the algorithm: push what opens, pop at what closes.  Elements that
close nothing and elements that are never closed are allowed.  `mem_matchPairs_iff`
says that it finds exactly the matched pairs.
-/
import Mathlib.Data.List.Basic
import Mathlib.Data.List.Nodup

namespace Bracket

/-- What an element does in a bracketed sequence. -/
inductive Role where
  | opening
  | closing
  | plain
  deriving DecidableEq

variable {α : Type*} (role : α → Role)

/-! ## Balanced stretches and matched pairs -/

/-- Everything opened in the stretch is closed in it, and conversely. -/
inductive Balanced : List α → Prop
  | nil : Balanced []
  | plain {x : α} {l : List α} : role x = .plain → Balanced l → Balanced (x :: l)
  | pair {a c : α} {m l : List α} : role a = .opening → role c = .closing →
      Balanced m → Balanced l → Balanced (a :: (m ++ c :: l))

/-- `c` closes what `a` opened. -/
def Matched (l : List α) (a c : α) : Prop :=
  ∃ pre mid post, l = pre ++ a :: (mid ++ c :: post) ∧
    role a = .opening ∧ role c = .closing ∧ Balanced role mid

/-- The matched pairs in closing order, from a stack of elements still open. -/
def matchPairs : List α → List α → List (α × α)
  | _, [] => []
  | stack, x :: l =>
    match role x with
    | .opening => matchPairs (x :: stack) l
    | .closing =>
      match stack with
      | [] => matchPairs [] l
      | a :: stack => (a, x) :: matchPairs stack l
    | .plain => matchPairs stack l

variable {role}

/-! ## The steps of the algorithm -/

theorem matchPairs_opening {x : α} (hx : role x = .opening) (stack l : List α) :
    matchPairs role stack (x :: l) = matchPairs role (x :: stack) l := by
  cases stack <;> simp [matchPairs, hx]

theorem matchPairs_plain {x : α} (hx : role x = .plain) (stack l : List α) :
    matchPairs role stack (x :: l) = matchPairs role stack l := by
  cases stack <;> simp [matchPairs, hx]

theorem matchPairs_closing_nil {x : α} (hx : role x = .closing) (l : List α) :
    matchPairs role [] (x :: l) = matchPairs role [] l := by
  simp [matchPairs, hx]

theorem matchPairs_closing_cons {x : α} (hx : role x = .closing) (a : α) (stack l : List α) :
    matchPairs role (a :: stack) (x :: l) = (a, x) :: matchPairs role stack l := by
  simp [matchPairs, hx]

/-! ## Composition -/

/-- Balanced stretches compose. -/
theorem Balanced.append {l m : List α} (hl : Balanced role l) (hm : Balanced role m) :
    Balanced role (l ++ m) := by
  induction hl with
  | nil => exact hm
  | plain hx _ ih => exact .plain hx ih
  | pair ha hc hmid _ _ ih =>
    rw [List.cons_append, List.append_assoc, List.cons_append]
    exact .pair ha hc hmid ih

/-- A single plain element is balanced. -/
theorem Balanced.single {x : α} (hx : role x = .plain) : Balanced role [x] := .plain hx .nil

/-! ## The matched pairs are found -/

/-- Over a prefix the algorithm emits some pairs and goes on with some stack. -/
theorem exists_matchPairs_append (role : α → Role) (l stack : List α) :
    ∃ pairs stack', ∀ rest,
      matchPairs role stack (l ++ rest) = pairs ++ matchPairs role stack' rest := by
  induction l generalizing stack with
  | nil => exact ⟨[], stack, fun rest => rfl⟩
  | cons x l ih =>
    cases hx : role x with
    | opening =>
      obtain ⟨pairs, stack', h⟩ := ih (x :: stack)
      exact ⟨pairs, stack', fun rest => by rw [List.cons_append, matchPairs_opening hx, h]⟩
    | plain =>
      obtain ⟨pairs, stack', h⟩ := ih stack
      exact ⟨pairs, stack', fun rest => by rw [List.cons_append, matchPairs_plain hx, h]⟩
    | closing =>
      cases stack with
      | nil =>
        obtain ⟨pairs, stack', h⟩ := ih []
        exact ⟨pairs, stack', fun rest => by rw [List.cons_append, matchPairs_closing_nil hx, h]⟩
      | cons a stack =>
        obtain ⟨pairs, stack', h⟩ := ih stack
        refine ⟨(a, x) :: pairs, stack', fun rest => ?_⟩
        rw [List.cons_append, matchPairs_closing_cons hx, h, List.cons_append]

/-- Over a balanced prefix the stack is back where it was. -/
theorem Balanced.matchPairs_append {l : List α} (hl : Balanced role l) :
    ∀ stack, ∃ pairs, ∀ rest,
      matchPairs role stack (l ++ rest) = pairs ++ matchPairs role stack rest := by
  induction hl with
  | nil => exact fun stack => ⟨[], fun rest => rfl⟩
  | plain hx _ ih =>
    intro stack
    obtain ⟨pairs, h⟩ := ih stack
    exact ⟨pairs, fun rest => by rw [List.cons_append, matchPairs_plain hx, h]⟩
  | @pair a c m l ha hc _ _ ihm ihl =>
    intro stack
    obtain ⟨inner, hinner⟩ := ihm (a :: stack)
    obtain ⟨outer, houter⟩ := ihl stack
    refine ⟨inner ++ (a, c) :: outer, fun rest => ?_⟩
    rw [List.cons_append, List.append_assoc, List.cons_append, matchPairs_opening ha, hinner,
      matchPairs_closing_cons hc, houter, List.append_assoc, List.cons_append]

/-- **Completeness**: every matched pair is emitted, whatever is open before. -/
theorem Matched.mem_matchPairs {l : List α} {a c : α} (h : Matched role l a c)
    (stack : List α) : (a, c) ∈ matchPairs role stack l := by
  obtain ⟨pre, mid, post, rfl, ha, hc, hmid⟩ := h
  obtain ⟨pairs, stack', hpre⟩ := exists_matchPairs_append role pre stack
  obtain ⟨inner, hinner⟩ := hmid.matchPairs_append (a :: stack')
  rw [hpre, matchPairs_opening ha, hinner, matchPairs_closing_cons hc]
  simp

/-! ## Only matched pairs are found -/

/-- What has been read so far, with the elements that are still open (the latest
first): after each of them everything is balanced. -/
inductive StillOpen (role : α → Role) : List α → List α → Prop
  | none (l : List α) : StillOpen role l []
  | push {l m stack : List α} {a : α} : StillOpen role l stack → role a = .opening →
      Balanced role m → StillOpen role (l ++ a :: m) (a :: stack)

/-- A balanced stretch more leaves the same elements open. -/
theorem StillOpen.append {l stack m : List α} (h : StillOpen role l stack)
    (hm : Balanced role m) : StillOpen role (l ++ m) stack := by
  cases h with
  | none => exact .none _
  | push hl ha hmid =>
    rw [List.append_assoc, List.cons_append]
    exact .push hl ha (hmid.append hm)

/-- **Soundness**: an emitted pair is matched in the whole sequence. -/
theorem matched_of_mem_matchPairs {l : List α} {a c : α} :
    ∀ {read stack : List α}, StillOpen role read stack → (a, c) ∈ matchPairs role stack l →
      Matched role (read ++ l) a c := by
  induction l with
  | nil =>
    intro read stack _ hmem
    simp [matchPairs] at hmem
  | cons x l ih =>
    intro read stack hopen hmem
    have hread : read ++ x :: l = (read ++ [x]) ++ l := by simp
    cases hx : role x with
    | opening =>
      rw [matchPairs_opening hx] at hmem
      rw [hread]
      exact ih (.push hopen hx .nil) hmem
    | plain =>
      rw [matchPairs_plain hx] at hmem
      rw [hread]
      exact ih (hopen.append (.single hx)) hmem
    | closing =>
      cases hopen with
      | none =>
        rw [matchPairs_closing_nil hx] at hmem
        rw [hread]
        exact ih (.none _) hmem
      | @push pre m stack a' hpre ha' hm =>
        rw [matchPairs_closing_cons hx] at hmem
        rcases List.mem_cons.mp hmem with heq | hmem
        · -- the pair closed by `x` itself
          obtain ⟨rfl, rfl⟩ := Prod.mk.inj heq
          exact ⟨pre, m, l, by simp, ha', hx, hm⟩
        · -- the stretch from the opening element to `x` is balanced now
          have hopen' : StillOpen role (pre ++ a' :: (m ++ x :: [])) stack :=
            hpre.append (.pair ha' hx hm .nil)
          have heq : pre ++ a' :: m ++ x :: l = (pre ++ a' :: (m ++ x :: [])) ++ l := by simp
          rw [heq]
          exact ih hopen' hmem

/-- **The algorithm finds exactly the matched pairs.** -/
theorem mem_matchPairs_iff {l : List α} {a c : α} :
    (a, c) ∈ matchPairs role [] l ↔ Matched role l a c :=
  ⟨fun h => by simpa using matched_of_mem_matchPairs (.none []) h, fun h => h.mem_matchPairs []⟩

/-! ## Matched pairs of distinct elements -/

/-- Every opening element is used once: the first components stem from the stack
and the sequence, without repetition. -/
theorem nodup_map_fst_matchPairs (role : α → Role) {l : List α} :
    ∀ {stack : List α}, (stack ++ l).Nodup →
      ((matchPairs role stack l).map Prod.fst).Nodup ∧
        ∀ p ∈ matchPairs role stack l, p.1 ∈ stack ++ l := by
  induction l with
  | nil =>
    intro stack _
    simp [matchPairs]
  | cons x l ih =>
    intro stack hnodup
    have hrest : (stack ++ l).Nodup := by
      refine hnodup.sublist ?_
      exact (List.Sublist.refl stack).append (List.sublist_cons_self x l)
    have hmono : ∀ y ∈ stack ++ l, y ∈ stack ++ x :: l := by
      intro y hy
      rcases List.mem_append.mp hy with h | h
      · exact List.mem_append_left _ h
      · exact List.mem_append_right _ (List.mem_cons_of_mem x h)
    cases hx : role x with
    | opening =>
      rw [matchPairs_opening hx]
      have hperm : (x :: stack ++ l).Perm (stack ++ x :: l) := List.perm_middle.symm
      obtain ⟨hnd, hmem⟩ := ih (hperm.nodup_iff.mpr hnodup)
      exact ⟨hnd, fun p hp => hperm.mem_iff.mp (hmem p hp)⟩
    | plain =>
      rw [matchPairs_plain hx]
      obtain ⟨hnd, hmem⟩ := ih hrest
      exact ⟨hnd, fun p hp => hmono _ (hmem p hp)⟩
    | closing =>
      cases stack with
      | nil =>
        rw [matchPairs_closing_nil hx]
        obtain ⟨hnd, hmem⟩ := ih hrest
        exact ⟨hnd, fun p hp => hmono _ (hmem p hp)⟩
      | cons a stack =>
        rw [matchPairs_closing_cons hx]
        obtain ⟨ha, hstack⟩ := List.nodup_cons.mp hrest
        obtain ⟨hnd, hmem⟩ := ih hstack
        refine ⟨?_, ?_⟩
        · -- the element on the top of the stack is not seen again
          show (a :: (matchPairs role stack l).map Prod.fst).Nodup
          refine List.nodup_cons.mpr ⟨?_, hnd⟩
          rintro hmap
          obtain ⟨p, hp, rfl⟩ := List.mem_map.mp hmap
          exact ha (hmem p hp)
        · intro p hp
          rcases List.mem_cons.mp hp with rfl | hp
          · exact List.mem_append_left _ List.mem_cons_self
          · exact hmono _ (List.mem_cons_of_mem a (hmem p hp))

/-- Both elements of a matched pair stand in the sequence, the opening one first. -/
theorem Matched.rel {l : List α} {R : α → α → Prop} (hl : l.Pairwise R) {a c : α}
    (h : Matched role l a c) : R a c := by
  obtain ⟨pre, mid, post, rfl, -, -, -⟩ := h
  have htail := (List.pairwise_append.mp hl).2.1
  exact List.rel_of_pairwise_cons htail (by simp)

theorem Matched.mem_left {l : List α} {a c : α} (h : Matched role l a c) : a ∈ l := by
  obtain ⟨pre, mid, post, rfl, -, -, -⟩ := h
  simp

theorem Matched.mem_right {l : List α} {a c : α} (h : Matched role l a c) : c ∈ l := by
  obtain ⟨pre, mid, post, rfl, -, -, -⟩ := h
  simp

end Bracket
