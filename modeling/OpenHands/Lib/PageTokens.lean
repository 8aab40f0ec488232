/-
# Following page tokens

A list is read in pages of at most `limit` members.  A page that is not the last one names
the first member behind it as its token, and the page of a token starts behind the first member
with that name.

The two disagree about the member that the token names: it is behind its page and in front of
the next one.  `follow_of_seamless` and `seamless_of_follow` say when the pages together still
hold the wanted members once each, for a list that is sorted by name.
-/
import Mathlib.Data.List.Nodup

namespace PageTokens

variable {α κ : Type*} [DecidableEq κ] (name : α → κ) (xs : List α) (limit : ℕ)

/-- Where the page of a token starts. -/
def startAfter (token : κ) : ℕ :=
  match xs.findIdx? fun x => name x = token with
  | some i => i + 1
  | none => 0

/-- The page from `start` on. -/
def page (start : ℕ) : List α := (xs.drop start).take limit

/-- The token of the page from `start` on. -/
def nextToken (start : ℕ) : Option κ := xs[start + limit]?.map name

/-- The pages from `start` on, until one has no token. -/
def follow : ℕ → ℕ → Option (List (List α))
  | 0, _ => none
  | fuel + 1, start =>
    match nextToken name xs limit start with
    | none => some [page xs limit start]
    | some token => (follow fuel (startAfter name xs token)).map (page xs limit start :: ·)

/-- No wanted member stands between two places. -/
def Quiet (wanted : α → Bool) (a b : ℕ) : Prop :=
  ∀ i x, xs[i]? = some x → a ≤ i → i < b → wanted x = false

/-- The pages come to an end, and between the end of a page and the start of the next one, in
either order, no wanted member stands. -/
inductive Seamless (wanted : α → Bool) : ℕ → Prop
  | last {start : ℕ} (hlast : nextToken name xs limit start = none) : Seamless wanted start
  | next {start : ℕ} {token : κ} (hnext : nextToken name xs limit start = some token)
      (hlost : Quiet xs wanted (start + limit) (startAfter name xs token))
      (hagain : Quiet xs wanted (startAfter name xs token) (start + limit))
      (hrest : Seamless wanted (startAfter name xs token)) : Seamless wanted start

/-! ## Places -/

section Places

variable {xs limit} {wanted : α → Bool} {a b start : ℕ}

/-- The members from `a` on are those up to `b` and those from `b` on. -/
theorem drop_eq_append (hab : a ≤ b) : xs.drop a = (xs.drop a).take (b - a) ++ xs.drop b := by
  have hdrop : (xs.drop a).drop (b - a) = xs.drop b := by
    rw [List.drop_drop, Nat.add_sub_cancel' hab]
  rw [← hdrop, List.take_append_drop]

theorem mem_drop_iff {x : α} : x ∈ xs.drop a ↔ ∃ i, a ≤ i ∧ xs[i]? = some x := by
  rw [List.mem_iff_getElem?]
  constructor
  · rintro ⟨i, hi⟩
    rw [List.getElem?_drop] at hi
    exact ⟨a + i, Nat.le_add_right a i, hi⟩
  · rintro ⟨i, ha, hi⟩
    exact ⟨i - a, by rw [List.getElem?_drop, Nat.add_sub_cancel' ha]; exact hi⟩

theorem mem_take_drop_iff {x : α} {n : ℕ} :
    x ∈ (xs.drop a).take n ↔ ∃ i, a ≤ i ∧ i < a + n ∧ xs[i]? = some x := by
  rw [List.mem_iff_getElem?]
  constructor
  · rintro ⟨i, hi⟩
    rw [List.getElem?_take] at hi
    split_ifs at hi with hn
    rw [List.getElem?_drop] at hi
    exact ⟨a + i, Nat.le_add_right a i, Nat.add_lt_add_left hn a, hi⟩
  · rintro ⟨i, ha, hn, hi⟩
    refine ⟨i - a, ?_⟩
    rw [List.getElem?_take, if_pos (by omega), List.getElem?_drop, Nat.add_sub_cancel' ha]
    exact hi

/-- Where nothing wanted stands the wanted members from there on are the same. -/
theorem filter_drop_of_quiet (hab : a ≤ b) (hquiet : Quiet xs wanted a b) :
    (xs.drop a).filter wanted = (xs.drop b).filter wanted := by
  have hnone : ((xs.drop a).take (b - a)).filter wanted = [] := by
    rw [List.filter_eq_nil_iff]
    intro x hx
    obtain ⟨i, hai, hib, hi⟩ := mem_take_drop_iff.mp hx
    rw [hquiet i x hi hai (by omega)]
    exact Bool.false_ne_true
  rw [drop_eq_append hab, List.filter_append, hnone, List.nil_append]

/-- The place of a member is the only one. -/
theorem place_unique (hnodup : xs.Nodup) {i j : ℕ} {x : α} (hi : xs[i]? = some x)
    (hj : xs[j]? = some x) : i = j := by
  obtain ⟨hi', rfl⟩ := List.getElem?_eq_some_iff.mp hi
  obtain ⟨hj', heq⟩ := List.getElem?_eq_some_iff.mp hj
  exact (hnodup.getElem_inj_iff.mp heq).symm

end Places

/-! ## Tokens -/

section Tokens

variable {name xs limit} {start start' : ℕ} {token token' : κ}

omit [DecidableEq κ] in
/-- A token is the name of the member behind the page. -/
theorem nextToken_eq_some_iff : nextToken name xs limit start = some token ↔
    ∃ x, xs[start + limit]? = some x ∧ name x = token :=
  Option.map_eq_some_iff

/-- The page of a token that some member has starts behind the first such member. -/
theorem startAfter_spec {i : ℕ} {x : α} (hx : xs[i]? = some x) (hname : name x = token) :
    ∃ j y, startAfter name xs token = j + 1 ∧ j ≤ i ∧ xs[j]? = some y ∧ name y = token ∧
      ∀ k < j, ∀ z, xs[k]? = some z → name z ≠ token := by
  obtain ⟨hi, rfl⟩ := List.getElem?_eq_some_iff.mp hx
  unfold startAfter
  cases hfound : xs.findIdx? fun x => name x = token with
  | none =>
      rw [List.findIdx?_eq_none_iff] at hfound
      simpa [hname] using hfound _ (List.getElem_mem hi)
  | some j =>
      obtain ⟨hj, hat, hbefore⟩ := List.findIdx?_eq_some_iff_getElem.mp hfound
      have hfirst : ∀ k < j, ∀ z, xs[k]? = some z → name z ≠ token := by
        intro k hk z hz
        obtain ⟨_, rfl⟩ := List.getElem?_eq_some_iff.mp hz
        simpa using hbefore k hk
      refine ⟨j, xs[j], rfl, ?_, List.getElem?_eq_getElem hj, by simpa using hat, hfirst⟩
      by_contra hlt
      exact hfirst i (by omega) xs[i] hx hname

variable {r : κ → κ → Prop} (hanti : ∀ a b, r a b → r b a → a = b)
  (hsorted : xs.Pairwise fun x y => r (name x) (name y))

include hanti hsorted

/-- In a sorted list a later page has a later next page. -/
theorem startAfter_mono (hstart : start ≤ start')
    (hnext : nextToken name xs limit start = some token)
    (hnext' : nextToken name xs limit start' = some token') :
    startAfter name xs token ≤ startAfter name xs token' := by
  obtain ⟨x, hx, hname⟩ := nextToken_eq_some_iff.mp hnext
  obtain ⟨x', hx', hname'⟩ := nextToken_eq_some_iff.mp hnext'
  obtain ⟨j, y, hj, hle, hy, hyname, hfirst⟩ := startAfter_spec hx hname
  obtain ⟨j', y', hj', hle', hy', hyname', -⟩ := startAfter_spec hx' hname'
  rw [hj, hj']
  by_contra hlt
  have hjj : j' < j := by omega
  have hstep : ∀ {a b : ℕ} {u v : α}, xs[a]? = some u → xs[b]? = some v → a < b →
      r (name u) (name v) := by
    intro a b u v hu hv hab
    obtain ⟨ha, rfl⟩ := List.getElem?_eq_some_iff.mp hu
    obtain ⟨hb, rfl⟩ := List.getElem?_eq_some_iff.mp hv
    exact List.pairwise_iff_getElem.mp hsorted a b ha hb hab
  -- the first member named `token` stands between the two members named `token'`
  have hbetween : j ≤ start' + limit := by omega
  have hsame : token = token' := by
    rcases Nat.lt_or_eq_of_le hbetween with hbefore | hat
    · have hto : r token' token := hyname ▸ hyname' ▸ hstep hy' hy hjj
      have hfro : r token token' := hyname ▸ hname' ▸ hstep hy hx' hbefore
      exact hanti token token' hfro hto
    · rw [hat, hx'] at hy
      cases hy
      exact hyname.symm.trans hname'
  exact hfirst j' hjj y' hy' (hyname'.trans hsame.symm)

/-- When the next page does not start later, the pages never come to an end. -/
theorem follow_eq_none_of_stuck (hnext : nextToken name xs limit start = some token)
    (hstuck : startAfter name xs token ≤ start) (fuel : ℕ) (hstart : start' ≤ start) :
    follow name xs limit fuel start' = none := by
  induction fuel generalizing start' with
  | zero => rfl
  | succ fuel ih =>
      obtain ⟨x, hx, -⟩ := nextToken_eq_some_iff.mp hnext
      have hlt : start' + limit < xs.length := by
        have hlt := (List.getElem?_eq_some_iff.mp hx).1
        omega
      have hnext' : nextToken name xs limit start' = some (name xs[start' + limit]) :=
        nextToken_eq_some_iff.mpr ⟨_, List.getElem?_eq_getElem hlt, rfl⟩
      have hback := startAfter_mono hanti hsorted hstart hnext' hnext
      unfold follow
      rw [hnext']
      show Option.map _ (follow name xs limit fuel _) = none
      rw [ih (Nat.le_trans hback hstuck)]
      rfl

/-- Pages that come to an end start one behind the other. -/
theorem lt_startAfter_of_follow {fuel : ℕ} {pages : List (List α)}
    (hpages : follow name xs limit fuel start = some pages)
    (hnext : nextToken name xs limit start = some token) : start < startAfter name xs token := by
  by_contra hstuck
  rw [follow_eq_none_of_stuck hanti hsorted hnext (by omega) _ (Nat.le_refl start)] at hpages
  cases hpages

/-- Pages that come to an end hold members from the first start on only. -/
theorem mem_drop_of_follow {fuel : ℕ} {pages : List (List α)}
    (hpages : follow name xs limit fuel start = some pages) {x : α} (hx : x ∈ pages.flatten) :
    x ∈ xs.drop start := by
  induction fuel generalizing start pages with
  | zero => cases hpages
  | succ fuel ih =>
      have hall := hpages
      unfold follow at hpages
      cases hnext : nextToken name xs limit start with
      | none =>
          rw [hnext] at hpages
          cases hpages
          rw [List.flatten_singleton] at hx
          exact List.mem_of_mem_take hx
      | some token =>
          rw [hnext] at hpages
          obtain ⟨rest, hrest, rfl⟩ := Option.map_eq_some_iff.mp hpages
          rw [List.flatten_cons, List.mem_append] at hx
          rcases hx with hx | hx
          · exact List.mem_of_mem_take hx
          · obtain ⟨i, hi, hat⟩ := mem_drop_iff.mp (ih hrest hx)
            have hlt := lt_startAfter_of_follow hanti hsorted hall hnext
            exact mem_drop_iff.mpr ⟨i, by omega, hat⟩

end Tokens

/-! ## The pages together -/

section Pages

variable {name xs limit} {wanted : α → Bool} {start : ℕ}

/-- The page and what comes behind it. -/
theorem drop_eq_page_append (limit start : ℕ) :
    xs.drop start = page xs limit start ++ xs.drop (start + limit) := by
  rw [drop_eq_append (Nat.le_add_right start limit), Nat.add_sub_cancel_left]
  rfl

/-- Seamless pages hold the wanted members once each and in order. -/
theorem follow_of_seamless (h : Seamless name xs limit wanted start) :
    ∃ fuel pages, follow name xs limit fuel start = some pages ∧
      pages.flatten.filter wanted = (xs.drop start).filter wanted := by
  induction h with
  | @last start hlast =>
      refine ⟨1, [page xs limit start], ?_, ?_⟩
      · unfold follow
        rw [hlast]
      · have hend : xs.drop (start + limit) = [] := by
          unfold nextToken at hlast
          rw [Option.map_eq_none_iff, List.getElem?_eq_none_iff] at hlast
          exact List.drop_eq_nil_of_le hlast
        rw [List.flatten_singleton, drop_eq_page_append limit start, hend,
          List.append_nil]
  | @next start token hnext hlost hagain _ ih =>
      obtain ⟨fuel, pages, hpages, hall⟩ := ih
      refine ⟨fuel + 1, page xs limit start :: pages, ?_, ?_⟩
      · unfold follow
        rw [hnext]
        show Option.map _ (follow name xs limit fuel _) = _
        rw [hpages]
        rfl
      · have hbehind : (xs.drop (startAfter name xs token)).filter wanted
            = (xs.drop (start + limit)).filter wanted := by
          rcases Nat.le_total (start + limit) (startAfter name xs token) with hle | hle
          · exact (filter_drop_of_quiet hle hlost).symm
          · exact filter_drop_of_quiet hle hagain
        rw [List.flatten_cons, List.filter_append, hall, hbehind, ← List.filter_append,
          ← drop_eq_page_append]

/-- The first page is among the pages. -/
theorem page_subset_of_follow {fuel : ℕ} {pages : List (List α)}
    (hpages : follow name xs limit fuel start = some pages) :
    page xs limit start ⊆ pages.flatten := by
  cases fuel with
  | zero => cases hpages
  | succ fuel =>
      unfold follow at hpages
      cases hnext : nextToken name xs limit start with
      | none =>
          rw [hnext] at hpages
          cases hpages
          rw [List.flatten_singleton]
          exact List.Subset.refl _
      | some token =>
          rw [hnext] at hpages
          obtain ⟨rest, -, rfl⟩ := Option.map_eq_some_iff.mp hpages
          rw [List.flatten_cons]
          exact List.subset_append_left _ _

variable {r : κ → κ → Prop} (hanti : ∀ a b, r a b → r b a → a = b)
  (hsorted : xs.Pairwise fun x y => r (name x) (name y)) (hnodup : xs.Nodup)

include hanti hsorted hnodup

/-- Pages that hold the wanted members once each and in order are seamless. -/
theorem seamless_of_follow {fuel : ℕ} {pages : List (List α)}
    (hpages : follow name xs limit fuel start = some pages)
    (hall : pages.flatten.filter wanted = (xs.drop start).filter wanted) :
    Seamless name xs limit wanted start := by
  induction fuel generalizing start pages with
  | zero => cases hpages
  | succ fuel ih =>
      have hfollow := hpages
      unfold follow at hpages
      cases hnext : nextToken name xs limit start with
      | none => exact .last hnext
      | some token =>
          rw [hnext] at hpages
          obtain ⟨rest, hrest, rfl⟩ := Option.map_eq_some_iff.mp hpages
          have hahead := lt_startAfter_of_follow hanti hsorted hfollow hnext
          have hbehind : rest.flatten.filter wanted
              = (xs.drop (start + limit)).filter wanted := by
            rw [List.flatten_cons, List.filter_append,
              drop_eq_page_append limit start, List.filter_append] at hall
            exact List.append_cancel_left hall
          have hlost : Quiet xs wanted (start + limit) (startAfter name xs token) := by
            intro i x hi hfrom hto
            by_contra hwanted
            rw [Bool.not_eq_false] at hwanted
            have hmem : x ∈ rest.flatten.filter wanted := by
              rw [hbehind]
              exact List.mem_filter.mpr ⟨mem_drop_iff.mpr ⟨i, hfrom, hi⟩, hwanted⟩
            obtain ⟨i', hfrom', hi'⟩ := mem_drop_iff.mp
              (mem_drop_of_follow hanti hsorted hrest (List.mem_filter.mp hmem).1)
            have hsame := place_unique hnodup hi hi'
            omega
          have hagain : Quiet xs wanted (startAfter name xs token) (start + limit) := by
            intro i x hi hfrom hto
            by_contra hwanted
            rw [Bool.not_eq_false] at hwanted
            have hpage : x ∈ page xs limit (startAfter name xs token) :=
              mem_take_drop_iff.mpr ⟨i, hfrom, by omega, hi⟩
            have hmem : x ∈ (xs.drop (start + limit)).filter wanted := by
              rw [← hbehind]
              exact List.mem_filter.mpr ⟨page_subset_of_follow hrest hpage, hwanted⟩
            obtain ⟨i', hfrom', hi'⟩ := mem_drop_iff.mp (List.mem_filter.mp hmem).1
            have hsame := place_unique hnodup hi hi'
            omega
          refine .next hnext hlost hagain (ih hrest ?_)
          rw [hbehind]
          rcases Nat.le_total (start + limit) (startAfter name xs token) with hle | hle
          · exact filter_drop_of_quiet hle hlost
          · exact (filter_drop_of_quiet hle hagain).symm

end Pages

/-! ## Distinct names -/

section Distinct

variable {name xs limit} {wanted : α → Bool} {start : ℕ} {token : κ}
  (hnames : (xs.map name).Nodup)

include hnames

/-- With distinct names a token names the member that neither page holds. -/
theorem startAfter_of_nodup (hnext : nextToken name xs limit start = some token) :
    startAfter name xs token = start + limit + 1 := by
  obtain ⟨x, hx, hname⟩ := nextToken_eq_some_iff.mp hnext
  obtain ⟨j, y, hj, -, hy, hyname, -⟩ := startAfter_spec hx hname
  have hmap : ∀ {k : ℕ} {z : α}, xs[k]? = some z → (xs.map name)[k]? = some (name z) := by
    intro k z hz
    rw [List.getElem?_map, hz]
    rfl
  have hplace : j = start + limit := by
    refine place_unique hnames (hmap hy) ?_
    rw [hmap hx, hname, hyname]
  rw [hj, hplace]

/-- With distinct names the pages are seamless exactly when the member behind each page, one in
every `limit + 1`, is not wanted. -/
theorem seamless_iff_of_nodup : Seamless name xs limit wanted start ↔
    ∀ i x, xs[i]? = some x → start ≤ i → (i - start) % (limit + 1) = limit → wanted x = false := by
  have hlate : ∀ {start i : ℕ}, start + limit + 1 ≤ i →
      (i - start) % (limit + 1) = (i - (start + limit + 1)) % (limit + 1) := by
    intro start i hi
    rw [show i - start = i - (start + limit + 1) + (limit + 1) from by omega, Nat.add_mod_right]
  have hearly : ∀ {start i : ℕ}, i < start + limit → (i - start) % (limit + 1) = limit →
      start ≤ i → False := by
    intro start i hi hmod hstart
    rw [Nat.mod_eq_of_lt (by omega)] at hmod
    omega
  constructor
  · intro h
    induction h with
    | @last start hlast =>
        intro i x hx hstart hmod
        have hlen : xs.length ≤ start + limit := by
          unfold nextToken at hlast
          rwa [Option.map_eq_none_iff, List.getElem?_eq_none_iff] at hlast
        have hi := (List.getElem?_eq_some_iff.mp hx).1
        exact (hearly (by omega) hmod hstart).elim
    | @next start token hnext hlost _ _ ih =>
        intro i x hx hstart hmod
        rw [startAfter_of_nodup hnames hnext] at hlost ih
        rcases Nat.lt_trichotomy i (start + limit) with hi | hi | hi
        · exact (hearly hi hmod hstart).elim
        · exact hlost i x hx (by omega) (by omega)
        · exact ih i x hx (by omega) ((hlate (by omega)).symm.trans hmod)
  · intro h
    induction hn : xs.length - start using Nat.strongRecOn generalizing start with
    | ind n ih =>
        cases hnext : nextToken name xs limit start with
        | none => exact .last hnext
        | some token =>
            obtain ⟨x, hx, -⟩ := nextToken_eq_some_iff.mp hnext
            have hlen := (List.getElem?_eq_some_iff.mp hx).1
            have hplace := startAfter_of_nodup hnames hnext
            refine .next hnext ?_ ?_ ?_
            · intro i y hy hfrom hto
              rw [hplace] at hto
              have hi : i - start = limit := by omega
              exact h i y hy (by omega) (by rw [hi, Nat.mod_eq_of_lt (Nat.lt_succ_self limit)])
            · intro i y _ hfrom hto
              omega
            · rw [hplace]
              refine ih _ ?_ ?_ rfl
              · omega
              · intro i y hy hstart hmod
                exact h i y hy (by omega) ((hlate hstart).trans hmod)

end Distinct

end PageTokens
