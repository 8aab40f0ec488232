/-
# Pages by offset

A list is read in pages of at most `limit` members.  The token of a page is the offset at
which it starts, and the last page has none.  Whoever follows the tokens from the first page
to the last one has read the list.

A search may fail, and it may count members that it does not return: then there are as many
pages as the number that it counts asks for.
-/
import Mathlib.Data.List.Basic
import Std.Data.String.ToNat

/-- A page with the token of the next one. -/
structure Page (α : Type*) where
  items : List α
  nextPageId : Option String

namespace OffsetPages

variable {α : Type*}

/-- The offset that a token stands for; a token that is not a number is read as the first. -/
def offset (pageId : Option String) : ℕ := (pageId.bind String.toNat?).getD 0

@[simp] theorem offset_toString (n : ℕ) : offset (some (toString n)) = n := by
  unfold offset
  rw [Option.bind_some]
  show (String.toNat? (Nat.repr n)).getD 0 = n
  rw [Nat.toNat?_repr]
  rfl

/-- The page that starts at an offset. -/
def pageAt (xs : List α) (limit start : ℕ) : Page α where
  items := (xs.drop start).take limit
  nextPageId := if start + limit < xs.length then some (toString (start + limit)) else none

/-- The items of the pages from a token on, one page after the other. -/
def follow (search : Option String → Page α) : ℕ → Option String → Option (List α)
  | 0, _ => none
  | fuel + 1, pageId =>
    match (search pageId).nextPageId with
    | none => some (search pageId).items
    | some next => (follow search fuel (some next)).map ((search pageId).items ++ ·)

/-- A search that returns the pages of a list. -/
def Serves (search : Option String → Page α) (xs : List α) (limit : ℕ) : Prop :=
  ∀ pageId, search pageId = pageAt xs limit (offset pageId)

variable {search : Option String → Page α} {xs : List α} {limit : ℕ}

/-- **The pages from a token on hold what is behind its offset.** -/
theorem follow_eq (h : Serves search xs limit) (hlimit : 0 < limit) (fuel : ℕ)
    (pageId : Option String) (hfuel : xs.length < fuel + offset pageId) :
    0 < fuel → follow search fuel pageId = some (xs.drop (offset pageId)) := by
  induction fuel generalizing pageId with
  | zero => exact fun hzero => absurd hzero (Nat.lt_irrefl 0)
  | succ fuel ih =>
    intro _
    unfold follow
    rw [h pageId]
    unfold pageAt
    by_cases hnext : offset pageId + limit < xs.length
    · -- the rest is behind a token that is further on
      rw [if_pos hnext]
      have hrest := ih (some (toString (offset pageId + limit)))
        (by rw [offset_toString]; omega) (by omega)
      rw [offset_toString] at hrest
      simp only [hrest, Option.map_some]
      rw [← List.drop_drop, List.take_append_drop]
    · rw [if_neg hnext]
      show some _ = some _
      rw [List.take_of_length_le (by rw [List.length_drop]; omega)]

/-- Following the tokens from the first page reads the list. -/
theorem follow_none (h : Serves search xs limit) (hlimit : 0 < limit) {fuel : ℕ}
    (hfuel : xs.length < fuel) : follow search fuel none = some xs :=
  follow_eq h hlimit fuel none (by exact hfuel) (Nat.zero_lt_of_lt hfuel)

/-! ## Pages by number -/

/-- Page number `i`. -/
def page (xs : List α) (limit i : ℕ) : List α := (xs.drop (i * limit)).take limit

/-- The number of pages of `size` members, of which there is at least one. -/
def pageCount (size limit : ℕ) : ℕ := (size - 1) / limit + 1

theorem pageCount_pos (size limit : ℕ) : 0 < pageCount size limit := Nat.succ_pos _

theorem length_page_le (xs : List α) (limit i : ℕ) : (page xs limit i).length ≤ limit :=
  List.length_take_le _ _

/-- A page has another one behind it if its end is not that of the members. -/
theorem succ_lt_pageCount_iff {size i : ℕ} (hlimit : 0 < limit) :
    i + 1 < pageCount size limit ↔ i * limit + limit < size := by
  unfold pageCount
  rw [Nat.add_lt_add_iff_right, ← Nat.succ_le_iff, Nat.le_div_iff_mul_le hlimit, Nat.succ_mul]
  omega

theorem flatMap_page (xs : List α) (limit n : ℕ) :
    (List.range n).flatMap (page xs limit) = xs.take (n * limit) := by
  induction n with
  | zero => rw [Nat.zero_mul, List.take_zero]; rfl
  | succ n ih =>
    rw [List.range_succ, List.flatMap_append, ih, List.flatMap_singleton, page, Nat.succ_mul,
      List.take_add]

/-- The pages together are the list. -/
theorem flatMap_page_pageCount {size : ℕ} (hlimit : 0 < limit) (hsize : xs.length ≤ size) :
    (List.range (pageCount size limit)).flatMap (page xs limit) = xs := by
  rw [flatMap_page]
  refine List.take_of_length_le (Nat.le_trans hsize ?_)
  have hpos := pageCount_pos size limit
  have hlast : pageCount size limit - 1 + 1 < pageCount size limit ↔
      (pageCount size limit - 1) * limit + limit < size := succ_lt_pageCount_iff hlimit
  rw [Nat.sub_add_cancel hpos, ← Nat.succ_mul, Nat.succ_eq_add_one, Nat.sub_add_cancel hpos]
    at hlast
  exact Nat.le_of_not_lt (hlast.not.mp (Nat.lt_irrefl _))

/-- The items of the pages of a search that may fail. -/
def followAny (search : Option String → Option (Page α)) : ℕ → Option String → Option (List α)
  | 0, _ => none
  | fuel + 1, pageId =>
    (search pageId).bind fun found =>
      match found.nextPageId with
      | none => some found.items
      | some next => (followAny search fuel (some next)).map (found.items ++ ·)

/-- A search that does not fail. -/
theorem followAny_some (search : Option String → Page α) (fuel : ℕ) (pageId : Option String) :
    followAny (fun pageId => some (search pageId)) fuel pageId = follow search fuel pageId := by
  induction fuel generalizing pageId with
  | zero => rfl
  | succ fuel ih =>
    rw [followAny, follow, Option.bind_some]
    cases (search pageId).nextPageId with
    | none => rfl
    | some next => exact congrArg (Option.map _) (ih (some next))

/-- More requests than are needed change nothing. -/
theorem followAny_mono {search : Option String → Option (Page α)} {fuel : ℕ}
    {pageId : Option String} {found : List α} (h : followAny search fuel pageId = some found)
    {fuel' : ℕ} (hle : fuel ≤ fuel') : followAny search fuel' pageId = some found := by
  induction fuel generalizing fuel' pageId found with
  | zero => cases h
  | succ fuel ih =>
    obtain ⟨fuel', rfl⟩ : ∃ k, fuel' = k + 1 := ⟨fuel' - 1, by omega⟩
    rw [followAny] at h ⊢
    cases hsearch : search pageId with
    | none =>
      rw [hsearch] at h
      cases h
    | some found =>
      rw [hsearch] at h
      simp only [Option.bind_some] at h ⊢
      cases hnext : found.nextPageId with
      | none =>
        rw [hnext] at h
        exact h
      | some next =>
        rw [hnext] at h
        obtain ⟨rest, hrest, hfound⟩ := Option.map_eq_some_iff.mp h
        simp only [ih hrest (Nat.le_of_succ_le_succ hle), Option.map_some, hfound]

/-- Following `n` tokens from one on, each of them the next of the one before. -/
theorem followAny_of_tokens {search : Option String → Option (Page α)}
    {token : ℕ → Option String} {items : ℕ → List α} {n : ℕ}
    (hsearch : ∀ t < n, search (token t)
      = some ⟨items t, if t + 1 < n then token (t + 1) else none⟩)
    (htoken : ∀ t, t + 1 < n → (token (t + 1)).isSome = true) :
    ∀ k t : ℕ, t + (k + 1) = n → ∀ fuel, k < fuel →
      followAny search fuel (token t) = some ((List.range' t (k + 1)).flatMap items) := by
  intro k
  induction k with
  | zero =>
    rintro t rfl (_ | fuel) hfuel
    · exact absurd hfuel (Nat.lt_irrefl 0)
    · rw [followAny, hsearch t (by omega), if_neg (by omega)]
      simp
  | succ k ih =>
    rintro t hn (_ | fuel) hfuel
    · exact absurd hfuel (Nat.not_lt_zero _)
    · obtain ⟨next, hnext⟩ := Option.isSome_iff_exists.mp (htoken t (by omega))
      have hrest := ih (t + 1) (by omega) fuel (by omega)
      rw [followAny, hsearch t (by omega), if_pos (by omega), hnext, Option.bind_some]
      rw [hnext] at hrest
      simp only [hrest, Option.map_some]
      rfl

end OffsetPages
