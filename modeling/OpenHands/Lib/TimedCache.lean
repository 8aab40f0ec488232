/-
# Answers that are remembered for some time

A cache of answers with the times at which they were stored.  A check of a key first drops the
entries that are too old, and then takes the entry of the key if it is not too old itself; when
there is none, somebody is asked, and the answer is stored when it comes.  `Holds` relates the cache
to a table in which every answer stays until the next one is stored for its key: checks and answers
in any order keep it, and a check takes the same from both.
-/
import Mathlib.Algebra.Order.Ring.Rat
import OpenHands.Lib.PyDict

namespace TimedCache

variable {κ ν ε : Type*} [DecidableEq κ]

/-- An answer and the time at which it was stored. -/
structure Entry (ν : Type*) where
  value : ν
  timestamp : ℚ
  deriving DecidableEq

/-- A way to keep answers: checking a key, at the times at which old entries are dropped and at
which the entry is checked, and storing an answer. -/
structure Keeper (κ ν σ : Type*) where
  check : σ → κ → ℚ → ℚ → Option ν × σ
  store : σ → κ → ν → ℚ → σ

/-- What a lookup meets: the clock when old entries are dropped and when the entry is checked, the
answer if it asks, and the clock when that is stored. -/
structure Look (ε ν : Type*) where
  cleanedAt : ℚ
  checkedAt : ℚ
  answer : Except ε ν
  storedAt : ℚ

/-- The second half of a lookup, when the answer has come. -/
def Keeper.answered {σ : Type*} (keeper : Keeper κ ν σ) (s : σ) (key : κ) (answer : Except ε ν)
    (storedAt : ℚ) : Except ε ν × σ :=
  match answer with
  | .ok value => (.ok value, keeper.store s key value storedAt)
  | .error error => (.error error, s)

/-- A lookup that nothing interrupts. -/
def Keeper.lookup {σ : Type*} (keeper : Keeper κ ν σ) (s : σ) (key : κ) (look : Look ε ν) :
    Except ε ν × σ :=
  match keeper.check s key look.cleanedAt look.checkedAt with
  | (some value, s) => (.ok value, s)
  | (none, s) => keeper.answered s key look.answer look.storedAt

/-- What is stored, the latest first. -/
abbrev Log (κ ν : Type*) := List (κ × Entry ν)

/-- A keeper that writes down what it stores. -/
def Keeper.logged {σ : Type*} (keeper : Keeper κ ν σ) : Keeper κ ν (σ × Log κ ν) where
  check s key cleanedAt checkedAt :=
    let (found, kept) := keeper.check s.1 key cleanedAt checkedAt
    (found, kept, s.2)
  store s key value storedAt :=
    (keeper.store s.1 key value storedAt, (key, ⟨value, storedAt⟩) :: s.2)

/-! ## The cache -/

/-- The entries that are not too old. -/
def cleaned (ttl : ℚ) (cache : PyDict κ (Entry ν)) (now : ℚ) : PyDict κ (Entry ν) :=
  cache.filterKeys fun key =>
    match cache.get? key with
    | some entry => decide (now - entry.timestamp ≤ ttl)
    | none => false

/-- An entry that is found and is not too old. -/
def fresh (ttl now : ℚ) (entry : Option (Entry ν)) : Option (Entry ν) :=
  entry.filter fun entry => decide (now - entry.timestamp ≤ ttl)

/-- Keeping the answers in a cache that is cleaned. -/
def cached (ttl : ℚ) : Keeper κ ν (PyDict κ (Entry ν)) where
  check cache key cleanedAt checkedAt :=
    ((fresh ttl checkedAt ((cleaned ttl cache cleanedAt).get? key)).map Entry.value,
      cleaned ttl cache cleanedAt)
  store cache key value storedAt := cache.set key ⟨value, storedAt⟩

/-! ## A table that forgets nothing -/

/-- The last answer of each key. -/
abbrev Table (κ ν : Type*) := κ → Option (Entry ν)

/-- Keeping the last answers. -/
def lasting (ttl : ℚ) : Keeper κ ν (Table κ ν) where
  check table key _ checkedAt := ((fresh ttl checkedAt (table key)).map Entry.value, table)
  store table key value storedAt :=
    fun k => if k = key then some ⟨value, storedAt⟩ else table k

/-- The cache has some entries of the table, and those that it lacks are too old from some time
on. -/
structure Holds (ttl : ℚ) (cache : PyDict κ (Entry ν)) (table : Table κ ν) (now : ℚ) : Prop where
  sub : ∀ key entry, cache.get? key = some entry → table key = some entry
  old : ∀ key entry, table key = some entry → cache.get? key = none →
    ttl < now - entry.timestamp

section Lookups

variable {ttl : ℚ} {cache : PyDict κ (Entry ν)} {table : Table κ ν} {now : ℚ} {key : κ}
  {look : Look ε ν}

theorem get?_cleaned (cache : PyDict κ (Entry ν)) (now : ℚ) (key : κ) :
    (cleaned ttl cache now).get? key = fresh ttl now (cache.get? key) := by
  unfold cleaned fresh
  rw [PyDict.get?_filterKeys]
  cases hget : cache.get? key with
  | none =>
      rw [if_neg Bool.false_ne_true]
      rfl
  | some entry => rw [Option.filter_some]

theorem fresh_eq_some_iff {entry : Option (Entry ν)} {e : Entry ν} :
    fresh ttl now entry = some e ↔ entry = some e ∧ now - e.timestamp ≤ ttl := by
  unfold fresh
  rw [Option.filter_eq_some_iff]
  simp

theorem fresh_eq_none_iff {entry : Option (Entry ν)} :
    fresh ttl now entry = none ↔ ∀ e, entry = some e → ttl < now - e.timestamp := by
  unfold fresh
  rw [Option.filter_eq_none_iff]
  simp only [decide_eq_true_eq, not_le]

/-- Nothing is stored yet. -/
theorem holds_empty (now : ℚ) :
    Holds ttl (PyDict.empty : PyDict κ (Entry ν)) (fun _ => none) now where
  sub key entry hentry := by cases hentry
  old key entry htable := by cases htable

/-- Time passes. -/
theorem Holds.mono (h : Holds ttl cache table now) {later : ℚ} (hle : now ≤ later) :
    Holds ttl cache table later where
  sub := h.sub
  old key entry htable hcache :=
    lt_of_lt_of_le (h.old key entry htable hcache) (sub_le_sub_right hle _)

/-- Entries that are too old are dropped. -/
theorem Holds.cleaned (h : Holds ttl cache table now) :
    Holds ttl (TimedCache.cleaned ttl cache now) table now where
  sub key entry hentry := by
    rw [get?_cleaned] at hentry
    exact h.sub key entry (fresh_eq_some_iff.mp hentry).1
  old key entry htable hnone := by
    rw [get?_cleaned, fresh_eq_none_iff] at hnone
    cases hget : cache.get? key with
    | none => exact h.old key entry htable hget
    | some entry' =>
        have hsame := h.sub key entry' hget
        rw [htable] at hsame
        cases hsame
        exact hnone entry hget

/-- The entry that is taken. -/
theorem Holds.fresh_eq (h : Holds ttl cache table now) (key : κ) {later : ℚ} (hle : now ≤ later) :
    fresh ttl later (cache.get? key) = fresh ttl later (table key) := by
  cases hget : cache.get? key with
  | some entry => rw [h.sub key entry hget]
  | none =>
      -- the cache dropped the entry, which only happens once it is too old
      symm
      rw [show fresh ttl later (none : Option (Entry ν)) = none from rfl, fresh_eq_none_iff]
      exact fun entry hentry => (h.mono hle).old key entry hentry hget

/-- **A check** takes the same from the cache as from the table. -/
theorem Holds.check (h : Holds ttl cache table now) (key : κ) {cleanedAt checkedAt : ℚ}
    (hcleaned : now ≤ cleanedAt) (hchecked : cleanedAt ≤ checkedAt) :
    ((cached ttl).check cache key cleanedAt checkedAt).1
        = ((lasting ttl).check table key cleanedAt checkedAt).1 ∧
      Holds ttl ((cached ttl).check cache key cleanedAt checkedAt).2
        ((lasting ttl).check table key cleanedAt checkedAt).2 checkedAt := by
  have hold := (h.mono hcleaned).cleaned
  refine ⟨?_, hold.mono hchecked⟩
  change Option.map _ _ = Option.map _ _
  rw [hold.fresh_eq key hchecked]

/-- **An answer** is stored in both. -/
theorem Holds.store (h : Holds ttl cache table now) (key : κ) (value : ν) (storedAt : ℚ) :
    Holds ttl ((cached ttl).store cache key value storedAt)
      ((lasting ttl).store table key value storedAt) now where
  sub k entry hk := by
    unfold cached lasting at *
    dsimp only at hk ⊢
    rw [PyDict.get?_set] at hk
    by_cases heq : k = key
    · rw [if_pos heq] at hk ⊢
      exact hk
    · rw [if_neg heq] at hk ⊢
      exact h.sub k entry hk
  old k entry hk hnone := by
    unfold cached lasting at *
    dsimp only at hk hnone
    rw [PyDict.get?_set] at hnone
    by_cases heq : k = key
    · rw [if_pos heq] at hnone
      cases hnone
    · rw [if_neg heq] at hk hnone
      exact h.old k entry hk hnone

/-- The second half of a lookup. -/
theorem Holds.answered (h : Holds ttl cache table now) (key : κ) (answer : Except ε ν)
    (storedAt : ℚ) :
    ((cached ttl).answered cache key answer storedAt).1
        = ((lasting ttl).answered table key answer storedAt).1 ∧
      Holds ttl ((cached ttl).answered cache key answer storedAt).2
        ((lasting ttl).answered table key answer storedAt).2 now := by
  cases answer with
  | error error => exact ⟨rfl, h⟩
  | ok value => exact ⟨rfl, h.store key value storedAt⟩

/-- A lookup that nothing interrupts. -/
theorem Holds.lookup (h : Holds ttl cache table now) (key : κ) (look : Look ε ν)
    (hcleaned : now ≤ look.cleanedAt) (hchecked : look.cleanedAt ≤ look.checkedAt) :
    ((cached ttl).lookup cache key look).1 = ((lasting ttl).lookup table key look).1 ∧
      Holds ttl ((cached ttl).lookup cache key look).2 ((lasting ttl).lookup table key look).2
        look.checkedAt := by
  obtain ⟨hsame, hafter⟩ := h.check key hcleaned hchecked
  unfold Keeper.lookup
  cases hcache : (cached ttl).check cache key look.cleanedAt look.checkedAt with
  | mk found cache' =>
      cases htable : (lasting ttl).check table key look.cleanedAt look.checkedAt with
      | mk found' table' =>
          rw [hcache, htable] at hsame hafter
          dsimp only at hsame hafter ⊢
          subst hsame
          cases found with
          | some value => exact ⟨rfl, hafter⟩
          | none => exact hafter.answered key look.answer look.storedAt

/-- A cache that writes down what it stores, and a table with the last answers that were written
down: a lookup gives the same, and keeps them so. -/
theorem Holds.logged (h : Holds ttl cache table now) {log : Log κ ν}
    (hlog : ∀ k, log.lookup k = table k) (key : κ) (look : Look ε ν)
    (hcleaned : now ≤ look.cleanedAt) (hchecked : look.cleanedAt ≤ look.checkedAt) :
    ((cached ttl).logged.lookup (cache, log) key look).1 = ((lasting ttl).lookup table key look).1 ∧
      Holds ttl ((cached ttl).logged.lookup (cache, log) key look).2.1
        ((lasting ttl).lookup table key look).2 look.checkedAt ∧
      ∀ k, ((cached ttl).logged.lookup (cache, log) key look).2.2.lookup k
        = ((lasting ttl).lookup table key look).2 k := by
  obtain ⟨hsame, hafter⟩ := h.check key hcleaned hchecked
  unfold Keeper.lookup
  cases hcache : (cached ttl).check cache key look.cleanedAt look.checkedAt with
  | mk found cache' =>
      cases htable : (lasting ttl).check table key look.cleanedAt look.checkedAt with
      | mk found' table' =>
          have hkept : table = table' := congrArg Prod.snd htable
          have hlogged : (cached ttl).logged.check (cache, log) key look.cleanedAt look.checkedAt
              = (found, cache', log) :=
            congrArg (fun result => (result.1, result.2, log)) hcache
          rw [hcache, htable] at hsame hafter
          rw [hlogged]
          dsimp only at hsame hafter ⊢
          subst hsame hkept
          cases found with
          | some value =>
              -- what is found is not written down again
              exact ⟨rfl, hafter, hlog⟩
          | none =>
              dsimp only
              unfold Keeper.answered
              cases look.answer with
              | error error => exact ⟨rfl, hafter, hlog⟩
              | ok value =>
                  refine ⟨rfl, hafter.store key value look.storedAt, fun k => ?_⟩
                  change List.lookup k ((key, _) :: log) = if k = key then _ else table k
                  by_cases heq : k = key
                  · rw [heq, List.lookup_cons_self, if_pos rfl]
                  · rw [List.lookup_cons, beq_false_of_ne heq, if_neg heq]
                    exact hlog k

/-! ## The last answer -/

/-- While the last answer of a key is not too old it is taken, and the table stays. -/
theorem lookup_of_fresh (look : Look ε ν) {entry : Entry ν} (htable : table key = some entry)
    (htime : look.checkedAt - entry.timestamp ≤ ttl) :
    (lasting ttl).lookup table key look = (.ok entry.value, table) := by
  have hfresh := fresh_eq_some_iff.mpr ⟨htable, htime⟩
  unfold Keeper.lookup lasting
  dsimp only
  rw [hfresh]
  rfl

/-- Otherwise somebody is asked. -/
theorem lookup_of_old (look : Look ε ν)
    (hold : ∀ entry, table key = some entry → ttl < look.checkedAt - entry.timestamp) :
    (lasting ttl).lookup table key look
      = (lasting ttl).answered table key look.answer look.storedAt := by
  unfold Keeper.lookup
  rw [show (lasting ttl).check table key look.cleanedAt look.checkedAt
      = ((fresh ttl look.checkedAt (table key)).map Entry.value, table) from rfl,
    fresh_eq_none_iff.mpr hold]
  rfl

/-- What a lookup gives is the last answer of its key, and is not too old or was just given. -/
theorem exists_of_lookup (look : Look ε ν) {value : ν}
    (h : ((lasting ttl).lookup table key look).1 = .ok value) :
    ∃ timestamp, ((lasting ttl).lookup table key look).2 key = some ⟨value, timestamp⟩ ∧
      (timestamp = look.storedAt ∨ look.checkedAt - timestamp ≤ ttl) := by
  by_cases hfresh : ∃ entry, table key = some entry ∧ look.checkedAt - entry.timestamp ≤ ttl
  · obtain ⟨entry, htable, htime⟩ := hfresh
    rw [lookup_of_fresh look htable htime] at h ⊢
    cases h
    exact ⟨entry.timestamp, htable, Or.inr htime⟩
  · push Not at hfresh
    rw [lookup_of_old look hfresh] at h ⊢
    cases hanswer : look.answer with
    | error error =>
        rw [hanswer] at h
        cases h
    | ok answer =>
        rw [hanswer] at h
        cases h
        exact ⟨look.storedAt, if_pos rfl, Or.inl rfl⟩

/-- A lookup of another key. -/
theorem lookup_of_ne (look : Look ε ν) {other : κ} (hne : other ≠ key) :
    ((lasting ttl).lookup table key look).2 other = table other := by
  by_cases hfresh : ∃ entry, table key = some entry ∧ look.checkedAt - entry.timestamp ≤ ttl
  · obtain ⟨entry, htable, htime⟩ := hfresh
    rw [lookup_of_fresh look htable htime]
  · push Not at hfresh
    rw [lookup_of_old look hfresh]
    cases look.answer with
    | error error => rfl
    | ok answer => exact if_neg hne

end Lookups

end TimedCache
