/-
# Python dictionaries

A dictionary keeps its entries in the order in which the keys were first set; setting a
key again leaves it in its place, and a key that was removed and is set again comes last.
-/
import Mathlib.Data.List.Basic
import Mathlib.Data.List.Induction
import Mathlib.Data.List.Nodup

/-- `d[k] = v` on the entries. -/
def PyDict.setEntries {κ ν : Type*} [DecidableEq κ] (k : κ) (v : ν) : List (κ × ν) → List (κ × ν)
  | [] => [(k, v)]
  | entry :: entries =>
    if entry.1 = k then (k, v) :: entries else entry :: setEntries k v entries

/-- The keys after `d[k] = v`. -/
theorem PyDict.map_fst_setEntries {κ ν : Type*} [DecidableEq κ] (k : κ) (v : ν)
    (entries : List (κ × ν)) :
    (setEntries k v entries).map Prod.fst
      = if k ∈ entries.map Prod.fst then entries.map Prod.fst
        else entries.map Prod.fst ++ [k] := by
  induction entries with
  | nil => rfl
  | cons entry entries ih =>
      unfold setEntries
      by_cases hk : entry.1 = k
      · rw [if_pos hk, if_pos (by rw [List.map_cons, hk]; exact List.mem_cons_self)]
        rw [List.map_cons, List.map_cons, hk]
      · rw [if_neg hk, List.map_cons, ih, List.map_cons]
        by_cases hmem : k ∈ entries.map Prod.fst
        · rw [if_pos hmem, if_pos (List.mem_cons_of_mem _ hmem)]
        · rw [if_neg hmem, if_neg, List.cons_append]
          exact List.not_mem_cons_of_ne_of_not_mem (Ne.symm hk) hmem

/-- A dictionary: no key occurs twice. -/
structure PyDict (κ ν : Type*) where
  entries : List (κ × ν)
  nodup : (entries.map Prod.fst).Nodup

namespace PyDict

variable {κ ν μ : Type*}

/-- `{}`. -/
def empty : PyDict κ ν := ⟨[], List.nodup_nil⟩

/-- `d.keys()`. -/
def keys (d : PyDict κ ν) : List κ := d.entries.map Prod.fst

/-- `{k: f(v) for k, v in d.items()}`. -/
def mapValues (f : ν → μ) (d : PyDict κ ν) : PyDict κ μ where
  entries := d.entries.map fun entry => (entry.1, f entry.2)
  nodup := by
    have hkeys : (d.entries.map fun entry => (entry.1, f entry.2)).map Prod.fst
        = d.entries.map Prod.fst := by
      rw [List.map_map]
      rfl
    rw [hkeys]
    exact d.nodup

@[simp] theorem keys_mapValues (f : ν → μ) (d : PyDict κ ν) :
    (d.mapValues f).keys = d.keys := by
  unfold keys mapValues
  rw [List.map_map]
  rfl

theorem ext_entries {d d' : PyDict κ ν} (h : d.entries = d'.entries) : d = d' := by
  cases d
  cases d'
  cases h
  rfl

variable [DecidableEq κ]

/-- `d.get(k)`. -/
def get? (d : PyDict κ ν) (k : κ) : Option ν :=
  (d.entries.find? fun entry => entry.1 = k).map Prod.snd

/-- `k in d`. -/
def contains (d : PyDict κ ν) (k : κ) : Bool := k ∈ d.keys

/-- `d[k] = v`. -/
def set (d : PyDict κ ν) (k : κ) (v : ν) : PyDict κ ν where
  entries := setEntries k v d.entries
  nodup := by
    rw [map_fst_setEntries]
    split_ifs with hk
    · exact d.nodup
    · exact List.nodup_append.mpr ⟨d.nodup, List.nodup_singleton k, fun a ha b hb => by
        rw [List.mem_singleton.mp hb]
        rintro rfl
        exact hk ha⟩

/-- `d.pop(k, None)`, without the value. -/
def pop (d : PyDict κ ν) (k : κ) : PyDict κ ν where
  entries := d.entries.filter fun entry => entry.1 ≠ k
  nodup := d.nodup.sublist (List.filter_sublist.map Prod.fst)

/-- `{k: v for k, v in d.items() if p(k)}`. -/
def filterKeys (p : κ → Bool) (d : PyDict κ ν) : PyDict κ ν where
  entries := d.entries.filter fun entry => p entry.1
  nodup := d.nodup.sublist (List.filter_sublist.map Prod.fst)

/-- A key is in the dictionary exactly when it has a value. -/
theorem isSome_get? (d : PyDict κ ν) (k : κ) : (d.get? k).isSome = d.contains k := by
  unfold get? contains keys
  rw [Option.isSome_map, Bool.eq_iff_iff, List.find?_isSome]
  simp [eq_comm]

theorem mem_entries_of_get? {d : PyDict κ ν} {k : κ} {v : ν} (h : d.get? k = some v) :
    (k, v) ∈ d.entries := by
  obtain ⟨entry, hfound, rfl⟩ := Option.map_eq_some_iff.mp h
  have hk : entry.1 = k := by simpa using List.find?_some hfound
  rw [← hk]
  exact List.mem_of_find?_eq_some hfound

/-- An entry after `d[k] = v` is the new one or an old one. -/
theorem mem_entries_set {d : PyDict κ ν} {k : κ} {v : ν} {entry : κ × ν}
    (h : entry ∈ (d.set k v).entries) : entry = (k, v) ∨ entry ∈ d.entries := by
  have hsplit : ∀ entries : List (κ × ν), entry ∈ setEntries k v entries →
      entry = (k, v) ∨ entry ∈ entries := by
    intro entries
    induction entries with
    | nil =>
        intro h
        exact Or.inl (List.mem_singleton.mp h)
    | cons first entries ih =>
        intro h
        unfold setEntries at h
        split_ifs at h with hk
        · rcases List.mem_cons.mp h with h | h
          · exact Or.inl h
          · exact Or.inr (List.mem_cons_of_mem _ h)
        · rcases List.mem_cons.mp h with h | h
          · exact Or.inr (h ▸ List.mem_cons_self)
          · rcases ih h with h | h
            · exact Or.inl h
            · exact Or.inr (List.mem_cons_of_mem _ h)
  exact hsplit d.entries h

theorem mem_entries_pop {d : PyDict κ ν} {k : κ} {entry : κ × ν}
    (h : entry ∈ (d.pop k).entries) : entry ∈ d.entries :=
  (List.mem_filter.mp h).1

/-- Removing a key leaves the other keys. -/
theorem contains_pop_of_ne {d : PyDict κ ν} {j k : κ} (hne : j ≠ k) :
    (d.pop k).contains j = d.contains j := by
  rw [Bool.eq_iff_iff]
  unfold contains keys pop
  simp only [decide_eq_true_eq, List.mem_map, List.mem_filter]
  constructor
  · rintro ⟨entry, ⟨hentry, -⟩, rfl⟩
    exact ⟨entry, hentry, rfl⟩
  · rintro ⟨entry, hentry, rfl⟩
    exact ⟨entry, ⟨hentry, by simpa using hne⟩, rfl⟩

/-! ## Reading -/

@[simp] theorem get?_empty (k : κ) : (empty : PyDict κ ν).get? k = none := rfl

/-- A key that is not there has no value. -/
theorem get?_eq_none_iff {d : PyDict κ ν} {k : κ} : d.get? k = none ↔ k ∉ d.keys := by
  rw [← Option.not_isSome_iff_eq_none, isSome_get?]
  simp [contains]

theorem isSome_get?_iff {d : PyDict κ ν} {k : κ} : (d.get? k).isSome ↔ k ∈ d.keys := by
  rw [isSome_get?]
  simp [contains]

/-- The entries of a dictionary are what its keys read. -/
theorem get?_eq_some_iff {d : PyDict κ ν} {k : κ} {v : ν} :
    d.get? k = some v ↔ (k, v) ∈ d.entries := by
  constructor
  · exact mem_entries_of_get?
  · intro hmem
    have hkey : k ∈ d.keys := List.mem_map_of_mem hmem
    obtain ⟨w, hw⟩ := Option.isSome_iff_exists.mp (by
      rw [isSome_get?]
      simpa [contains] using hkey : (d.get? k).isSome)
    have heq : (k, w) = (k, v) :=
      List.inj_on_of_nodup_map d.nodup (mem_entries_of_get? hw) hmem rfl
    rw [hw, (Prod.mk.inj heq).2]

@[simp] theorem get?_set (d : PyDict κ ν) (j k : κ) (v : ν) :
    (d.set k v).get? j = if j = k then some v else d.get? j := by
  unfold get?
  show ((setEntries k v d.entries).find? _).map Prod.snd = _
  induction d.entries with
  | nil =>
      by_cases hjk : j = k
      · simp [setEntries, hjk]
      · simp [setEntries, hjk, Ne.symm hjk]
  | cons entry entries ih =>
      unfold setEntries
      by_cases hk : entry.1 = k
      · rw [if_pos hk]
        by_cases hjk : j = k
        · simp [hjk]
        · have hentry : entry.1 ≠ j := fun h => hjk (h.symm.trans hk)
          simp [hjk, Ne.symm hjk, hentry]
      · rw [if_neg hk]
        by_cases hj : entry.1 = j
        · have hjk : j ≠ k := fun h => hk (hj.trans h)
          simp [hj, hjk]
        · rw [List.find?_cons_of_neg (by simpa using hj), List.find?_cons_of_neg (by simpa using hj)]
          exact ih

@[simp] theorem get?_pop (d : PyDict κ ν) (j k : κ) :
    (d.pop k).get? j = if j = k then none else d.get? j := by
  by_cases hjk : j = k
  · rw [if_pos hjk, get?_eq_none_iff, hjk]
    simp [keys, pop]
  · rw [if_neg hjk]
    apply Option.ext
    intro v
    rw [get?_eq_some_iff, get?_eq_some_iff]
    simp [pop, hjk]

@[simp] theorem get?_filterKeys (p : κ → Bool) (d : PyDict κ ν) (k : κ) :
    (d.filterKeys p).get? k = if p k then d.get? k else none := by
  apply Option.ext
  intro v
  rw [get?_eq_some_iff]
  split_ifs with hk
  · rw [get?_eq_some_iff]
    simp [filterKeys, hk]
  · simp [filterKeys, hk]

@[simp] theorem get?_mapValues (f : ν → μ) (d : PyDict κ ν) (k : κ) :
    (d.mapValues f).get? k = (d.get? k).map f := by
  unfold get? mapValues
  rw [List.find?_map, Option.map_map, Option.map_map]
  rfl

/-! ## Equal dictionaries -/

/-- Dictionaries with the same keys in the same order and the same values are equal. -/
theorem ext_get? {d d' : PyDict κ ν} (hkeys : d.keys = d'.keys)
    (hget : ∀ k ∈ d.keys, d.get? k = d'.get? k) : d = d' := by
  apply ext_entries
  have hvalue : ∀ (d : PyDict κ ν), d.entries.map some
      = d.keys.map fun k => (d.get? k).map fun v => (k, v) := by
    intro d
    unfold keys
    rw [List.map_map]
    apply List.map_congr_left
    rintro ⟨k, v⟩ hmem
    simp [get?_eq_some_iff.mpr hmem]
  have hmap : d.entries.map some = d'.entries.map some := by
    rw [hvalue d, hvalue d', ← hkeys]
    apply List.map_congr_left
    intro k hk
    rw [hget k hk]
  exact List.map_injective_iff.mpr (fun _ _ h => Option.some.inj h) hmap

/-- Removing a key that is not there changes nothing. -/
theorem pop_of_get?_eq_none {d : PyDict κ ν} {k : κ} (h : d.get? k = none) : d.pop k = d := by
  apply ext_entries
  apply List.filter_eq_self.mpr
  intro entry hentry
  have hne : entry.1 ≠ k := by
    rintro rfl
    exact get?_eq_none_iff.mp h (List.mem_map_of_mem hentry)
  simpa using hne

/-- Setting a key that is there leaves the keys. -/
theorem keys_set_of_mem {d : PyDict κ ν} {k : κ} (hk : k ∈ d.keys) (v : ν) :
    (d.set k v).keys = d.keys := by
  show (setEntries k v d.entries).map Prod.fst = _
  rw [map_fst_setEntries]
  exact if_pos hk

/-- Setting a key to the value that it has changes nothing. -/
theorem set_of_get?_eq_some {d : PyDict κ ν} {k : κ} {v : ν} (h : d.get? k = some v) :
    d.set k v = d := by
  have hkey : k ∈ d.keys := List.mem_map_of_mem (mem_entries_of_get? h)
  apply ext_get? (keys_set_of_mem hkey v)
  intro j _
  rw [get?_set]
  split_ifs with hjk
  · rw [hjk, h]
  · rfl

/-! ## From entries -/

/-- `dict(entries)`: a key that occurs again keeps its place and takes the later value. -/
def ofEntries (entries : List (κ × ν)) : PyDict κ ν :=
  entries.foldl (fun d entry => d.set entry.1 entry.2) empty

/-- A new key comes last. -/
theorem setEntries_of_notMem {k : κ} {v : ν} {entries : List (κ × ν)}
    (hk : k ∉ entries.map Prod.fst) : setEntries k v entries = entries ++ [(k, v)] := by
  induction entries with
  | nil => rfl
  | cons entry entries ih =>
      rw [List.map_cons, List.mem_cons, not_or] at hk
      unfold setEntries
      rw [if_neg (Ne.symm hk.1), ih hk.2, List.cons_append]

/-- One more entry. -/
theorem ofEntries_concat (entries : List (κ × ν)) (entry : κ × ν) :
    ofEntries (entries ++ [entry]) = (ofEntries entries).set entry.1 entry.2 := by
  unfold ofEntries
  rw [List.foldl_append]
  rfl

/-- Entries of other keys do not change a value. -/
theorem get?_ofEntries_append {entries others : List (κ × ν)} {k : κ}
    (hk : k ∉ others.map Prod.fst) :
    (ofEntries (entries ++ others)).get? k = (ofEntries entries).get? k := by
  induction others using List.reverseRecOn with
  | nil => rw [List.append_nil]
  | append_singleton others entry ih =>
      rw [List.map_append, List.mem_append, not_or] at hk
      have hne : k ≠ entry.1 := fun heq => hk.2 (List.mem_singleton.mpr heq)
      rw [← List.append_assoc, ofEntries_concat, get?_set, if_neg hne, ih hk.1]

/-- A first entry of another key does not change a value. -/
theorem get?_ofEntries_cons_of_ne {entries : List (κ × ν)} {entry : κ × ν} {k : κ}
    (hk : k ≠ entry.1) : (ofEntries (entry :: entries)).get? k = (ofEntries entries).get? k := by
  induction entries using List.reverseRecOn with
  | nil =>
      unfold ofEntries
      rw [List.foldl_cons, List.foldl_nil, get?_set, if_neg hk]
      rfl
  | append_singleton entries last ih =>
      rw [← List.cons_append, ofEntries_concat, ofEntries_concat, get?_set, get?_set, ih]

/-- Entries with distinct keys are kept as they are. -/
theorem entries_ofEntries {entries : List (κ × ν)} (hnodup : (entries.map Prod.fst).Nodup) :
    (ofEntries entries).entries = entries := by
  have hfold : ∀ (rest : List (κ × ν)) (d : PyDict κ ν),
      ((d.entries ++ rest).map Prod.fst).Nodup →
      (rest.foldl (fun d entry => d.set entry.1 entry.2) d).entries = d.entries ++ rest := by
    intro rest
    induction rest with
    | nil =>
        intro d _
        rw [List.append_nil]
        rfl
    | cons entry rest ih =>
        intro d hnodup
        have hnew : entry.1 ∉ d.entries.map Prod.fst := by
          rw [List.map_append, List.map_cons] at hnodup
          intro hmem
          exact (List.nodup_append.mp hnodup).2.2 _ hmem _ List.mem_cons_self rfl
        have hset : (d.set entry.1 entry.2).entries = d.entries ++ [entry] :=
          setEntries_of_notMem hnew
        rw [List.foldl_cons, ih, hset, List.append_assoc, List.singleton_append]
        rwa [hset, List.append_assoc, List.singleton_append]
  exact hfold entries empty hnodup

/-- The entries of a dictionary make the dictionary again. -/
@[simp] theorem ofEntries_entries (d : PyDict κ ν) : ofEntries d.entries = d :=
  ext_entries (entries_ofEntries d.nodup)

/-- The entries of a dictionary that was built from a list are entries of the list. -/
theorem mem_of_mem_ofEntries {entries : List (κ × ν)}
    {entry : κ × ν} (h : entry ∈ (ofEntries entries).entries) : entry ∈ entries := by
  have hfold : ∀ (entries : List (κ × ν)) (d : PyDict κ ν),
      entry ∈ (entries.foldl (fun d entry => d.set entry.1 entry.2) d).entries →
        entry ∈ d.entries ∨ entry ∈ entries := by
    intro entries
    induction entries with
    | nil => exact fun d h => Or.inl h
    | cons first entries ih =>
      intro d h
      rcases ih _ h with h | h
      · rcases mem_entries_set h with rfl | h
        · exact Or.inr List.mem_cons_self
        · exact Or.inl h
      · exact Or.inr (List.mem_cons_of_mem first h)
  rcases hfold entries empty h with h | h
  · exact absurd h List.not_mem_nil
  · exact h

/-- A new first entry. -/
theorem get?_ofEntries_cons {d : PyDict κ ν} {j k : κ} {v : ν} (hk : k ∉ d.keys) :
    (ofEntries ((k, v) :: d.entries)).get? j = if j = k then some v else d.get? j := by
  have hentries : (ofEntries ((k, v) :: d.entries)).entries = (k, v) :: d.entries :=
    entries_ofEntries (List.nodup_cons.mpr ⟨hk, d.nodup⟩)
  show ((ofEntries ((k, v) :: d.entries)).entries.find? _).map Prod.snd = _
  rw [hentries]
  by_cases hjk : j = k
  · rw [if_pos hjk, List.find?_cons_of_pos (by simp [hjk])]
    rfl
  · rw [if_neg hjk, List.find?_cons_of_neg (by simpa using Ne.symm hjk)]
    rfl

/-! ## Setting and removing many keys -/

/-- `if v is not None: d[k] = v`. -/
def setOption (d : PyDict κ ν) (k : κ) (v : Option ν) : PyDict κ ν :=
  match v with
  | some v => d.set k v
  | none => d

@[simp] theorem get?_setOption (d : PyDict κ ν) (j k : κ) (v : Option ν) :
    (d.setOption k v).get? j = if j = k then v.or (d.get? k) else d.get? j := by
  cases v with
  | none =>
      show d.get? j = _
      split_ifs with hjk
      · rw [hjk, Option.none_or]
      · rfl
  | some v =>
      show (d.set k v).get? j = _
      rw [get?_set, Option.some_or]

/-- Keys set one after the other, each to its own value. -/
theorem get?_foldl_setOption (f : κ → Option ν) (keys : List κ) (d : PyDict κ ν) (k : κ) :
    (keys.foldl (fun d key => d.setOption key (f key)) d).get? k
      = if k ∈ keys then (f k).or (d.get? k) else d.get? k := by
  induction keys generalizing d with
  | nil => rfl
  | cons key keys ih =>
      rw [List.foldl_cons, ih, get?_setOption]
      by_cases hk : k = key
      · subst hk
        rw [if_pos rfl, if_pos List.mem_cons_self, ← Option.or_assoc, Option.or_self, ite_self]
      · rw [if_neg hk]
        simp [hk]

/-- Keys removed one after the other. -/
theorem get?_foldl_pop (keys : List κ) (d : PyDict κ ν) (k : κ) :
    (keys.foldl pop d).get? k = if k ∈ keys then none else d.get? k := by
  induction keys generalizing d with
  | nil => rfl
  | cons key keys ih =>
      rw [List.foldl_cons, ih, get?_pop]
      by_cases hk : k = key
      · subst hk
        rw [if_pos rfl, if_pos List.mem_cons_self, ite_self]
      · rw [if_neg hk]
        simp [hk]

/-! ## Mapping the values -/

@[simp] theorem contains_mapValues (f : ν → μ) (d : PyDict κ ν) (k : κ) :
    (d.mapValues f).contains k = d.contains k := by
  unfold contains
  rw [keys_mapValues]

theorem mapValues_set (f : ν → μ) (d : PyDict κ ν) (k : κ) (v : ν) :
    (d.set k v).mapValues f = (d.mapValues f).set k (f v) := by
  apply ext_entries
  show (setEntries k v d.entries).map (fun entry => (entry.1, f entry.2))
    = setEntries k (f v) (d.entries.map fun entry => (entry.1, f entry.2))
  induction d.entries with
  | nil => rfl
  | cons entry entries ih =>
      rw [List.map_cons]
      unfold setEntries
      by_cases hk : entry.1 = k
      · rw [if_pos hk, if_pos hk, List.map_cons]
      · rw [if_neg hk, if_neg hk, List.map_cons, ih]

theorem mapValues_pop (f : ν → μ) (d : PyDict κ ν) (k : κ) :
    (d.pop k).mapValues f = (d.mapValues f).pop k := by
  apply ext_entries
  show (d.entries.filter _).map _ = (d.entries.map _).filter _
  rw [List.filter_map]
  rfl

/-- The entries with their values mapped. -/
theorem ofEntries_map (f : ν → μ) (entries : List (κ × ν)) :
    ofEntries (entries.map fun entry => (entry.1, f entry.2)) = (ofEntries entries).mapValues f := by
  induction entries using List.reverseRecOn with
  | nil => rfl
  | append_singleton entries entry ih =>
      rw [List.map_append, List.map_singleton, ofEntries_concat, ofEntries_concat, ih,
        mapValues_set]

end PyDict
