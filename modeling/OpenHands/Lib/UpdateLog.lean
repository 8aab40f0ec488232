/-
# Logs of writes and removals

A store maps keys to values.  An update with a value writes its key; an update without one
removes its key and every key below it.  A dictionary that takes the updates of a log keeps
the last update of each key, at the place of the first one.  `applyAll_entries_iff` says at
which keys the entries of the dictionary still do what the log did.
-/
import Mathlib.Data.List.DropRight
import OpenHands.Lib.PyDict

namespace UpdateLog

variable {κ ν : Type*} [DecidableEq κ] (below : κ → κ → Bool)

/-- One update. -/
def apply (s : κ → Option ν) (u : κ × Option ν) : κ → Option ν :=
  match u.2 with
  | some v => fun k => if k = u.1 then some v else s k
  | none => fun k => if below u.1 k then none else s k

/-- The updates in order. -/
def applyAll (s : κ → Option ν) (log : List (κ × Option ν)) : κ → Option ν :=
  log.foldl (apply below) s

/-- An update of the log removes `k`. -/
def Removes (log : List (κ × Option ν)) (k : κ) : Prop := ∃ u ∈ log, u.2 = none ∧ below u.1 k

instance (log : List (κ × Option ν)) (k : κ) : Decidable (Removes below log k) :=
  inferInstanceAs (Decidable (∃ u ∈ log, u.2 = none ∧ below u.1 k))

/-- What the last update of `k` set. -/
def lastOf (k : κ) (log : List (κ × Option ν)) : Option (Option ν) :=
  (log.reverse.find? fun u => u.1 = k).map Prod.snd

/-- The updates after the last one of `k`. -/
def since (k : κ) (log : List (κ × Option ν)) : List (κ × Option ν) :=
  log.rtakeWhile fun u => u.1 ≠ k

/-- Where the first update of `k` stands. -/
def place (k : κ) (log : List (κ × Option ν)) : ℕ := (log.map Prod.fst).idxOf k

/-! ## What a log does at one key -/

section Applied

variable {below} {s : κ → Option ν} {k : κ} {v : ν}

@[simp] theorem applyAll_append (log log' : List (κ × Option ν)) :
    applyAll below s (log ++ log') = applyAll below (applyAll below s log) log' :=
  List.foldl_append

/-- A log that does not write `k` removes it or leaves it alone. -/
theorem applyAll_of_not_written {log : List (κ × Option ν)}
    (hk : ∀ u ∈ log, u.1 = k → u.2 = none) :
    applyAll below s log k = if Removes below log k then none else s k := by
  induction log generalizing s with
  | nil => simp [applyAll, Removes]
  | cons u log ih =>
      rw [List.forall_mem_cons] at hk
      have hstep : applyAll below s (u :: log) k = applyAll below (apply below s u) log k := rfl
      rw [hstep, ih hk.2]
      have hcons : Removes below (u :: log) k ↔
          (u.2 = none ∧ below u.1 k) ∨ Removes below log k := List.exists_mem_cons_iff _ _ _
      by_cases hlater : Removes below log k
      · rw [if_pos hlater, if_pos (hcons.mpr (Or.inr hlater))]
      · rw [if_neg hlater]
        obtain ⟨p, x⟩ := u
        cases x with
        | none =>
            show (if below p k = true then none else s k) = _
            by_cases hp : below p k
            · rw [if_pos hp, if_pos (hcons.mpr (Or.inl ⟨rfl, hp⟩))]
            · rw [if_neg hp, if_neg (fun h => (hcons.mp h).elim (fun h => hp h.2) hlater)]
        | some w =>
            have hne : k ≠ p := fun h => by simpa using hk.1 h.symm
            show (if k = p then some w else s k) = _
            rw [if_neg hne, if_neg (fun h => (hcons.mp h).elim (fun h => by simp at h) hlater)]

theorem applyAll_of_notMem {log : List (κ × Option ν)} (hk : k ∉ log.map Prod.fst) :
    applyAll below s log k = if Removes below log k then none else s k :=
  applyAll_of_not_written fun _ hu heq => absurd (heq ▸ List.mem_map_of_mem hu) hk

/-- After the last write of a key only removals count. -/
theorem applyAll_written {before after : List (κ × Option ν)} (hk : k ∉ after.map Prod.fst) :
    applyAll below s (before ++ (k, some v) :: after) k
      = if Removes below after k then none else some v := by
  have hset : applyAll below s (before ++ (k, some v) :: after)
      = applyAll below (apply below (applyAll below s before) (k, some v)) after := by
    rw [applyAll_append]
    rfl
  have hvalue : apply below (applyAll below s before) (k, some v) k = some v := if_pos rfl
  rw [hset, applyAll_of_notMem hk, hvalue]

/-- A key that is removed last is gone. -/
theorem applyAll_removed (hself : below k k) {before after : List (κ × Option ν)}
    (hk : k ∉ after.map Prod.fst) :
    applyAll below s (before ++ (k, none) :: after) k = none := by
  have hset : applyAll below s (before ++ (k, none) :: after)
      = applyAll below (apply below (applyAll below s before) (k, none)) after := by
    rw [applyAll_append]
    rfl
  have hvalue : apply below (applyAll below s before) (k, none) k = none := if_pos hself
  rw [hset, applyAll_of_notMem hk, hvalue, ite_self]

end Applied

/-! ## The last update of a key -/

section Last

variable {log : List (κ × Option ν)} {k p : κ} {x : Option ν}

@[simp] theorem lastOf_concat (u : κ × Option ν) :
    lastOf k (log ++ [u]) = if u.1 = k then some u.2 else lastOf k log := by
  unfold lastOf
  rw [List.reverse_append, List.reverse_singleton, List.singleton_append]
  by_cases hk : u.1 = k
  · rw [if_pos hk, List.find?_cons_of_pos (by simpa using hk)]
    rfl
  · rw [if_neg hk, List.find?_cons_of_neg (by simpa using hk)]

theorem lastOf_eq_none_iff : lastOf k log = none ↔ k ∉ log.map Prod.fst := by
  unfold lastOf
  rw [Option.map_eq_none_iff, List.find?_eq_none, List.mem_map]
  constructor
  · rintro h ⟨u, hu, rfl⟩
    exact h u (List.mem_reverse.mpr hu) (by simp)
  · intro h u hu heq
    exact h ⟨u, List.mem_reverse.mp hu, by simpa using heq⟩

/-- Another update leaves what came after the last one of `k`, or is the last one. -/
theorem since_concat (u : κ × Option ν) :
    since k (log ++ [u]) = if u.1 = k then [] else since k log ++ [u] := by
  unfold since
  rw [List.rtakeWhile_concat]
  by_cases hk : u.1 = k
  · rw [if_pos hk, if_neg (by simpa using hk)]
  · rw [if_neg hk, if_pos (by simpa using hk)]

theorem notMem_since : k ∉ (since k log).map Prod.fst := by
  intro hk
  obtain ⟨u, hu, rfl⟩ := List.mem_map.mp hk
  simpa using List.mem_rtakeWhile_imp hu

/-- The log around the last update of a key. -/
theorem split_of_lastOf : lastOf k log = some x → ∃ before, log = before ++ (k, x) :: since k log := by
  induction log using List.reverseRecOn with
  | nil =>
      intro h
      cases h
  | append_singleton log u ih =>
      intro h
      rw [lastOf_concat] at h
      rw [since_concat]
      by_cases hk : u.1 = k
      · rw [if_pos hk] at h ⊢
        cases h
        exact ⟨log, by rw [← hk]⟩
      · rw [if_neg hk] at h ⊢
        obtain ⟨before, hbefore⟩ := ih h
        exact ⟨before, by rw [← List.cons_append, ← List.append_assoc, ← hbefore]⟩

theorem mem_of_lastOf (h : lastOf k log = some x) : (k, x) ∈ log := by
  obtain ⟨before, hlog⟩ := split_of_lastOf h
  rw [hlog]
  exact List.mem_append_right before List.mem_cons_self

end Last

/-! ## The dictionary of a log -/

section Collapsed

open PyDict

variable {log : List (κ × Option ν)} {k p : κ}

/-- The dictionary keeps the last update of each key. -/
theorem get?_ofEntries (k : κ) : (ofEntries log).get? k = lastOf k log := by
  induction log using List.reverseRecOn with
  | nil => rfl
  | append_singleton log u ih =>
      rw [ofEntries_concat, get?_set, lastOf_concat, ih]
      by_cases hk : k = u.1
      · rw [if_pos hk, if_pos hk.symm]
      · rw [if_neg hk, if_neg (Ne.symm hk)]

theorem mem_keys_ofEntries_iff : k ∈ (ofEntries log).keys ↔ k ∈ log.map Prod.fst := by
  rw [← not_iff_not, ← get?_eq_none_iff, get?_ofEntries, lastOf_eq_none_iff]

/-- The order of the members of a list to which a new one is added. -/
theorem idxOf_concat_lt_iff {keys : List κ} {x : κ} (hx : x ∉ keys) (hk : k ∈ keys ++ [x])
    (hp : p ∈ keys ++ [x]) :
    (keys ++ [x]).idxOf k < (keys ++ [x]).idxOf p
      ↔ k ∈ keys ∧ (p ∈ keys → keys.idxOf k < keys.idxOf p) := by
  have hnew : (keys ++ [x]).idxOf x = keys.length := by
    rw [List.idxOf_append_of_notMem hx, List.idxOf_cons_self, Nat.add_zero]
  by_cases hk' : k ∈ keys
  · by_cases hp' : p ∈ keys
    · rw [List.idxOf_append_of_mem hk', List.idxOf_append_of_mem hp']
      simp [hk', hp']
    · have hpx : p = x := by simpa [hp'] using hp
      rw [List.idxOf_append_of_mem hk', hpx, hnew]
      simp [hk', hx, List.idxOf_lt_length_of_mem hk']
  · have hkx : k = x := by simpa [hk'] using hk
    have hle : (keys ++ [x]).idxOf p ≤ keys.length := by
      have hlt := List.idxOf_lt_length_of_mem hp
      rw [List.length_append, List.length_singleton] at hlt
      omega
    rw [hkx, hnew]
    simp only [hx, false_and, iff_false]
    omega

/-- The dictionary keeps the order of the first updates. -/
theorem idxOf_keys_lt_iff (hk : k ∈ log.map Prod.fst) (hp : p ∈ log.map Prod.fst) :
    (ofEntries log).keys.idxOf k < (ofEntries log).keys.idxOf p ↔ place k log < place p log := by
  unfold place
  induction log using List.reverseRecOn with
  | nil => exact absurd hk List.not_mem_nil
  | append_singleton log u ih =>
      rw [List.map_append, List.map_singleton] at hk hp ⊢
      by_cases hu : u.1 ∈ log.map Prod.fst
      · have hold : ∀ j, j ∈ log.map Prod.fst ++ [u.1] → j ∈ log.map Prod.fst := by
          intro j hj
          rcases List.mem_append.mp hj with hj | hj
          · exact hj
          · exact List.mem_singleton.mp hj ▸ hu
        rw [ofEntries_concat, keys_set_of_mem (mem_keys_ofEntries_iff.mpr hu),
          List.idxOf_append_of_mem (hold k hk), List.idxOf_append_of_mem (hold p hp)]
        exact ih (hold k hk) (hold p hp)
      · have hkeys : (ofEntries (log ++ [u])).keys = (ofEntries log).keys ++ [u.1] := by
          rw [ofEntries_concat]
          have hnew : u.1 ∉ (ofEntries log).entries.map Prod.fst :=
            fun h => hu (mem_keys_ofEntries_iff.mp h)
          show (setEntries u.1 u.2 _).map Prod.fst = _
          rw [map_fst_setEntries, if_neg hnew]
          rfl
        have hmem : ∀ j, j ∈ (ofEntries log).keys ++ [u.1] ↔ j ∈ log.map Prod.fst ++ [u.1] := by
          intro j
          rw [List.mem_append, List.mem_append, mem_keys_ofEntries_iff]
        rw [hkeys, idxOf_concat_lt_iff (fun h => hu (mem_keys_ofEntries_iff.mp h))
          ((hmem k).mpr hk) ((hmem p).mpr hp), idxOf_concat_lt_iff hu hk hp]
        simp only [mem_keys_ofEntries_iff]
        exact and_congr_right fun hold => imp_congr_right fun hold' => ih hold hold'

/-- The entries behind an entry are those of the keys whose first update came later. -/
theorem mem_behind_iff {x y : Option ν} {before after : List (κ × Option ν)}
    (hentries : (ofEntries log).entries = before ++ (k, x) :: after) :
    (p, y) ∈ after ↔ lastOf p log = some y ∧ place k log < place p log := by
  have hkeys : (ofEntries log).keys
      = before.map Prod.fst ++ k :: after.map Prod.fst := by
    unfold keys
    rw [hentries, List.map_append, List.map_cons]
  have hnodup : (before.map Prod.fst ++ k :: after.map Prod.fst).Nodup := hkeys ▸ (ofEntries log).nodup
  obtain ⟨-, hbehind, hdisjoint⟩ := List.nodup_append.mp hnodup
  have hk : k ∈ log.map Prod.fst := by
    rw [← mem_keys_ofEntries_iff, hkeys]
    exact List.mem_append_right _ List.mem_cons_self
  have hplace : (ofEntries log).keys.idxOf k = before.length := by
    have hnot : k ∉ before.map Prod.fst := fun h => hdisjoint k h k List.mem_cons_self rfl
    rw [hkeys, List.idxOf_append_of_notMem hnot, List.idxOf_cons_self, Nat.add_zero,
      List.length_map]
  have hread : (p, y) ∈ (ofEntries log).entries ↔ lastOf p log = some y := by
    rw [← get?_eq_some_iff, get?_ofEntries]
  constructor
  · intro hmem
    have hlast : lastOf p log = some y := by
      rw [← hread, hentries]
      exact List.mem_append_right _ (List.mem_cons_of_mem _ hmem)
    have hp : p ∈ log.map Prod.fst := List.mem_map_of_mem (mem_of_lastOf hlast)
    have hp' : p ∈ after.map Prod.fst := List.mem_map_of_mem hmem
    refine ⟨hlast, (idxOf_keys_lt_iff hk hp).mp ?_⟩
    have hnot : p ∉ before.map Prod.fst :=
      fun h => hdisjoint p h p (List.mem_cons_of_mem _ hp') rfl
    have hne : k ≠ p := fun h => (List.nodup_cons.mp hbehind).1 (h ▸ hp')
    rw [hplace, hkeys, List.idxOf_append_of_notMem hnot, List.idxOf_cons_ne _ hne,
      List.length_map]
    omega
  · rintro ⟨hlast, hlt⟩
    have hp : p ∈ log.map Prod.fst := List.mem_map_of_mem (mem_of_lastOf hlast)
    rw [← idxOf_keys_lt_iff hk hp, hplace] at hlt
    have hmem := hread.mpr hlast
    rw [hentries, List.mem_append, List.mem_cons] at hmem
    rcases hmem with hmem | hmem | hmem
    · have hp' : p ∈ before.map Prod.fst := List.mem_map_of_mem hmem
      have hfront := List.idxOf_lt_length_of_mem hp'
      rw [hkeys, List.idxOf_append_of_mem hp'] at hlt
      rw [List.length_map] at hfront
      omega
    · cases hmem
      rw [hplace] at hlt
      exact absurd hlt (lt_irrefl _)
    · exact hmem

end Collapsed

/-! ## When the dictionary does what the log did -/

section Kept

open PyDict

variable (log : List (κ × Option ν)) (k : κ)

/-- A removal of the log took `k` after its last update. -/
def RemovedSince : Prop := Removes below (since k log) k

/-- A key above `k` was updated first after `k` was, and was removed last. -/
def RemovedBehind : Prop :=
  ∃ p, below p k ∧ lastOf p log = some none ∧ place k log < place p log

/-- A key above `k` was removed last. -/
def RemovedLast : Prop := ∃ p, below p k ∧ lastOf p log = some none

/-- What the log does at `k`, starting from `s`, is kept by its dictionary. -/
def Keeps (s : κ → Option ν) : Prop :=
  match lastOf k log with
  | some (some _) => RemovedSince below log k ↔ RemovedBehind below log k
  | some none => True
  | none => s k ≠ none → Removes below log k → RemovedLast below log k

theorem ite_none_eq_iff {p q : Prop} [Decidable p] [Decidable q] {x : Option ν} :
    (if p then none else x) = (if q then none else x) ↔ (x ≠ none → (p ↔ q)) := by
  by_cases hp : p
  · by_cases hq : q
    · simp [hp, hq]
    · simp [hp, hq, eq_comm]
  · by_cases hq : q
    · simp [hp, hq]
    · simp [hp, hq]

/-- **The entries of the dictionary do at `k` what the log did exactly when they keep it.** -/
theorem applyAll_entries_iff (hself : ∀ p, below p p) (s : κ → Option ν) :
    applyAll below s (ofEntries log).entries k = applyAll below s log k
      ↔ Keeps below log k s := by
  unfold Keeps
  cases hlast : lastOf k log with
  | none =>
      have hlog : k ∉ log.map Prod.fst := lastOf_eq_none_iff.mp hlast
      have hentries : k ∉ (ofEntries log).entries.map Prod.fst :=
        fun h => hlog (mem_keys_ofEntries_iff.mp h)
      have hremoves : Removes below (ofEntries log).entries k ↔ RemovedLast below log k := by
        unfold Removes RemovedLast
        constructor
        · rintro ⟨⟨p, y⟩, hmem, rfl, hp⟩
          exact ⟨p, hp, by rw [← get?_ofEntries, get?_eq_some_iff]; exact hmem⟩
        · rintro ⟨p, hp, hlast⟩
          rw [← get?_ofEntries, get?_eq_some_iff] at hlast
          exact ⟨(p, none), hlast, rfl, hp⟩
      have hsub : RemovedLast below log k → Removes below log k := by
        rintro ⟨p, hp, hlast⟩
        exact ⟨(p, none), mem_of_lastOf hlast, rfl, hp⟩
      rw [applyAll_of_notMem hentries, applyAll_of_notMem hlog, ite_none_eq_iff, hremoves]
      exact imp_congr_right fun _ => ⟨fun h => h.mpr, fun h => ⟨hsub, h⟩⟩
  | some x =>
      obtain ⟨before, hlog⟩ := split_of_lastOf hlast
      have hmem : (k, x) ∈ (ofEntries log).entries := by
        rw [← get?_eq_some_iff, get?_ofEntries, hlast]
      obtain ⟨front, behind, hentries⟩ := List.append_of_mem hmem
      have hbehind : k ∉ behind.map Prod.fst := by
        have hnodup := (ofEntries log).nodup
        rw [hentries, List.map_append, List.map_cons] at hnodup
        exact (List.nodup_cons.mp (List.nodup_append.mp hnodup).2.1).1
      have hremoves : Removes below behind k ↔ RemovedBehind below log k := by
        unfold Removes RemovedBehind
        constructor
        · rintro ⟨⟨p, y⟩, hmem, rfl, hp⟩
          exact ⟨p, hp, (mem_behind_iff hentries).mp hmem⟩
        · rintro ⟨p, hp, hlate⟩
          exact ⟨(p, none), (mem_behind_iff hentries).mpr hlate, rfl, hp⟩
      have hlog' : applyAll below s log k = applyAll below s (before ++ (k, x) :: since k log) k :=
        congrArg (fun log => applyAll below s log k) hlog
      rw [hentries, hlog']
      cases x with
      | none =>
          rw [applyAll_removed (hself k) hbehind, applyAll_removed (hself k) notMem_since]
          exact iff_of_true rfl trivial
      | some v =>
          rw [applyAll_written hbehind, applyAll_written notMem_since, ite_none_eq_iff, hremoves]
          exact ⟨fun h => (h (Option.some_ne_none v)).symm, fun h _ => h.symm⟩

end Kept

end UpdateLog
