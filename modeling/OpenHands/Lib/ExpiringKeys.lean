/-
# Keys that expire

A set of keys with a clock.  A key is set for some time and is gone when that time has
passed, unless it is set again; it may also be deleted before.
-/
import Mathlib.Logic.Function.Basic
import Mathlib.Order.Basic

/-- The clock, and the time from which on each key is gone. -/
structure ExpiringKeys (K : Type*) where
  clock : ℕ := 0
  expiry : K → ℕ := fun _ => 0

namespace ExpiringKeys

variable {K : Type*} (s : ExpiringKeys K)

/-- The key is set and has not expired. -/
def Present (k : K) : Prop := s.clock < s.expiry k

instance (k : K) : Decidable (s.Present k) := inferInstanceAs (Decidable (_ < _))

/-- Time passes. -/
def elapse (d : ℕ) : ExpiringKeys K := { s with clock := s.clock + d }

/-- The keys with the property `p` are set for the time `ttl`. -/
def setAll (p : K → Prop) [DecidablePred p] (ttl : ℕ) : ExpiringKeys K :=
  { s with expiry := fun k => if p k then s.clock + ttl else s.expiry k }

/-- Setting keys takes none away. -/
theorem Present.setAll {s : ExpiringKeys K} {k : K} (h : s.Present k) (p : K → Prop)
    [DecidablePred p] {ttl : ℕ} (hpos : 0 < ttl) : (s.setAll p ttl).Present k := by
  unfold Present at h ⊢
  show s.clock < if p k then s.clock + ttl else s.expiry k
  split
  · exact Nat.lt_add_of_pos_right hpos
  · exact h

variable [DecidableEq K]

/-- The key is set for the time `ttl`. -/
def set (k : K) (ttl : ℕ) : ExpiringKeys K :=
  { s with expiry := Function.update s.expiry k (s.clock + ttl) }

/-- The key is deleted. -/
def delete (k : K) : ExpiringKeys K :=
  { s with expiry := Function.update s.expiry k 0 }

@[simp] theorem clock_set (k : K) (ttl : ℕ) : (s.set k ttl).clock = s.clock := rfl

@[simp] theorem clock_delete (k : K) : (s.delete k).clock = s.clock := rfl

@[simp] theorem expiry_set_self (k : K) (ttl : ℕ) : (s.set k ttl).expiry k = s.clock + ttl :=
  Function.update_self ..

@[simp] theorem present_set_self {k : K} {ttl : ℕ} : (s.set k ttl).Present k ↔ 0 < ttl := by
  unfold Present
  rw [clock_set, expiry_set_self]
  omega

theorem expiry_set_of_ne {k k' : K} (h : k' ≠ k) (ttl : ℕ) :
    (s.set k ttl).expiry k' = s.expiry k' :=
  Function.update_of_ne h ..

theorem expiry_delete_of_ne {k k' : K} (h : k' ≠ k) : (s.delete k).expiry k' = s.expiry k' :=
  Function.update_of_ne h ..

theorem present_set_of_ne {k k' : K} (h : k' ≠ k) (ttl : ℕ) :
    (s.set k ttl).Present k' ↔ s.Present k' := by
  unfold Present
  rw [clock_set, s.expiry_set_of_ne h]

theorem present_delete_of_ne {k k' : K} (h : k' ≠ k) :
    (s.delete k).Present k' ↔ s.Present k' := by
  unfold Present
  rw [clock_delete, s.expiry_delete_of_ne h]

end ExpiringKeys
