/-
# Fallible steps

When a sequence or a loop of steps in `Except` succeeds, and with which results.
-/
import Mathlib.Data.List.Forall2

namespace Fallible

/-- A sequence of fallible steps succeeds when every step does. -/
theorem bind_eq_ok_iff {ε α β : Type} {x : Except ε α} {f : α → Except ε β} {b : β} :
    x >>= f = .ok b ↔ ∃ a, x = .ok a ∧ f a = .ok b := by
  constructor
  · intro h
    cases x with
    | ok a => exact ⟨a, rfl, h⟩
    | error e => cases h
  · rintro ⟨a, rfl, hb⟩
    exact hb

theorem bind_ok_iff {ε α β : Type} {x : Except ε α} {f : α → Except ε β} {b : β} :
    x.bind f = .ok b ↔ ∃ a, x = .ok a ∧ f a = .ok b :=
  bind_eq_ok_iff

theorem map_ok_iff {ε α β : Type} {x : Except ε α} {f : α → β} {b : β} :
    x.map f = .ok b ↔ ∃ a, x = .ok a ∧ f a = b := by
  cases x with
  | ok a => exact ⟨fun h => ⟨a, rfl, Except.ok.inj h⟩, fun ⟨_, ha, hb⟩ => by cases ha; rw [← hb]; rfl⟩
  | error e => exact ⟨fun h => (nomatch h), fun ⟨_, ha, _⟩ => (nomatch ha)⟩

/-- A loop of fallible steps gives what the steps give. -/
theorem mapM_ok_iff {ε α β : Type} {f : α → Except ε β} :
    ∀ {l : List α} {l' : List β}, l.mapM f = .ok l' ↔ List.Forall₂ (fun a b => f a = .ok b) l l'
  | [], l' => by
    rw [List.mapM_nil]
    constructor
    · intro h
      cases h
      exact .nil
    · intro h
      cases h
      rfl
  | a :: l, l' => by
    rw [List.mapM_cons, bind_eq_ok_iff]
    constructor
    · rintro ⟨b, hb, hrest⟩
      obtain ⟨bs, hbs, hl'⟩ := bind_eq_ok_iff.mp hrest
      cases hl'
      exact .cons hb (mapM_ok_iff.mp hbs)
    · intro h
      cases h with
      | cons hb hrest =>
        exact ⟨_, hb, bind_eq_ok_iff.mpr ⟨_, mapM_ok_iff.mpr hrest, rfl⟩⟩

/-- A loop of steps that can only raise one error. -/
theorem mapM_eq_ite {ε α β : Type} {f : α → Except ε β} {g : α → β} {p : α → Bool} {e : ε}
    (h : ∀ a, f a = if p a then .ok (g a) else .error e) (l : List α) :
    l.mapM f = if l.all p then .ok (l.map g) else .error e := by
  induction l with
  | nil => rfl
  | cons a l ih =>
    rw [List.mapM_cons, h a, ih, List.all_cons]
    cases p a with
    | false => rfl
    | true =>
      cases l.all p with
      | false => rfl
      | true => rfl

end Fallible
