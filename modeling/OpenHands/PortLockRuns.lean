/-
# At most one holder of a port

The lock lies on the inode and not on the name, so that it keeps two processes apart only
while they have opened the same inode.  An `open` that creates the file while another
process holds the lock, or still waits for it, brings a second inode.
`atMostOneHolder_run` says that there is one holder at a time in every run without such an
`open`, and without an `acquire` that trusts a `_locked` whose file is closed.
-/
import Mathlib.Data.Fintype.Basic
import OpenHands.PortLock

namespace OpenHands.PortLock

open Run

variable {P : Type*} {w w' : World P} {p q : P}

/-! ## The condition on a call -/

/-- The process holds the lock or has the file open to get it. -/
def Lock.Active (l : Lock) : Prop := l.pc = .trying ∨ l.pc = .writing ∨ l.holding

instance (l : Lock) : Decidable l.Active :=
  inferInstanceAs (Decidable (l.pc = .trying ∨ l.pc = .writing ∨ l.holding))

/-- `acquire` returns at once only with an open file, and creates the file only while no
other process holds the lock or waits for it. -/
def CarefulAcquire (w : World P) (p : P) : Prop :=
  (w.locks p).pc = .idle →
    if (w.locks p).locked then (w.locks p).lockFd.isSome
    else w.entry = none → ∀ q, q ≠ p → ¬ (w.locks q).Active

/-- The condition on a call of a run. -/
def Careful (w : World P) (c : P × Call) : Prop := c.2 = .acquire → CarefulAcquire w c.1

instance [DecidableEq P] [Fintype P] (w : World P) (c : P × Call) : Decidable (Careful w c) :=
  inferInstanceAs (Decidable (c.2 = .acquire → (w.locks c.1).pc = .idle →
    if (w.locks c.1).locked then (w.locks c.1).lockFd.isSome
    else w.entry = none → ∀ q, q ≠ c.1 → ¬ (w.locks q).Active))

/-! ## The invariant -/

/-- What holds of one process: an active one has the inode under the path open, or there is
none, and it owns the lock once it has got it. -/
structure Sound (w : World P) (p : P) : Prop where
  opened : (w.locks p).Active → (w.locks p).lockFd.isSome
  named : (w.locks p).Active → ∀ i, w.entry = some i → (w.locks p).lockFd = some i
  owned : (w.locks p).pc = .writing ∨ (w.locks p).holding →
    ∀ i, (w.locks p).lockFd = some i → w.owner i = some p
  marked : (w.locks p).pc = .writing → (w.locks p).locked
  settled : (w.locks p).holding →
    ((w.locks p).pc = .idle ∨ (w.locks p).pc = .cleaning) ∧ (w.locks p).locked
  held : (w.locks p).pc = .idle ∨ (w.locks p).pc = .cleaning →
    (w.locks p).locked → (w.locks p).lockFd.isSome → (w.locks p).holding

/-- Every process is sound and the active ones have the same inode open. -/
structure Inv (w : World P) : Prop where
  sound : ∀ p, Sound w p
  agree : ∀ p q, (w.locks p).Active → (w.locks q).Active →
    (w.locks p).lockFd = (w.locks q).lockFd

theorem inv_start : Inv ({} : World P) where
  sound _ := by constructor <;> simp [Lock.Active]
  agree _ _ _ _ := rfl

theorem Inv.atMostOneHolder (h : Inv w) : w.AtMostOneHolder := by
  intro p q hp hq
  have hp' : (w.locks p).Active := Or.inr (Or.inr hp)
  have hq' : (w.locks q).Active := Or.inr (Or.inr hq)
  obtain ⟨i, hi⟩ := Option.isSome_iff_exists.mp ((h.sound p).opened hp')
  have hown := (h.sound p).owned (Or.inr hp) i hi
  have hown' := (h.sound q).owned (Or.inr hq) i (h.agree p q hp' hq' ▸ hi)
  exact Option.some.inj (hown.symm.trans hown')

/-- A process whose lock object is unchanged stays sound while its locks remain and no new
inode comes under the path. -/
theorem Sound.frame (h : Sound w q) (hlocks : w'.locks q = w.locks q)
    (hentry : (w.locks q).Active → ∀ i, w'.entry = some i → w.entry = some i)
    (howner : ∀ i, w.owner i = some q → w'.owner i = some q) : Sound w' q := by
  constructor
  · rw [hlocks]
    exact h.opened
  · rw [hlocks]
    exact fun hq i hi => h.named hq i (hentry hq i hi)
  · rw [hlocks]
    exact fun hq i hi => howner i (h.owned hq i hi)
  · rw [hlocks]
    exact h.marked
  · rw [hlocks]
    exact h.settled
  · rw [hlocks]
    exact h.held

/-- A process inside one of the calls does not hold the lock yet, or no longer. -/
theorem Sound.not_holding (h : Sound w p) (hpc : (w.locks p).pc ≠ .idle)
    (hpc' : (w.locks p).pc ≠ .cleaning) : ¬ (w.locks p).holding :=
  fun hh => ((h.settled hh).1).elim hpc hpc'

/-- The name may go at any time. -/
theorem Inv.setEntry (h : Inv w) {entry : Option ℕ}
    (hentry : ∀ i, entry = some i → w.entry = some i) : Inv { w with entry := entry } where
  sound q := (h.sound q).frame rfl (fun _ => hentry) (fun _ hi => hi)
  agree := h.agree

theorem World.entryAfter_eq_some {ok : Bool} {i : ℕ} (hi : w.entryAfter ok = some i) :
    w.entry = some i := by
  cases ok with
  | true => cases hi
  | false => exact hi

/-- A step of `p` keeps the invariant when it leaves the others their locks and the name. -/
theorem Inv.change (h : Inv w) (hlocks : ∀ q, q ≠ p → w'.locks q = w.locks q)
    (hentry : ∀ q, q ≠ p → (w.locks q).Active → ∀ i, w'.entry = some i → w.entry = some i)
    (howner : ∀ q, q ≠ p → ∀ i, w.owner i = some q → w'.owner i = some q)
    (hself : Sound w' p)
    (hagree : (w'.locks p).Active → ∀ q, q ≠ p → (w.locks q).Active →
      (w.locks q).lockFd = (w'.locks p).lockFd) : Inv w' := by
  constructor
  · intro q
    by_cases hq : q = p
    · exact hq ▸ hself
    · exact (h.sound q).frame (hlocks q hq) (hentry q hq) (howner q hq)
  · intro q r hq hr
    by_cases hqp : q = p
    · by_cases hrp : r = p
      · rw [hqp, hrp]
      · subst hqp
        rw [hlocks r hrp] at hr ⊢
        exact (hagree hq r hrp hr).symm
    · rw [hlocks q hqp] at hq ⊢
      by_cases hrp : r = p
      · subst hrp
        exact hagree hr q hqp hq
      · rw [hlocks r hrp] at hr ⊢
        exact h.agree q r hq hr

/-- A step after which the process is not active and may have given its lock back. -/
theorem Inv.leave (h : Inv w) {l : Lock} (hlocks : ∀ q, q ≠ p → w'.locks q = w.locks q)
    (hp : w'.locks p = l) (hentry : ∀ i, w'.entry = some i → w.entry = some i)
    (howner : ∀ q, q ≠ p → ∀ i, w.owner i = some q → w'.owner i = some q)
    (hl : ¬ l.Active) (hheld : l.pc = .idle ∨ l.pc = .cleaning → l.locked → ¬ l.lockFd.isSome) :
    Inv w' := by
  have hwriting : l.pc ≠ .writing := fun hpc => hl (Or.inr (Or.inl hpc))
  have hholding : ¬ l.holding := fun hh => hl (Or.inr (Or.inr hh))
  refine h.change hlocks (fun _ _ _ => hentry) howner ?_ (hp ▸ fun hl' => absurd hl' hl)
  constructor
  · exact hp ▸ fun hl' => absurd hl' hl
  · exact hp ▸ fun hl' => absurd hl' hl
  · exact hp ▸ fun hpc => absurd hpc (not_or.mpr ⟨hwriting, hholding⟩)
  · exact hp ▸ fun hpc => absurd hpc hwriting
  · exact hp ▸ fun hh => absurd hh hholding
  · exact hp ▸ fun hpc hlocked hfd => absurd hfd (hheld hpc hlocked)

/-! ## What a call changes -/

variable [DecidableEq P]

namespace World

@[simp] theorem locks_set_self (w : World P) (p : P) (l : Lock) : (w.set p l).locks p = l := by
  simp [set]

theorem locks_set_of_ne (w : World P) (l : Lock) (h : q ≠ p) :
    (w.set p l).locks q = w.locks q := by
  simp [set, h]

@[simp] theorem entry_set (w : World P) (p : P) (l : Lock) : (w.set p l).entry = w.entry := rfl

@[simp] theorem owner_set (w : World P) (p : P) (l : Lock) : (w.set p l).owner = w.owner := rfl

/-- Another process keeps its locks. -/
theorem owner_drop_of_ne {fd : Option ℕ} {i : ℕ} (h : q ≠ p) (hi : w.owner i = some q) :
    (w.drop p fd).owner i = some q := by
  show (if fd = some i ∧ w.owner i = some p then none else w.owner i) = some q
  have hne : w.owner i ≠ some p := fun hp => h (Option.some.inj (hi.symm.trans hp))
  rw [if_neg fun hp => hne hp.2, hi]

end World

/-- A step that only moves the process on. -/
theorem Inv.set (h : Inv w) {l : Lock} (hself : Sound (w.set p l) p)
    (hagree : l.Active → l.lockFd = (w.locks p).lockFd ∧ (w.locks p).Active) :
    Inv (w.set p l) := by
  refine h.change (fun q hq => World.locks_set_of_ne w l hq) (fun _ _ _ _ hi => hi)
    (fun _ _ _ hi => hi) hself ?_
  rw [World.locks_set_self]
  intro hl q _ hq
  obtain ⟨hfd, hp⟩ := hagree hl
  rw [hfd]
  exact h.agree q p hq hp

/-- A step after which the process is not active and owns what it did before. -/
theorem Inv.setInactive (h : Inv w) {l : Lock} (hl : ¬ l.Active)
    (hheld : l.pc = .idle ∨ l.pc = .cleaning → l.locked → ¬ l.lockFd.isSome) :
    Inv (w.set p l) :=
  h.leave (fun _ hq => World.locks_set_of_ne w l hq) (World.locks_set_self w p l)
    (fun _ hi => hi) (fun _ _ _ hi => hi) hl hheld

/-- A step after which the process is not active and has no lock on the inode. -/
theorem Inv.dropInactive (h : Inv w) {l : Lock} {fd : Option ℕ} (hl : ¬ l.Active)
    (hheld : l.pc = .idle ∨ l.pc = .cleaning → l.locked → ¬ l.lockFd.isSome) :
    Inv ((w.drop p fd).set p l) :=
  h.leave (fun _ hq => World.locks_set_of_ne _ l hq) (World.locks_set_self _ p l)
    (fun _ hi => hi) (fun _ hq _ hi => World.owner_drop_of_ne hq hi) hl hheld

/-! ## The calls -/

theorem Inv.timeout (h : Inv w) : Inv (w.timeout p) := by
  unfold World.timeout
  dsimp only
  split
  next hpc =>
    have hholding := (h.sound p).not_holding (by simp [hpc]) (by simp [hpc])
    exact h.setInactive (by simp [Lock.Active, hholding]) (by simp)
  next => exact h

theorem Inv.close (h : Inv w) : Inv (w.close p) := by
  unfold World.close
  dsimp only
  split
  next hpc =>
    have hholding := (h.sound p).not_holding (by simp [hpc]) (by simp [hpc])
    exact h.dropInactive (by simp [Lock.Active, hholding]) (by simp)
  next hpc =>
    have hholding := (h.sound p).not_holding (by simp [hpc]) (by simp [hpc])
    exact h.dropInactive (by simp [Lock.Active, hholding]) (by simp)
  next => exact h

theorem Inv.release (h : Inv w) : Inv (w.release p) := by
  unfold World.release
  dsimp only
  split
  next hpc hfd => exact h.setInactive (by simp [Lock.Active, hpc]) (by simp [hfd])
  next hpc hfd => exact h.setInactive (by simp [Lock.Active]) (by simp)
  next => exact h

theorem Inv.unlock (h : Inv w) : Inv (w.unlock p) := by
  unfold World.unlock
  dsimp only
  split
  next hpc =>
    have hholding := (h.sound p).not_holding (by simp [hpc]) (by simp [hpc])
    exact h.dropInactive (by simp [Lock.Active, hholding]) (by simp)
  next => exact h

/-- A process at rest may go over to the cleanup and back. -/
theorem Inv.setRest (h : Inv w) {pc : Pc} (hpc : pc = .idle ∨ pc = .cleaning)
    (hold : (w.locks p).pc = .idle ∨ (w.locks p).pc = .cleaning)  :
    Inv (w.set p { w.locks p with pc := pc }) := by
  have hne : pc ≠ .trying ∧ pc ≠ .writing := by
    rcases hpc with rfl | rfl
    · simp
    · simp
  have hactive : ({ w.locks p with pc := pc } : Lock).Active → (w.locks p).Active := by
    simp only [Lock.Active, hne.1, hne.2, false_or]
    exact fun hh => Or.inr (Or.inr hh)
  have hp := h.sound p
  refine h.set ?_ fun hl => ⟨rfl, hactive hl⟩
  constructor
  all_goals simp only [World.locks_set_self, World.entry_set, World.owner_set]
  · exact fun hl => hp.opened (hactive hl)
  · exact fun hl => hp.named (hactive hl)
  · exact fun hl => hp.owned (Or.inr (hl.resolve_left hne.2))
  · exact fun hl => absurd hl hne.2
  · exact fun hl => ⟨hpc, (hp.settled hl).2⟩
  · exact fun _ => hp.held hold

theorem Inv.unlink (h : Inv w) {ok : Bool} : Inv (w.unlink p ok) := by
  unfold World.unlink
  dsimp only
  split
  next hpc =>
    have hholding := (h.sound p).not_holding (by simp [hpc]) (by simp [hpc])
    have hset : Inv (w.set p { w.locks p with pc := .idle, lockFd := none, locked := false }) :=
      h.setInactive (by simp [Lock.Active, hholding]) (by simp)
    exact hset.setEntry fun i hi => World.entryAfter_eq_some hi
  next hpc =>
    have hset : Inv (w.set p { w.locks p with pc := .idle }) :=
      h.setRest (Or.inl rfl) (Or.inr hpc)
    exact hset.setEntry fun i hi => World.entryAfter_eq_some hi
  next => exact h

theorem Inv.stat (h : Inv w) {old : Bool} : Inv (w.stat p old) := by
  unfold World.stat
  dsimp only
  split
  next hpc =>
    split
    · exact h.setRest (Or.inr rfl) (Or.inl hpc)
    · exact h
  next => exact h

theorem Inv.write (h : Inv w) {ok : Bool} : Inv (w.write p ok) := by
  unfold World.write
  dsimp only
  split
  next hpc =>
    have hp := h.sound p
    have hactive : (w.locks p).Active := Or.inr (Or.inl hpc)
    split
    · refine h.set ?_ fun _ => ⟨rfl, hactive⟩
      constructor
      all_goals simp only [World.locks_set_self, World.entry_set, World.owner_set]
      · exact fun _ => hp.opened hactive
      · exact fun _ => hp.named hactive
      · exact fun _ => hp.owned (Or.inl hpc)
      · simp
      · exact fun _ => ⟨Or.inl trivial, hp.marked hpc⟩
      · simp
    · have hholding := hp.not_holding (by simp [hpc]) (by simp [hpc])
      refine h.set ?_ fun _ => ⟨rfl, hactive⟩
      constructor
      all_goals simp only [World.locks_set_self, World.entry_set, World.owner_set]
      · exact fun _ => hp.opened hactive
      · exact fun _ => hp.named hactive
      · simp [hholding]
      · simp
      · exact fun hh => absurd hh hholding
      · simp
  next => exact h

theorem Inv.flock (h : Inv w) : Inv (w.flock p) := by
  unfold World.flock
  dsimp only
  split
  next i hpc hfd =>
    split
    next hfree =>
      have hp := h.sound p
      have hactive : (w.locks p).Active := Or.inl hpc
      have hholding := hp.not_holding (by simp [hpc]) (by simp [hpc])
      refine h.change (fun q hq => World.locks_set_of_ne w _ hq) (fun _ _ _ _ hi => hi) ?_ ?_ ?_
      · intro q hq j hj
        have hji : j ≠ i := by
          rintro rfl
          rcases hfree with hfree | hfree
          · simp [hfree] at hj
          · exact hq (Option.some.inj (hj.symm.trans hfree))
        show Function.update w.owner i (some p) j = some q
        rw [Function.update_of_ne hji, hj]
      · constructor
        all_goals simp only [World.locks_set_self, World.entry_set]
        · exact fun _ => hp.opened hactive
        · exact fun _ => hp.named hactive
        · intro _ j hj
          rw [hfd] at hj
          rw [← Option.some.inj hj, Function.update_self]
        · simp
        · exact fun hh => absurd hh hholding
        · simp
      · intro _ q _ hq
        exact (h.agree q p hq hactive).trans (by simp)
    next => exact h
  next => exact h

/-- A careful `acquire` opens the inode that every active process has open. -/
theorem Inv.acquire (h : Inv w) (hcareful : CarefulAcquire w p) : Inv (w.acquire p) := by
  unfold World.acquire
  dsimp only
  split
  next => exact h
  next hpc =>
    rw [not_not] at hpc
    have hp := h.sound p
    have hcall := hcareful hpc
    split
    next hlocked =>
      -- a locked object whose file is open belongs to a holder already
      rw [if_pos hlocked] at hcall
      have hholding := hp.held (Or.inl hpc) hlocked hcall
      have hsame : { w.locks p with holding := true } = w.locks p := by
        rw [← hholding]
      rw [hsame]
      have hset : w.set p (w.locks p) = w := by simp [World.set]
      rw [hset]
      exact h
    next hlocked =>
      rw [if_neg hlocked] at hcall
      have hholding : ¬ (w.locks p).holding := fun hh => hlocked (hp.settled hh).2
      split
      next i hentry =>
        refine h.change (fun q hq => World.locks_set_of_ne w _ hq) (fun _ _ _ _ hi => hi)
          (fun _ _ _ hi => hi) ?_ ?_
        · constructor
          all_goals simp [hentry, hholding]
        · intro _ q _ hq
          rw [World.locks_set_self]
          exact (h.sound q).named hq i hentry
      next hentry =>
        have hothers := hcall hentry
        refine h.change (fun q hq => World.locks_set_of_ne w _ hq)
          (fun q hq hactive => absurd hactive (hothers q hq)) (fun _ _ _ hi => hi) ?_
          (fun _ q hq hactive => absurd hactive (hothers q hq))
        constructor
        all_goals simp [hholding]

/-! ## Runs -/

theorem Inv.perform (h : Inv w) {c : P × Call} (hcareful : Careful w c) : Inv (w.perform c) := by
  obtain ⟨p, call⟩ := c
  cases call with
  | acquire => exact h.acquire (hcareful rfl)
  | flock => exact h.flock
  | write ok => exact h.write
  | timeout => exact h.timeout
  | close => exact h.close
  | release => exact h.release
  | unlock => exact h.unlock
  | unlink ok => exact h.unlink
  | stat old => exact h.stat

/-- **Only a careless `acquire` lets two processes hold the lock of a port.** -/
theorem atMostOneHolder_run (calls : List (P × Call))
    (hcareful : ∀ s ∈ steps World.perform ({} : World P) calls, Careful s.1 s.2) :
    (run World.perform ({} : World P) calls).AtMostOneHolder :=
  Inv.atMostOneHolder
    (run_invariant (fun _ _ h hc => h.perform hc) inv_start hcareful)

/-- One process waits for the lock while the other holds and releases it. -/
def handOver : List (Bool × Call) :=
  [(true, .acquire), (true, .flock), (true, .write true), (false, .acquire), (false, .flock),
    (true, .release), (true, .unlock), (true, .close), (true, .unlink true),
    (false, .flock), (false, .write true)]

theorem atMostOneHolder_handOver :
    (∀ s ∈ steps World.perform ({} : World Bool) handOver, Careful s.1 s.2) ∧
      ((run World.perform ({} : World Bool) handOver).locks false).holding ∧
      (run World.perform ({} : World Bool) handOver).AtMostOneHolder :=
  have hcareful : ∀ s ∈ steps World.perform ({} : World Bool) handOver, Careful s.1 s.2 := by
    decide
  ⟨hcareful, by decide, atMostOneHolder_run handOver hcareful⟩

/-- Process `1` waits for the lock of `0`, gets it, and loses the file to the `unlink` of `0`;
process `2` creates the file again. -/
def thirdCreates : List (ℕ × Call) :=
  [(0, .acquire), (0, .flock), (0, .write true), (1, .acquire),
    (0, .release), (0, .unlock), (0, .close), (1, .flock), (1, .write true), (0, .unlink true),
    (2, .acquire), (2, .flock), (2, .write true)]

theorem not_atMostOneHolder_thirdCreates :
    ¬ ∀ calls : List (ℕ × Call), (run World.perform ({} : World ℕ) calls).AtMostOneHolder := by
  intro h
  have hsame : (1 : ℕ) = 2 := h thirdCreates 1 2 (by decide) (by decide)
  cases hsame

end OpenHands.PortLock
