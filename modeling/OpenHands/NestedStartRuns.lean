/-
# Whether a nested conversation is started once

A call looks for the mark, waits for the runtime, and sets the mark without looking again.
Two calls that look before either sets it both start the conversation.  Where what a call
has seen is still so when it sets the mark, no such thing happens: the mark of a start in
progress is in redis, and after the first start has connected no call finds the runtime
stopped.
-/
import Mathlib.Data.Fintype.Basic
import OpenHands.NestedStarts

namespace OpenHands.Saas.NestedStart

open Run

variable {C : Type*} {S : Setup C} {w : World C} {c : C}

/-- The call has found the conversation stopped. -/
def CallState.AboutToStart (c : CallState) : Prop :=
  match c.pc with
  | .found info => info.status = .stopped
  | _ => False

instance (c : CallState) : Decidable c.AboutToStart := by
  unfold CallState.AboutToStart
  split <;> infer_instance

namespace World

/-- A call that is about to start the conversation finds no mark of it in redis. -/
def Unmarked (S : Setup C) (w : World C) : Move C → Prop
  | .mark c => (w.calls c).AboutToStart → ∀ d, ¬ w.redis.Present (S.key d)
  | _ => True

/-- Such a call finds the runtime without a connection as well: what it has seen is still
so. -/
def StillStopped (S : Setup C) (w : World C) : Move C → Prop
  | .mark c => (w.calls c).AboutToStart →
      (∀ d, ¬ w.redis.Present (S.key d)) ∧ w.connected = false
  | _ => True

instance [Fintype C] (move : Move C) : Decidable (StillStopped S w move) := by
  unfold StillStopped
  split <;> infer_instance

instance [Fintype C] (move : Move C) : Decidable (w.Admissible move) := by
  unfold Admissible
  split <;> infer_instance

theorem StillStopped.unmarked {move : Move C} (h : StillStopped S w move) :
    Unmarked S w move := by
  cases move with
  | mark c => exact fun habout => (h habout).1
  | _ => trivial

end World

/-! ## What a step does to the starts -/

/-- The starts, their marks, the runtime and the messages stay as they are. -/
structure SameStarts (w w' : World C) : Prop where
  task : ∀ c, (w'.calls c).task = (w.calls c).task
  since : ∀ c, (w'.calls c).since = (w.calls c).since
  redis : w'.redis = w.redis
  connected : w'.connected = w.connected
  messages : w'.messages = w.messages

theorem SameStarts.inProgress {w' : World C} (h : SameStarts w w') (c : C) :
    (w'.calls c).InProgress ↔ (w.calls c).InProgress := by
  unfold CallState.InProgress
  rw [h.task]

theorem sameStarts_refl (w : World C) : SameStarts w w :=
  ⟨fun _ => rfl, fun _ => rfl, rfl, rfl, rfl⟩

theorem inProgress_of_task {state : CallState} {stage : Stage} (h : state.task = some stage)
    (hstage : stage ≠ .done) : state.InProgress := by
  unfold CallState.InProgress
  rw [h]
  exact ⟨Option.some_ne_none stage, fun hdone => hstage (Option.some.inj hdone)⟩

/-! ## One start, and its mark -/

/-- One start is in progress at most, and its mark is in redis. -/
structure Marked (S : Setup C) (w : World C) : Prop where
  one : ∀ c d, (w.calls c).InProgress → (w.calls d).InProgress → c = d
  expiry : ∀ c, (w.calls c).InProgress →
    w.redis.expiry (S.key c) = (w.calls c).since + redisEntryTimeout
  young : ∀ c, (w.calls c).InProgress →
    w.redis.clock < (w.calls c).since + redisEntryTimeout

theorem marked_start : Marked S ({} : World C) where
  one := fun _ _ hc _ => absurd rfl hc.1
  expiry := fun _ hc => absurd rfl hc.1
  young := fun _ hc => absurd rfl hc.1

theorem Marked.present (h : Marked S w) (hc : (w.calls c).InProgress) :
    w.redis.Present (S.key c) := by
  unfold ExpiringKeys.Present
  rw [h.expiry c hc]
  exact h.young c hc

/-- Without a mark no start is in progress. -/
theorem Marked.idle (h : Marked S w) (hnone : ∀ d, ¬ w.redis.Present (S.key d)) (d : C) :
    ¬ (w.calls d).InProgress :=
  fun hd => hnone d (h.present hd)

theorem Marked.sameStarts {w' : World C} (h : Marked S w) (hsame : SameStarts w w') :
    Marked S w' := by
  constructor
  · intro c d hc hd
    exact h.one c d ((hsame.inProgress c).mp hc) ((hsame.inProgress d).mp hd)
  · intro c hc
    rw [hsame.redis, hsame.since]
    exact h.expiry c ((hsame.inProgress c).mp hc)
  · intro c hc
    rw [hsame.redis, hsame.since]
    exact h.young c ((hsame.inProgress c).mp hc)

/-! ## One message -/

/-- The message is sent by the start that has connected the runtime. -/
structure Sent (w : World C) : Prop where
  fresh : w.connected = false →
    w.messages = [] ∧ ∀ c, (w.calls c).InProgress → (w.calls c).task = some .creating
  past : w.connected = true → ∀ c, (w.calls c).task ≠ some .creating
  silent : ∀ c, (w.calls c).task = some .connected → w.messages = []
  oneMessage : w.messages.length ≤ 1

theorem sent_start : Sent ({} : World C) where
  fresh := fun _ => ⟨rfl, fun _ hc => absurd rfl hc.1⟩
  past := fun h => absurd h Bool.false_ne_true
  silent := fun _ _ => rfl
  oneMessage := Nat.zero_le 1

theorem Sent.sameStarts {w' : World C} (h : Sent w) (hsame : SameStarts w w') : Sent w' := by
  constructor
  · intro hconnected
    rw [hsame.connected] at hconnected
    rw [hsame.messages]
    refine ⟨(h.fresh hconnected).1, fun c hc => ?_⟩
    rw [hsame.task]
    exact (h.fresh hconnected).2 c ((hsame.inProgress c).mp hc)
  · intro hconnected c
    rw [hsame.connected] at hconnected
    rw [hsame.task]
    exact h.past hconnected c
  · intro c hc
    rw [hsame.task] at hc
    rw [hsame.messages]
    exact h.silent c hc
  · rw [hsame.messages]
    exact h.oneMessage

/-! ## Steps -/

variable [DecidableEq C]

@[simp] theorem World.calls_set_self (w : World C) (c : C) (state : CallState) :
    (w.set c state).calls c = state :=
  Function.update_self ..

theorem World.calls_set_of_ne (w : World C) {c d : C} (h : d ≠ c) (state : CallState) :
    (w.set c state).calls d = w.calls d :=
  Function.update_of_ne h ..

theorem sameStarts_set (w : World C) (c : C) (pc : Pc) :
    SameStarts w (w.set c { w.calls c with pc := pc }) := by
  refine ⟨fun d => ?_, fun d => ?_, rfl, rfl, rfl⟩
  · by_cases hd : d = c
    · rw [hd, World.calls_set_self]
    · rw [w.calls_set_of_ne hd]
  · by_cases hd : d = c
    · rw [hd, World.calls_set_self]
    · rw [w.calls_set_of_ne hd]

theorem sameStarts_get (w : World C) (c : C) : SameStarts w (w.get S c) := by
  unfold World.get
  split
  · exact sameStarts_set w c _
  · exact sameStarts_refl w

theorem sameStarts_query (w : World C) (c : C) (runtime : Option Runtime) :
    SameStarts w (w.query S c runtime) := by
  unfold World.query
  split
  · split
    · exact sameStarts_set w c _
    · exact sameStarts_set w c _
  · exact sameStarts_refl w

/-- A call sets the mark and starts the conversation, or it returns. -/
theorem mark_cases (w : World C) (c : C) :
    (w.calls c).AboutToStart ∧ (∃ info,
        w.mark S c
          = { w.set c { pc := .returned info, task := some .creating, since := w.redis.clock } with
              redis := w.redis.set (S.key c) redisEntryTimeout }) ∨
      ¬ (w.calls c).AboutToStart ∧ SameStarts w (w.mark S c) := by
  unfold World.mark
  split
  next info hpc =>
    split
    next hstopped =>
      refine Or.inl ⟨?_, info, rfl⟩
      unfold CallState.AboutToStart
      simp only [hpc, hstopped]
    next hstopped =>
      refine Or.inr ⟨fun habout => hstopped ?_, sameStarts_set w c _⟩
      unfold CallState.AboutToStart at habout
      rwa [hpc] at habout
  next hpc =>
    refine Or.inr ⟨fun habout => ?_, sameStarts_refl w⟩
    unfold CallState.AboutToStart at habout
    split at habout
    next info hfound => exact hpc info hfound
    next => exact habout

/-- The start of `c` goes from one stage to another. -/
theorem Marked.setStage {w' : World C} {stage : Stage} (h : Marked S w)
    (hc : (w.calls c).InProgress) (hcalls : w'.calls
      = (w.set c { w.calls c with task := some stage }).calls) (hredis : w'.redis = w.redis) :
    Marked S w' := by
  have hback : ∀ d, (w'.calls d).InProgress → (w.calls d).InProgress := by
    intro d hd
    by_cases hdc : d = c
    · rw [hdc]
      exact hc
    · rwa [hcalls, w.calls_set_of_ne hdc] at hd
  have hsince : ∀ d, (w'.calls d).since = (w.calls d).since := by
    intro d
    by_cases hdc : d = c
    · rw [hcalls, hdc, World.calls_set_self]
    · rw [hcalls, w.calls_set_of_ne hdc]
  constructor
  · exact fun d e hd he => h.one d e (hback d hd) (hback e he)
  · intro d hd
    rw [hredis, hsince]
    exact h.expiry d (hback d hd)
  · intro d hd
    rw [hredis, hsince]
    exact h.young d (hback d hd)

theorem Marked.mark (h : Marked S w) (hunmarked : World.Unmarked S w (.mark c)) :
    Marked S (w.mark S c) := by
  rcases mark_cases (S := S) w c with ⟨habout, info, heq⟩ | ⟨-, hsame⟩
  · have hidle : ∀ d, d ≠ c → ¬ ((w.mark S c).calls d).InProgress := by
      intro d hd
      rw [heq]
      show ¬ ((w.set c _).calls d).InProgress
      rw [w.calls_set_of_ne hd]
      exact h.idle (hunmarked habout) d
    have hother : ∀ d, ((w.mark S c).calls d).InProgress → d = c := by
      intro d hd
      by_contra hne
      exact hidle d hne hd
    have hself : (w.mark S c).calls c
        = { pc := .returned info, task := some .creating, since := w.redis.clock } := by
      rw [heq]
      exact w.calls_set_self c _
    constructor
    · intro d e hd he
      rw [hother d hd, hother e he]
    · intro d hd
      rw [hother d hd, hself, heq]
      exact w.redis.expiry_set_self ..
    · intro d hd
      rw [hother d hd, hself, heq]
      show w.redis.clock < w.redis.clock + 300
      omega
  · exact h.sameStarts hsame

/-- When a start is through, none is in progress. -/
theorem Marked.not_inProgress_finish (h : Marked S w) (hc : (w.calls c).InProgress) (d : C) :
    ¬ ((w.finish S c).calls d).InProgress := by
  unfold World.finish
  rw [if_pos hc]
  show ¬ ((w.set c { w.calls c with task := some .done }).calls d).InProgress
  by_cases hd : d = c
  · rw [hd, World.calls_set_self]
    exact fun hdone => hdone.2 rfl
  · rw [w.calls_set_of_ne hd]
    exact fun hprogress => hd (h.one d c hprogress hc)

theorem Marked.finish (h : Marked S w) : Marked S (w.finish S c) := by
  by_cases hc : (w.calls c).InProgress
  · have hnone := h.not_inProgress_finish hc
    constructor
    · exact fun d e hd => absurd hd (hnone d)
    · exact fun d hd => absurd hd (hnone d)
    · exact fun d hd => absurd hd (hnone d)
  · unfold World.finish
    rw [if_neg hc]
    exact h

theorem Marked.perform {move : Move C} (h : Marked S w) (hadm : w.Admissible move)
    (hunmarked : World.Unmarked S w move) : Marked S (w.perform S move) := by
  cases move with
  | get c => exact h.sameStarts (sameStarts_get w c)
  | query c runtime => exact h.sameStarts (sameStarts_query w c runtime)
  | mark c => exact h.mark hunmarked
  | connect c =>
    show Marked S (w.connect c)
    unfold World.connect
    split
    next htask =>
      exact h.setStage (inProgress_of_task htask (by decide)) rfl rfl
    next => exact h
  | post c =>
    show Marked S (w.post S c)
    unfold World.post
    split
    next htask =>
      exact h.setStage (inProgress_of_task htask (by decide)) rfl rfl
    next => exact h
  | finish c => exact h.finish
  | elapse seconds => exact ⟨h.one, h.expiry, hadm⟩

theorem Sent.mark (h : Sent w) (hmarked : Marked S w)
    (hstill : World.StillStopped S w (.mark c)) : Sent (w.mark S c) := by
  rcases mark_cases (S := S) w c with ⟨habout, info, heq⟩ | ⟨-, hsame⟩
  · obtain ⟨hnone, hconnected⟩ := hstill habout
    have htask : ∀ d, ((w.mark S c).calls d).InProgress →
        ((w.mark S c).calls d).task = some .creating := by
      intro d hd
      rw [heq] at hd ⊢
      change ((w.set c _).calls d).InProgress at hd
      show ((w.set c _).calls d).task = some .creating
      by_cases hdc : d = c
      · rw [hdc, World.calls_set_self]
      · rw [w.calls_set_of_ne hdc] at hd
        exact absurd hd (hmarked.idle hnone d)
    have hmessages : (w.mark S c).messages = w.messages := by rw [heq]; rfl
    constructor
    · intro _
      rw [hmessages]
      exact ⟨(h.fresh hconnected).1, htask⟩
    · intro hconnected'
      rw [heq] at hconnected'
      exact absurd (hconnected.symm.trans hconnected') Bool.false_ne_true
    · intro _ _
      rw [hmessages]
      exact (h.fresh hconnected).1
    · rw [hmessages]
      exact h.oneMessage
  · exact h.sameStarts hsame

theorem Sent.connect (h : Sent w) (hmarked : Marked S w) : Sent (w.connect c) := by
  unfold World.connect
  split
  next htask =>
    have hc := inProgress_of_task htask (by decide)
    have hmessages : w.messages = [] := by
      cases hconnected : w.connected with
      | false => exact (h.fresh hconnected).1
      | true => exact absurd htask (h.past hconnected c)
    constructor
    · exact fun hconnected => absurd hconnected Bool.noConfusion
    · intro _ d
      show ((w.set c _).calls d).task ≠ some .creating
      by_cases hd : d = c
      · rw [hd, World.calls_set_self]
        exact fun heq => Stage.noConfusion (Option.some.inj heq)
      · rw [w.calls_set_of_ne hd]
        exact fun heq => hd (hmarked.one d c (inProgress_of_task heq (by decide)) hc)
    · exact fun _ _ => hmessages
    · exact h.oneMessage
  next => exact h

theorem Sent.post (h : Sent w) (hmarked : Marked S w) : Sent (w.post S c) := by
  unfold World.post
  split
  next htask =>
    have hc := inProgress_of_task htask (by decide)
    have hconnected : w.connected = true := by
      by_contra hne
      have hcreating := (h.fresh (Bool.eq_false_iff.mpr hne)).2 c hc
      rw [htask] at hcreating
      exact Stage.noConfusion (Option.some.inj hcreating)
    constructor
    · exact fun hfalse => absurd (hconnected.symm.trans hfalse) Bool.noConfusion
    · intro _ d
      show ((w.set c _).calls d).task ≠ some .creating
      by_cases hd : d = c
      · rw [hd, World.calls_set_self]
        exact fun heq => Stage.noConfusion (Option.some.inj heq)
      · rw [w.calls_set_of_ne hd]
        exact h.past hconnected d
    · intro d hd
      change ((w.set c _).calls d).task = some .connected at hd
      by_cases hdc : d = c
      · rw [hdc, World.calls_set_self] at hd
        exact Stage.noConfusion (Option.some.inj hd)
      · rw [w.calls_set_of_ne hdc] at hd
        exact absurd (hmarked.one d c (inProgress_of_task hd (by decide)) hc) hdc
    · show (w.messages ++ _).length ≤ 1
      rw [h.silent c htask, List.nil_append]
      exact Option.length_toList_le
  next => exact h

theorem Sent.finish (h : Sent w) (hmarked : Marked S w) : Sent (w.finish S c) := by
  by_cases hc : (w.calls c).InProgress
  · have hnone := hmarked.not_inProgress_finish hc
    have hconnected : (w.finish S c).connected = w.connected := by
      unfold World.finish
      rw [if_pos hc]
      rfl
    have hmessages : (w.finish S c).messages = w.messages := by
      unfold World.finish
      rw [if_pos hc]
      rfl
    constructor
    · intro hfalse
      rw [hconnected] at hfalse
      rw [hmessages]
      exact ⟨(h.fresh hfalse).1, fun d hd => absurd hd (hnone d)⟩
    · exact fun _ d hd => hnone d (inProgress_of_task hd (by decide))
    · exact fun d hd => absurd (inProgress_of_task hd (by decide)) (hnone d)
    · rw [hmessages]
      exact h.oneMessage
  · unfold World.finish
    rw [if_neg hc]
    exact h

theorem Sent.perform {move : Move C} (h : Sent w) (hmarked : Marked S w)
    (hstill : World.StillStopped S w move) : Sent (w.perform S move) := by
  cases move with
  | get c => exact h.sameStarts (sameStarts_get w c)
  | query c runtime => exact h.sameStarts (sameStarts_query w c runtime)
  | mark c => exact h.mark hmarked hstill
  | connect c => exact h.connect hmarked
  | post c => exact h.post hmarked
  | finish c => exact h.finish hmarked
  | elapse seconds => exact ⟨h.fresh, h.past, h.silent, h.oneMessage⟩

/-! ## Runs -/

/-- **One start at a time and one message, where what a call has seen is still so when it
sets the mark.** -/
theorem startsOnce_run (S : Setup C) (moves : List (Move C))
    (hadm : ∀ s ∈ steps (World.perform S) ({} : World C) moves, s.1.Admissible s.2)
    (hstill : ∀ s ∈ steps (World.perform S) ({} : World C) moves,
      World.StillStopped S s.1 s.2) :
    (run (World.perform S) ({} : World C) moves).StartsOnce := by
  have hinv := run_invariant (I := fun w : World C => Marked S w ∧ Sent w)
    (C := fun w move => w.Admissible move ∧ World.StillStopped S w move)
    (fun w move h hc => ⟨h.1.perform hc.1 hc.2.unmarked, h.2.perform h.1 hc.2⟩)
    ⟨marked_start, sent_start⟩ fun s hs => ⟨hadm s hs, hstill s hs⟩
  exact ⟨hinv.1.one, hinv.2.oneMessage⟩

/-! ## Two starts -/

/-- The first of two calls starts the conversation and the second finds the mark. -/
def secondFindsMark : List (Move Bool) :=
  [.get true, .query true none, .mark true, .get false, .query false none, .mark false,
    .elapse 20, .connect true, .post true, .finish true]

/-- Two calls with the same message. -/
def twoCalls : Setup Bool where
  sid := "s"
  nestedUrl := fun runtimeId sid => runtimeId ++ sid
  requests := fun _ => { userId := "u", initialUserMsg := some "hello" }

theorem startsOnce_secondFindsMark :
    (run (World.perform twoCalls) ({} : World Bool) secondFindsMark).messages = ["hello"] ∧
      (run (World.perform twoCalls) ({} : World Bool) secondFindsMark).StartsOnce :=
  ⟨by decide, startsOnce_run twoCalls secondFindsMark (by decide) (by decide)⟩

/-- Both calls look for the mark before either sets it. -/
def bothLookFirst : List (Move Bool) :=
  [.get true, .get false, .query true none, .query false none, .mark true, .mark false,
    .connect true, .post true, .connect false, .post false]

theorem not_startsOnce_bothLookFirst :
    (∀ s ∈ steps (World.perform twoCalls) ({} : World Bool) bothLookFirst,
        s.1.Admissible s.2) ∧
      ¬ (run (World.perform twoCalls) ({} : World Bool) bothLookFirst).StartsOnce := by
  refine ⟨by decide, fun h => ?_⟩
  have hsame := h.oneStart true false (by decide) (by decide)
  cases hsame

end OpenHands.Saas.NestedStart
