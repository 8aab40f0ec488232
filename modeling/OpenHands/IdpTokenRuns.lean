/-
# Whether concurrent calls refresh the tokens once

Refreshes are numbered: each one presents the refresh token of the pair that the one before it
has left.  So no refresh token is presented twice, whatever the lifetimes are.  That calls which
wait for a refresh do not refresh again needs more: the new access token must still have four
hours left when they get the lock.
-/
import OpenHands.IdpTokens

namespace OpenHands.IdpTokens

open Run

variable {C : Type*} [DecidableEq C] {S : Setup} {w : World C} {c : C}

/-- The refresh token of the pair that the `n`-th refresh has left. -/
def Setup.refreshToken (S : Setup) : ℕ → String
  | 0 => (S.record.map TokenRecord.refreshToken).getD ""
  | n + 1 => (S.answers n).2

/-- The refreshes that have begun. -/
def World.begun (w : World C) : ℕ := w.version + if w.lock.isSome then 1 else 0

/-- What holds of every run: refreshes are presented and found one after the other. -/
structure Inv (S : Setup) (w : World C) : Prop where
  absent : S.record = none → w.record = none ∧ w.begun = 0
  record : ∀ record, w.record = some record → record.refreshToken = S.refreshToken w.version
  locked : w.lock ≠ none → w.record ≠ none
  calledAt : ∀ c since, w.calls c = .waiting since → since ≤ w.version
  presented : w.presented = (List.range w.begun).map S.refreshToken
  found : (w.checked.filter (fun entry => entry.outcome = .refreshed)).map Checked.found
    = List.range w.begun
  checked : ∀ entry ∈ w.checked, entry.calledAt ≤ entry.found
  held : w.held.length = w.version + 1
  last : w.held[w.version]? = some w.record

omit [DecidableEq C] in
theorem inv_start (S : Setup) : Inv S (S.start : World C) where
  absent := fun h => ⟨h, rfl⟩
  record := fun record h => by
    show record.refreshToken = (S.record.map TokenRecord.refreshToken).getD ""
    change S.record = some record at h
    rw [h]
    rfl
  locked := fun h => absurd rfl h
  calledAt := fun _ _ h => by cases h
  presented := rfl
  found := rfl
  checked := fun _ h => by cases h
  held := rfl
  last := rfl

/-! ## A call gets the lock -/

/-- Nothing happens unless the lock is free and the call waits for it; then the call returns
the tokens, raises, or begins to refresh them. -/
theorem acquire_cases (w : World C) (c : C) :
    (w.acquire c = w ∧ ∀ since, w.lock = none → w.calls c ≠ .waiting since) ∨
      ∃ since, w.lock = none ∧ w.calls c = .waiting since ∧
        ((w.record = none ∧
            w.acquire c
              = w.settle c (.returned none) ⟨since, w.version, false, .returned none⟩) ∨
          ∃ record, w.record = some record ∧
            ((record.accessExpired w.clock = false ∧ w.acquire c
                = w.settle c (.returned (some record))
                  ⟨since, w.version, false, .returned (some record)⟩) ∨
              (record.accessExpired w.clock = true ∧ record.refreshExpired w.clock = true ∧
                w.acquire c = w.settle c .raised ⟨since, w.version, true, .raised⟩) ∨
              (record.accessExpired w.clock = true ∧ record.refreshExpired w.clock = false ∧
                w.acquire c =
                  { w.settle c .refreshing ⟨since, w.version, true, .refreshed⟩ with
                    lock := some c
                    presented := w.presented ++ [record.refreshToken] }))) := by
  unfold World.acquire
  cases hlock : w.lock with
  | some holder =>
    left
    exact ⟨rfl, fun since h => by cases h⟩
  | none =>
    cases hcall : w.calls c with
    | waiting since =>
      right
      refine ⟨since, rfl, rfl, ?_⟩
      cases hrecord : w.record with
      | none => exact Or.inl ⟨rfl, rfl⟩
      | some record =>
        right
        refine ⟨record, rfl, ?_⟩
        dsimp only
        unfold checkExpirationAndRefresh
        cases hexpired : record.accessExpired w.clock with
        | false => exact Or.inl ⟨rfl, rfl⟩
        | true =>
          cases hrefresh : record.refreshExpired w.clock with
          | true => exact Or.inr (Or.inl ⟨rfl, rfl, rfl⟩)
          | false => exact Or.inr (Or.inr ⟨rfl, rfl, rfl⟩)
    | idle => exact Or.inl ⟨rfl, fun since _ h => by cases h⟩
    | refreshing => exact Or.inl ⟨rfl, fun since _ h => by cases h⟩
    | returned tokens => exact Or.inl ⟨rfl, fun since _ h => by cases h⟩
    | raised => exact Or.inl ⟨rfl, fun since _ h => by cases h⟩

/-- A call whose state is replaced by one that does not wait. -/
theorem calledAt_update (h : Inv S w) {state : CallState} (hstate : ∀ since, state ≠ .waiting since)
    (d : C) (since : ℕ) (hd : Function.update w.calls c state d = .waiting since) :
    since ≤ w.version := by
  by_cases hdc : d = c
  · subst hdc
    rw [Function.update_self] at hd
    exact absurd hd (hstate since)
  · rw [Function.update_of_ne hdc] at hd
    exact h.calledAt d since hd

theorem Inv.settle (h : Inv S w) {state : CallState} (hstate : ∀ since, state ≠ .waiting since)
    {entry : Checked} (hle : entry.calledAt ≤ entry.found) (hout : entry.outcome ≠ .refreshed) :
    Inv S (w.settle c state entry) where
  absent := h.absent
  record := h.record
  locked := h.locked
  calledAt := calledAt_update h hstate
  presented := h.presented
  found := by
    show ((w.checked ++ [entry]).filter _).map _ = _
    rw [List.filter_append, List.filter_singleton, decide_eq_false hout]
    simp only [cond_false, List.append_nil]
    exact h.found
  checked := by
    intro other hother
    rcases List.mem_append.mp hother with hother | hother
    · exact h.checked other hother
    · rw [List.mem_singleton.mp hother]
      exact hle
  held := h.held
  last := h.last

/-- A refresh begins with the refresh token that has not been presented yet. -/
theorem Inv.beginRefresh (h : Inv S w) (hlock : w.lock = none) {record : TokenRecord}
    (hrecord : w.record = some record) {since : ℕ} (hsince : since ≤ w.version) :
    Inv S { w.settle c .refreshing ⟨since, w.version, true, .refreshed⟩ with
      lock := some c
      presented := w.presented ++ [record.refreshToken] } := by
  have hbefore : w.begun = w.version := by
    unfold World.begun
    rw [hlock]
    rfl
  constructor
  · intro hnone
    rw [(h.absent hnone).1] at hrecord
    cases hrecord
  · exact h.record
  · intro _ hnone
    change w.record = none at hnone
    rw [hnone] at hrecord
    cases hrecord
  · exact calledAt_update h fun _ heq => by cases heq
  · show w.presented ++ [record.refreshToken] = (List.range (w.version + 1)).map S.refreshToken
    rw [h.presented, hbefore, List.range_succ, List.map_append, h.record record hrecord]
    rfl
  · show ((w.checked ++ [_]).filter _).map _ = List.range (w.version + 1)
    rw [List.filter_append, List.map_append, h.found, hbefore, List.range_succ]
    rfl
  · intro other hother
    rcases List.mem_append.mp hother with hother | hother
    · exact h.checked other hother
    · rw [List.mem_singleton.mp hother]
      exact hsince
  · exact h.held
  · exact h.last

theorem Inv.acquire (h : Inv S w) (c : C) : Inv S (w.acquire c) := by
  rcases acquire_cases w c with ⟨hsame, -⟩ | ⟨since, hlock, hcall, hcases⟩
  · rw [hsame]
    exact h
  · have hsince := h.calledAt c since hcall
    rcases hcases with ⟨-, heq⟩ | ⟨record, hrecord, ⟨-, heq⟩ | ⟨-, -, heq⟩ | ⟨-, -, heq⟩⟩
    · rw [heq]
      exact h.settle (fun _ heq => by cases heq) hsince fun heq => by cases heq
    · rw [heq]
      exact h.settle (fun _ heq => by cases heq) hsince fun heq => by cases heq
    · rw [heq]
      exact h.settle (fun _ heq => by cases heq) hsince fun heq => by cases heq
    · rw [heq]
      exact h.beginRefresh hlock hrecord hsince

/-! ## The provider answers -/

/-- The answer of the provider has both tokens. -/
theorem parse_response (S : Setup) (n : ℕ) (lifetimes : Lifetimes) (now : ℕ) :
    ∃ tokens, parseRefreshResponse (S.response n lifetimes) now = some tokens ∧
      tokens.refreshToken = S.refreshToken (n + 1) := by
  unfold parseRefreshResponse
  exact ⟨_, if_neg (not_or.mpr (S.answers_ne n)), rfl⟩

theorem Inv.respond (h : Inv S w) (lifetimes : Lifetimes) : Inv S (w.respond S lifetimes) := by
  unfold World.respond
  cases hlock : w.lock with
  | none => exact h
  | some holder =>
    obtain ⟨tokens, hparse, htoken⟩ := parse_response S w.version lifetimes w.clock
    simp only [hparse]
    have hbegun : w.begun = w.version + 1 := by
      unfold World.begun
      rw [hlock]
      rfl
    have hpresent : S.record ≠ none := fun hnone =>
      h.locked (by rw [hlock]; exact Option.some_ne_none _) (h.absent hnone).1
    constructor
    · exact fun hnone => absurd hnone hpresent
    · intro record hrecord
      cases hrecord
      exact htoken
    · exact fun hne => absurd rfl hne
    · intro d since hd
      exact Nat.le_succ_of_le (calledAt_update h (fun _ heq => by cases heq) d since hd)
    · show w.presented = (List.range (w.version + 1)).map S.refreshToken
      rw [h.presented, hbegun]
    · show (w.checked.filter _).map _ = List.range (w.version + 1)
      rw [h.found, hbegun]
    · exact h.checked
    · show (w.held ++ [some tokens]).length = w.version + 1 + 1
      rw [List.length_append, h.held]
      rfl
    · show (w.held ++ [some tokens])[w.version + 1]? = _
      rw [← h.held, List.getElem?_concat_length]

theorem Inv.perform (h : Inv S w) (move : Move C) : Inv S (w.perform S move) := by
  cases move with
  | call c =>
    dsimp only [World.perform]
    split
    · refine ⟨h.absent, h.record, h.locked, fun d since hd => ?_, h.presented, h.found, h.checked,
        h.held, h.last⟩
      change Function.update w.calls c _ d = _ at hd
      by_cases hdc : d = c
      · subst hdc
        rw [Function.update_self] at hd
        cases hd
        exact Nat.le_refl _
      · rw [Function.update_of_ne hdc] at hd
        exact h.calledAt d since hd
    · exact h
  | acquire c => exact h.acquire c
  | respond lifetimes => exact h.respond lifetimes
  | elapse seconds =>
    exact ⟨h.absent, h.record, h.locked, h.calledAt, h.presented, h.found, h.checked, h.held,
      h.last⟩

/-! ## What the calls share -/

/-- A call has done what it should with the pair that it found. -/
structure Checked.Kept (held : List (Option TokenRecord)) (entry : Checked) : Prop where
  refreshes : entry.calledAt = entry.found → entry.expired = true → entry.outcome = .refreshed
  waited : entry.calledAt < entry.found →
    ∃ tokens, held[entry.found]? = some tokens ∧ entry.outcome = .returned tokens

/-- All calls that got the lock have. -/
def World.Kept (w : World C) : Prop := ∀ entry ∈ w.checked, entry.Kept w.held

/-- No two refreshes leave one pair. -/
theorem Setup.refreshToken_inj {S : Setup} {record : TokenRecord} (h : S.record = some record)
    {m n : ℕ} (heq : S.refreshToken m = S.refreshToken n) : m = n := by
  have hzero : S.refreshToken 0 = record.refreshToken := by
    unfold Setup.refreshToken
    rw [h]
    rfl
  cases m with
  | zero =>
    cases n with
    | zero => rfl
    | succ n => exact absurd (heq.symm.trans hzero) (S.answers_new n record h)
  | succ m =>
    cases n with
    | zero => exact absurd (heq.trans hzero) (S.answers_new m record h)
    | succ n => rw [S.answers_inj m n heq]

omit [DecidableEq C] in
/-- Refresh tokens are presented once, whatever the lifetimes are. -/
theorem Inv.presented_nodup (h : Inv S w) : w.presented.Nodup := by
  rw [h.presented]
  cases hrecord : S.record with
  | none =>
    rw [(h.absent hrecord).2]
    exact List.nodup_nil
  | some record =>
    exact List.nodup_range.map_on fun _ _ _ _ heq => Setup.refreshToken_inj hrecord heq

omit [DecidableEq C] in
/-- Of the calls that were made with one pair one refreshes, if those that waited do not. -/
theorem Inv.countP_refreshed_le (h : Inv S w) (hkept : w.Kept) (v : ℕ) :
    w.checked.countP (fun entry => entry.calledAt = v ∧ entry.outcome = .refreshed) ≤ 1 := by
  have hnodup : ((w.checked.filter (fun entry => entry.outcome = .refreshed)).map
      Checked.found).Nodup := by
    rw [h.found]
    exact List.nodup_range
  have hcount : w.checked.countP (fun entry => entry.calledAt = v ∧ entry.outcome = .refreshed)
      ≤ ((w.checked.filter (fun entry => entry.outcome = .refreshed)).map
        Checked.found).countP (· = v) := by
    rw [List.countP_map, List.countP_filter]
    refine List.countP_mono_left fun entry hentry hrefreshed => ?_
    obtain ⟨hcalled, hout⟩ := of_decide_eq_true hrefreshed
    have hfound : entry.found = v := by
      rcases Nat.lt_or_eq_of_le (h.checked entry hentry) with hlt | heq
      · obtain ⟨tokens, -, hreturned⟩ := (hkept entry hentry).waited hlt
        rw [hout] at hreturned
        cases hreturned
      · rw [← heq, hcalled]
    simp [hfound, hout]
  have hone : ((w.checked.filter (fun entry => entry.outcome = .refreshed)).map
      Checked.found).countP (· = v) ≤ 1 := by
    have hle := List.nodup_iff_count_le_one.mp hnodup v
    rw [List.count_eq_countP] at hle
    rw [List.countP_congr (q := (· == v)) fun n _ => by rw [decide_eq_true_iff, beq_iff_eq]]
    exact hle
  exact Nat.le_trans hcount hone

omit [DecidableEq C] in
theorem Inv.shared_iff (h : Inv S w) : w.Shared ↔ w.Kept := by
  constructor
  · exact fun hshared entry hentry =>
      ⟨hshared.refreshes entry hentry, hshared.waited entry hentry⟩
  · exact fun hkept => ⟨h.presented_nodup, h.countP_refreshed_le hkept,
      fun entry hentry => (hkept entry hentry).refreshes,
      fun entry hentry => (hkept entry hentry).waited⟩

/-! ## What a step adds -/

/-- A call is added to those that did what they should. -/
theorem kept_settle_iff (hkept : w.Kept) {state : CallState}
    {added : Checked} : (w.settle c state added).Kept ↔ added.Kept w.held := by
  show (∀ entry ∈ w.checked ++ [added], entry.Kept w.held) ↔ _
  rw [List.forall_mem_append, List.forall_mem_singleton]
  exact and_iff_right hkept

omit [DecidableEq C] in
/-- A call that does not find its access token expired returns what the record holds. -/
theorem Inv.kept_returned (h : Inv S w) (since : ℕ) :
    Checked.Kept w.held ⟨since, w.version, false, .returned w.record⟩ where
  refreshes := fun _ hexpired => by cases hexpired
  waited := fun _ => ⟨w.record, h.last, rfl⟩

/-- With both tokens expired a call neither refreshes nor returns. -/
theorem not_kept_raised {held : List (Option TokenRecord)} {since version : ℕ}
    (hle : since ≤ version) : ¬ Checked.Kept held ⟨since, version, true, .raised⟩ := by
  intro hkept
  rcases Nat.lt_or_eq_of_le hle with hlt | heq
  · obtain ⟨tokens, -, hreturned⟩ := hkept.waited hlt
    cases hreturned
  · cases hkept.refreshes heq rfl

/-- A call that refreshes must be one whose tokens nobody has refreshed since. -/
theorem kept_refreshed_iff {held : List (Option TokenRecord)} {since version : ℕ}
    (hle : since ≤ version) :
    Checked.Kept held ⟨since, version, true, .refreshed⟩ ↔ since = version := by
  constructor
  · intro hkept
    rcases Nat.lt_or_eq_of_le hle with hlt | heq
    · obtain ⟨tokens, -, hreturned⟩ := hkept.waited hlt
      cases hreturned
    · exact heq
  · exact fun heq => ⟨fun _ _ => rfl, fun hlt => absurd heq (Nat.ne_of_lt hlt)⟩

omit [DecidableEq C] in
/-- The condition of a call that gets the lock, with what it was called at. -/
theorem mayRefresh_acquire_iff {since : ℕ} (hlock : w.lock = none)
    (hcall : w.calls c = .waiting since) : w.MayRefresh (.acquire c) ↔
      ∀ record, w.record = some record → record.accessExpired w.clock = true →
        since = w.version ∧ record.refreshExpired w.clock = false := by
  constructor
  · exact fun hmay record => hmay since record hlock hcall
  · intro hmay other record _ hother
    rw [hcall] at hother
    cases hother
    exact hmay record

/-- What earlier calls have returned stays among what the record has held. -/
theorem World.Kept.respond (hkept : w.Kept) (S : Setup) (lifetimes : Lifetimes) :
    (w.respond S lifetimes).Kept := by
  unfold World.respond
  cases hlock : w.lock with
  | none => exact hkept
  | some holder =>
    obtain ⟨tokens, hparse, -⟩ := parse_response S w.version lifetimes w.clock
    simp only [hparse]
    intro entry hentry
    refine ⟨(hkept entry hentry).refreshes, fun hlt => ?_⟩
    obtain ⟨returned, hheld, hout⟩ := (hkept entry hentry).waited hlt
    refine ⟨returned, ?_, hout⟩
    obtain ⟨hlength, -⟩ := List.getElem?_eq_some_iff.mp hheld
    rw [List.getElem?_append_left hlength]
    exact hheld

/-- A step keeps this up exactly when the call that gets the lock may refresh. -/
theorem Inv.kept_perform_iff (h : Inv S w) (hkept : w.Kept)
    (move : Move C) :
    (w.perform S move).Kept ↔ w.MayRefresh move := by
  cases move with
  | call c =>
    refine iff_of_true ?_ trivial
    dsimp only [World.perform]
    split
    · exact hkept
    · exact hkept
  | elapse seconds => exact iff_of_true hkept trivial
  | respond lifetimes =>
    refine iff_of_true ?_ trivial
    exact hkept.respond S lifetimes
  | acquire c =>
    show (w.acquire c).Kept ↔ _
    rcases acquire_cases w c with ⟨hsame, hnot⟩ | ⟨since, hlock, hcall, hcases⟩
    · rw [hsame]
      exact iff_of_true hkept fun since _ hlock hcall => absurd hcall (hnot since hlock)
    · have hsince := h.calledAt c since hcall
      rw [mayRefresh_acquire_iff hlock hcall]
      rcases hcases with ⟨hnone, heq⟩ | ⟨record, hrecord, hcases⟩
      · -- without a record there is nothing to refresh
        rw [heq, kept_settle_iff hkept, ← hnone]
        refine iff_of_true (h.kept_returned since) fun record hrecord => ?_
        rw [hnone] at hrecord
        cases hrecord
      · rw [hrecord]
        rcases hcases with ⟨hexpired, heq⟩ | ⟨hexpired, hrefresh, heq⟩ | ⟨hexpired, hrefresh, heq⟩
        · rw [heq, kept_settle_iff hkept, ← hrecord]
          refine iff_of_true (h.kept_returned since) fun other hother hexp => ?_
          rw [hrecord] at hother
          cases hother
          rw [hexpired] at hexp
          cases hexp
        · -- the call raises, whether it waited for a refresh or not
          rw [heq, kept_settle_iff hkept]
          refine iff_of_false (not_kept_raised hsince) fun hmay => ?_
          have hvalid := (hmay record rfl hexpired).2
          rw [hrefresh] at hvalid
          cases hvalid
        · -- the call refreshes, which it should do only if nobody has done so since
          rw [heq]
          show (w.settle c .refreshing _).Kept ↔ _
          rw [kept_settle_iff hkept, kept_refreshed_iff hsince]
          constructor
          · intro hcurrent other hother _
            cases hother
            exact ⟨hcurrent, hrefresh⟩
          · exact fun hmay => (hmay record rfl hexpired).1

/-! ## Runs -/

/-- In a state whose past is in order, the states of a run are so exactly when each step may
refresh. -/
theorem shared_steps_iff_of_inv {moves : List (Move C)} {w : World C} (h : Inv S w)
    (hkept : w.Kept) :
    (∀ s ∈ steps (World.perform S) w moves, (s.1.perform S s.2).Shared)
      ↔ ∀ s ∈ steps (World.perform S) w moves, s.1.MayRefresh s.2 := by
  refine forall_steps_iff (I := fun w => Inv S w ∧ w.Kept)
    (P := fun w move => (w.perform S move).Shared) (C := World.MayRefresh)
    (fun w move h => ?_) (fun w move h hmay => ?_) ⟨h, hkept⟩
  · rw [(h.1.perform move).shared_iff]
    exact h.1.kept_perform_iff h.2 move
  · exact ⟨h.1.perform move, (h.1.kept_perform_iff h.2 move).mpr hmay⟩

/-- **In every state of a run no refresh token has been presented twice, and the calls that
found the same access token expired have refreshed it once, if and only if each call that got
the lock was one that may refresh.** -/
theorem shared_steps_iff (S : Setup) (moves : List (Move C)) :
    (∀ s ∈ steps (World.perform S) S.start moves, (s.1.perform S s.2).Shared)
      ↔ ∀ s ∈ steps (World.perform S) S.start moves, s.1.MayRefresh s.2 :=
  shared_steps_iff_of_inv (inv_start S) fun _ h => by cases h

/-- The access token has expired, and the `n`-th refresh token is `n + 2` letters long. -/
def expiredTokens : Setup where
  record := some ⟨"access", "r", 100, 0⟩
  answers := fun n => ("access", String.ofList (List.replicate (n + 2) 'r'))
  answers_ne := fun n => ⟨show "access" ≠ "" by decide, fun heq => by cases String.ofList_inj.mp heq⟩
  answers_inj := fun m n heq => by
    have hlength := congrArg List.length (String.ofList_inj.mp heq)
    rw [List.length_replicate, List.length_replicate] at hlength
    exact Nat.add_right_cancel hlength
  answers_new := fun n record hrecord heq => by
    cases hrecord
    have hlength := congrArg List.length (String.ofList_inj.mp heq)
    rw [List.length_replicate] at hlength
    exact absurd (Nat.succ.inj hlength) (Nat.succ_ne_zero n)

/-- Access tokens last two hours. -/
def twoHours : Lifetimes where
  access := 7200
  refresh := 604800
  access_pos := by decide
  refresh_pos := by decide

/-- Two calls wait, the first refreshes, and the second refreshes what the first has obtained. -/
theorem not_shared_twoHours :
    ¬ ∀ s ∈ steps (World.perform expiredTokens) (expiredTokens.start : World ℕ)
        [.call 1, .call 2, .acquire 1, .respond twoHours, .acquire 2],
      (s.1.perform expiredTokens s.2).Shared := by
  rw [shared_steps_iff_of_inv (inv_start expiredTokens) fun _ h => by cases h]
  simp only [steps_cons, List.forall_mem_cons]
  rintro ⟨-, -, -, -, hmay, -⟩
  have hzero := (hmay 0 _ rfl rfl rfl rfl).1
  cases hzero

end OpenHands.IdpTokens
