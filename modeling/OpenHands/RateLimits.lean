/-
# The rate limiter

`InMemoryRateLimiter` (server/middleware.py) keeps the times of the requests of each host and
drops those that are too old whenever the host comes back.  Up to `requests` of them within
`seconds` pass, as many again pass after a sleep, and the others are refused.  A request that is
refused is counted as well.

Requests of a host are answered by what is left of its times.  `reply_eq` says that this is the
number of all its requests within the last seconds, so that nothing is lost by dropping; from it
follows how many can pass in any window of time.
-/
import Mathlib.Data.List.Infix
import Mathlib.Tactic.Linarith
import OpenHands.Lib.PyDict

namespace OpenHands.RateLimits

/-- `InMemoryRateLimiter`, without its history. -/
structure InMemoryRateLimiter where
  requests : ℤ := 2
  seconds : ℤ := 1
  sleepSeconds : ℤ := 1

/-- A request.  The clock is read twice, when the call begins and when old requests are removed;
times are in microseconds. -/
structure Request where
  host : String
  path : List Char
  now : ℤ
  cleanedAt : ℤ
  deriving DecidableEq, Repr

/-- `history`. -/
abbrev History := PyDict String (List ℤ)

/-- What becomes of a request: it is passed on, it is passed on after a sleep, or it is answered
with the status 429. -/
inductive Reply
  | passed
  | passedAfter (seconds : ℤ)
  | tooManyRequests
  deriving DecidableEq, Repr

/-- `is_rate_limited_request`. -/
def Request.isRateLimited (r : Request) : Bool := !(['/', 'a', 's', 's', 'e', 't', 's'] <+: r.path)

namespace InMemoryRateLimiter

variable (self : InMemoryRateLimiter)

/-- `cutoff`. -/
def cutoff (r : Request) : ℤ := r.cleanedAt - self.seconds * 1000000

/-- `self.history[key]`. -/
def timesOf (history : History) (key : String) : List ℤ := (history.get? key).getD []

/-- `_clean_old_requests`. -/
def cleanOldRequests (history : History) (r : Request) : History :=
  history.set r.host ((timesOf history r.host).filter fun ts => self.cutoff r < ts)

/-- The answer to the `n`-th request within the last seconds. -/
def replyTo (n : ℕ) : Reply :=
  if self.requests * 2 < n then .tooManyRequests
  else if self.requests < n then
    if 0 < self.sleepSeconds then .passedAfter self.sleepSeconds else .tooManyRequests
  else .passed

/-- `__call__`. -/
def call (history : History) (r : Request) : Reply × History :=
  let history := self.cleanOldRequests history r
  let history := history.set r.host (timesOf history r.host ++ [r.now])
  (self.replyTo (timesOf history r.host).length, history)

/-- `dispatch`. -/
def dispatch (history : History) (r : Request) : Reply × History :=
  if r.isRateLimited then self.call history r else (.passed, history)

/-- The answers to the requests of a run. -/
def replies (history : History) : List Request → List Reply
  | [] => []
  | r :: run => (self.dispatch history r).1 :: replies (self.dispatch history r).2 run

/-- The history after a run of requests. -/
def historyAfter (history : History) (run : List Request) : History :=
  run.foldl (fun history r => (self.dispatch history r).2) history

end InMemoryRateLimiter

/-- The clock does not go back, and one request is handled after the other. -/
def Clocked (run : List Request) : Prop :=
  run.Pairwise (fun r r' => r.cleanedAt ≤ r'.now) ∧ ∀ r ∈ run, r.now ≤ r.cleanedAt

theorem Clocked.initial {run before : List Request} (h : Clocked run) (hbefore : before <+: run) :
    Clocked before :=
  ⟨h.1.sublist hbefore.sublist, fun q hq => h.2 q (hbefore.subset hq)⟩

/-- The requests of a host that are counted. -/
def countedOf (run : List Request) (host : String) : List Request :=
  run.filter fun q => q.isRateLimited && q.host = host

namespace InMemoryRateLimiter

/-- The requests of the same host in the last seconds. -/
def recent (self : InMemoryRateLimiter) (before : List Request) (r : Request) : List Request :=
  (countedOf before r.host).filter fun q => self.cutoff r < q.now

section Histories

variable {self : InMemoryRateLimiter} {history : History} {run before : List Request} {r : Request}
  {key host : String} {c : ℤ}

@[simp] theorem timesOf_set (history : History) (key host : String) (times : List ℤ) :
    timesOf (history.set key times) host = if host = key then times else timesOf history host := by
  unfold timesOf
  rw [PyDict.get?_set]
  split_ifs
  · rfl
  · rfl

theorem timesOf_call (self : InMemoryRateLimiter) (history : History) (r : Request) (host : String) :
    timesOf (self.call history r).2 host
      = if host = r.host then
          ((timesOf history host).filter fun ts => self.cutoff r < ts) ++ [r.now]
        else timesOf history host := by
  unfold call cleanOldRequests
  dsimp only
  by_cases hhost : host = r.host
  · simp [hhost]
  · simp [hhost]

theorem historyAfter_concat (self : InMemoryRateLimiter) (history : History) (run : List Request)
    (r : Request) : self.historyAfter history (run ++ [r])
      = (self.dispatch (self.historyAfter history run) r).2 :=
  List.foldl_concat ..

/-- A request is answered with the history of those before it. -/
theorem getElem?_replies (self : InMemoryRateLimiter) (history : History) (run : List Request)
    (i : ℕ) : (self.replies history run)[i]?
      = run[i]?.map fun r => (self.dispatch (self.historyAfter history (run.take i)) r).1 := by
  induction run generalizing history i with
  | nil => rfl
  | cons r run ih =>
      cases i with
      | zero => rfl
      | succ i => exact ih _ i

theorem replies_concat (self : InMemoryRateLimiter) (history : History) (run : List Request)
    (r : Request) : self.replies history (run ++ [r])
      = self.replies history run ++ [(self.dispatch (self.historyAfter history run) r).1] := by
  induction run generalizing history with
  | nil => rfl
  | cons first run ih => exact congrArg _ (ih _)

theorem length_replies (self : InMemoryRateLimiter) (history : History) (run : List Request) :
    (self.replies history run).length = run.length := by
  induction run generalizing history with
  | nil => rfl
  | cons first run ih => exact congrArg Nat.succ (ih _)

theorem countedOf_concat (run : List Request) (r : Request) (host : String) :
    countedOf (run ++ [r]) host
      = countedOf run host ++ if r.isRateLimited && r.host = host then [r] else [] := by
  unfold countedOf
  rw [List.filter_append, List.filter_singleton]
  cases r.isRateLimited && decide (r.host = host) <;> rfl

/-- Behind every cutoff of a run its history has the times of all requests of a host. -/
theorem filter_timesOf (self : InMemoryRateLimiter) (run : List Request) (host : String)
    (hc : ∀ q ∈ run, self.cutoff q ≤ c) :
    (timesOf (self.historyAfter .empty run) host).filter (fun ts => c < ts)
      = ((countedOf run host).filter fun q => c < q.now).map Request.now := by
  induction run using List.reverseRecOn with
  | nil => rfl
  | append_singleton run r ih =>
      have hrun := ih fun q hq => hc q (List.mem_append_left _ hq)
      have hlast : self.cutoff r ≤ c := hc r (List.mem_append_right _ (List.mem_singleton.mpr rfl))
      rw [historyAfter_concat, countedOf_concat]
      unfold dispatch
      by_cases hlimited : r.isRateLimited
      · rw [if_pos hlimited, timesOf_call]
        by_cases hhost : host = r.host
        · -- what is dropped lies before the cutoff
          have hkept :
              ((timesOf (self.historyAfter .empty run) host).filter fun ts => self.cutoff r < ts).filter
                  (fun ts => c < ts)
                = (timesOf (self.historyAfter .empty run) host).filter fun ts => c < ts := by
            rw [List.filter_filter]
            apply List.filter_congr
            intro ts _
            by_cases hts : c < ts
            · simp [hts, lt_of_le_of_lt hlast hts]
            · simp [hts]
          rw [if_pos hhost, List.filter_append, hkept, hrun]
          by_cases hnow : c < r.now
          · simp [hlimited, hhost, hnow]
          · simp [hlimited, hhost, hnow]
        · simp [hhost, hrun, Ne.symm hhost]
      · rw [if_neg hlimited]
        simp [hlimited, hrun]

end Histories

section Replies

variable {self : InMemoryRateLimiter} {run before : List Request} {r : Request}

theorem cutoff_le (self : InMemoryRateLimiter) (h : Clocked (before ++ [r])) :
    ∀ q ∈ before, self.cutoff q ≤ self.cutoff r := by
  intro q hq
  have hlater := (List.pairwise_append.mp h.1).2.2 q hq r (List.mem_singleton.mpr rfl)
  have hlast := h.2 r (List.mem_append_right _ (List.mem_singleton.mpr rfl))
  unfold cutoff
  linarith

/-- The answer to a request after others. -/
def replyAfter (self : InMemoryRateLimiter) (before : List Request) (r : Request) : Reply :=
  if r.isRateLimited then self.replyTo ((self.recent before r).length + 1) else .passed

theorem dispatch_eq (h : Clocked (before ++ [r])) :
    (self.dispatch (self.historyAfter .empty before) r).1 = self.replyAfter before r := by
  have htimes := filter_timesOf self before r.host (cutoff_le self h)
  unfold dispatch replyAfter
  by_cases hlimited : r.isRateLimited
  · rw [if_pos hlimited, if_pos hlimited]
    show self.replyTo (timesOf (self.call (self.historyAfter .empty before) r).2 r.host).length = _
    rw [timesOf_call, if_pos rfl, htimes, List.length_append, List.length_map,
      List.length_singleton]
    rfl
  · rw [if_neg hlimited, if_neg hlimited]

/-- **Nothing is lost by dropping old requests.**  In every run the answer to a request depends on
the number of requests that its host made within the last seconds, those that were refused
included. -/
theorem getElem?_replies_eq (self : InMemoryRateLimiter) (hclock : Clocked run) (i : ℕ) :
    (self.replies .empty run)[i]? = run[i]?.map (self.replyAfter (run.take i)) := by
  rw [getElem?_replies]
  cases hr : run[i]? with
  | none => rfl
  | some r =>
      have hsplit : run.take i ++ [r] = run.take (i + 1) := by
        rw [List.take_add_one, hr]
        rfl
      have hbefore : Clocked (run.take i ++ [r]) := hclock.initial (hsplit ▸ List.take_prefix _ _)
      exact congrArg some (dispatch_eq hbefore)

/-- The requests of a host between two times that were answered in one of some ways. -/
def answeredWith (self : InMemoryRateLimiter) (run : List Request) (host : String) (start stop : ℤ)
    (kinds : Reply → Bool) : ℕ :=
  (run.zip (self.replies .empty run)).countP fun a => a.1.isRateLimited && a.1.host = host &&
    decide (start < a.1.now) && decide (a.1.cleanedAt ≤ stop) && kinds a.2

/-- A bound on the number within the last seconds bounds the number in every window. -/
theorem answeredWith_le (hclock : Clocked run) (host : String) (stop : ℤ) {kinds : Reply → Bool}
    {bound : ℕ} (hkinds : ∀ n, kinds (self.replyTo n) → n ≤ bound) :
    self.answeredWith run host (stop - self.seconds * 1000000) stop kinds ≤ bound := by
  induction run using List.reverseRecOn with
  | nil => exact Nat.zero_le _
  | append_singleton run r ih =>
      have hearlier := ih (hclock.initial (List.prefix_append _ _))
      have hlength := length_replies self .empty run
      unfold answeredWith at hearlier ⊢
      rw [replies_concat, List.zip_append hlength.symm, List.countP_append, dispatch_eq hclock,
        List.zip_cons_cons, List.zip_nil_left, List.countP_singleton]
      split_ifs with hcounted
      · -- the last one is counted: so are all those before it, within its last seconds
        simp only [Bool.and_eq_true, decide_eq_true_eq] at hcounted
        obtain ⟨⟨⟨⟨hlimited, hhost⟩, -⟩, hstop⟩, hkind⟩ := hcounted
        unfold replyAfter at hkind
        rw [if_pos hlimited] at hkind
        have hrecent := hkinds _ hkind
        have hwindow : (run.zip (self.replies .empty run)).countP (fun a => a.1.isRateLimited &&
            a.1.host = host && decide (stop - self.seconds * 1000000 < a.1.now) &&
              decide (a.1.cleanedAt ≤ stop) && kinds a.2) ≤ (self.recent run r).length := by
          calc _ ≤ (run.zip (self.replies .empty run)).countP ((fun q => decide (self.cutoff r < q.now) &&
                (q.isRateLimited && q.host = r.host)) ∘ Prod.fst) := by
                refine List.countP_mono_left fun a _ ha => ?_
                simp only [Bool.and_eq_true, decide_eq_true_eq, Function.comp_apply] at ha ⊢
                obtain ⟨⟨⟨⟨halimited, hahost⟩, hstart⟩, -⟩, -⟩ := ha
                refine ⟨?_, halimited, hahost.trans hhost.symm⟩
                unfold cutoff
                linarith
            _ = run.countP (fun q => decide (self.cutoff r < q.now) &&
                (q.isRateLimited && q.host = r.host)) := by
                rw [← List.countP_map, List.map_fst_zip hlength.ge]
            _ = (self.recent run r).length := by
                unfold recent countedOf
                rw [List.filter_filter, List.countP_eq_length_filter]
        omega
      · exact hearlier

/-- **Any window.**  Of the requests of a host that came after a time and were decided within the
following `seconds`, at most `requests` pass at once and at most twice as many pass at all. -/
theorem passed_le (hclock : Clocked run) (host : String) (stop : ℤ) :
    self.answeredWith run host (stop - self.seconds * 1000000) stop (· = .passed)
        ≤ self.requests.toNat ∧
      self.answeredWith run host (stop - self.seconds * 1000000) stop (· ≠ .tooManyRequests)
        ≤ (self.requests * 2).toNat := by
  constructor
  · apply answeredWith_le hclock
    intro n hn
    have hreply := of_decide_eq_true hn
    unfold replyTo at hreply
    split_ifs at hreply
    omega
  · apply answeredWith_le hclock
    intro n hn
    have hreply := of_decide_eq_true hn
    unfold replyTo at hreply
    split_ifs at hreply
    · exact absurd rfl hreply
    · omega
    · exact absurd rfl hreply
    · omega

end Replies

/-- Three requests of a host at once, and one that comes later. -/
def burst : List Request :=
  [⟨"10.0.0.1", ['/'], 0, 1⟩, ⟨"10.0.0.1", ['/'], 2, 3⟩, ⟨"10.0.0.1", ['/'], 4, 5⟩,
    ⟨"10.0.0.1", ['/'], 2000000, 2000001⟩]

theorem clocked_burst : Clocked burst := by
  unfold Clocked burst
  constructor
  · decide
  · decide

/-- The third one is refused. -/
theorem replies_burst : (replies { requests := 1 } .empty burst)[2]?
    = burst[2]?.map (replyAfter { requests := 1 } (burst.take 2)) :=
  getElem?_replies_eq { requests := 1 } clocked_burst 2

theorem passed_burst :
    answeredWith { requests := 1 } burst "10.0.0.1" (5 - 1 * 1000000) 5 (· = .passed) ≤ 1 ∧
      answeredWith { requests := 1 } burst "10.0.0.1" (5 - 1 * 1000000) 5 (· ≠ .tooManyRequests)
        ≤ 2 :=
  passed_le clocked_burst "10.0.0.1" 5

end InMemoryRateLimiter

end OpenHands.RateLimits
