/-
# Conversations that are attached

`StandaloneConversationManager` counts the callers of a conversation and keeps a conversation
without callers until a cleanup pass disconnects it.  Everything that changes its dictionaries
runs under one lock, which is held while a conversation connects or disconnects.  A cleanup
pass whose `disconnect` raises leaves a disconnected conversation behind, which the next call
of `attach_to_conversation` hands out.
-/
import Mathlib
import OpenHands.Lib.PyDict
import OpenHands.Lib.Run

namespace OpenHands.Attachments

/-- A `ServerConversation`: one object among those of its session. -/
structure ServerConversation where
  sid : String
  object : ℕ
  deriving DecidableEq

/-- Where the holder of `_conversations_lock` waits. -/
inductive Holder
  /-- `await c.connect()`. -/
  | connecting (c : ServerConversation)
  /-- `await c.disconnect()` behind an `AgentRuntimeUnavailableError`. -/
  | abandoning (c : ServerConversation)
  /-- `await conversation.disconnect()` of a cleanup pass, with the items behind. -/
  | cleaning (sid : String) (c : ServerConversation) (items : List (String × ServerConversation))
  /-- `await conversation.disconnect()` of the cancelled loop, with the conversations behind. -/
  | clearing (c : ServerConversation) (conversations : List ServerConversation)

/-- `StandaloneConversationManager`, with its callers: those that are attached and those that
wait for the lock to detach. -/
structure Manager where
  active : PyDict String (ServerConversation × ℕ) := .empty
  detached : PyDict String ServerConversation := .empty
  lock : Option Holder := none
  objects : ℕ := 0
  /-- The conversations on which `disconnect` has been called. -/
  disconnected : List ServerConversation := []
  attached : List ServerConversation := []
  detaching : List ServerConversation := []

/-- How `connect` ends. -/
inductive ConnectResult
  | ok
  /-- `AgentRuntimeUnavailableError`. -/
  | unavailable
  /-- Another exception. -/
  | raises

/-- What happens between two awaits. -/
inductive Step
  /-- `attach_to_conversation` of a session that exists gets the lock. -/
  | attach (sid : String)
  | connected (result : ConnectResult)
  /-- A caller calls `detach_from_conversation`. -/
  | callDetach (c : ServerConversation)
  /-- `detach_from_conversation` gets the lock. -/
  | detach (c : ServerConversation)
  /-- A pass of `_cleanup_stale` gets the lock. -/
  | cleanup
  /-- The handler of the `CancelledError` gets the lock. -/
  | cancelled
  | disconnected (raises : Bool)

namespace Manager

variable (m : Manager)

/-- The call of `disconnect`. -/
def disconnect (c : ServerConversation) : Manager := { m with disconnected := c :: m.disconnected }

/-- `attach_to_conversation` up to the first await under the lock. -/
def attach (sid : String) : Manager :=
  match m.active.get? sid with
  | some (c, count) =>
    { m with
      active := m.active.set sid (c, count + 1)
      attached := c :: m.attached }
  | none =>
    match m.detached.get? sid with
    | some c =>
      { m with
        detached := m.detached.pop sid
        active := m.active.set sid (c, 1)
        attached := c :: m.attached }
    | none =>
      { m with
        objects := m.objects + 1
        lock := some (.connecting ⟨sid, m.objects⟩) }

/-- `attach_to_conversation` behind `connect`. -/
def connect (c : ServerConversation) : ConnectResult → Manager
  | .ok =>
    { m with
      active := m.active.set c.sid (c, 1)
      attached := c :: m.attached
      lock := none }
  | .unavailable => { m.disconnect c with lock := some (.abandoning c) }
  | .raises => { m with lock := none }

/-- `detach_from_conversation` under the lock. -/
def detach (c : ServerConversation) : Manager :=
  let m := { m with detaching := m.detaching.erase c }
  match m.active.get? c.sid with
  | some (conv, count) =>
    if count > 1 then { m with active := m.active.set c.sid (conv, count - 1) }
    else
      { m with
        active := m.active.pop c.sid
        detached := m.detached.set c.sid c }
  | none => m

/-- The loop of a cleanup pass up to the next await. -/
def clean : List (String × ServerConversation) → Manager
  | [] => { m with lock := none }
  | (sid, c) :: items => { m.disconnect c with lock := some (.cleaning sid c items) }

/-- The loop of the cancelled task up to the next await. -/
def clear : List ServerConversation → Manager
  | [] => { m with detached := .empty, lock := none }
  | c :: conversations => { m.disconnect c with lock := some (.clearing c conversations) }

/-- What is done behind `disconnect`; where it raises the lock is released and nothing more. -/
def disconnectDone (raises : Bool) : Manager :=
  match m.lock, raises with
  | some (.abandoning _), _ => { m with lock := none }
  | some (.cleaning sid _ items), false => clean { m with detached := m.detached.pop sid } items
  | some (.clearing _ conversations), false => m.clear conversations
  | some (.cleaning _ _ _), true | some (.clearing _ _), true => { m with lock := none }
  | some (.connecting _), _ | none, _ => m

/-- One step; what has to wait for the lock, or is not there to be done, changes nothing. -/
def step : Step → Manager
  | .attach sid => if m.lock.isSome then m else m.attach sid
  | .connected result =>
    match m.lock with
    | some (.connecting c) => m.connect c result
    | _ => m
  | .callDetach c =>
    if c ∈ m.attached then
      { m with
        attached := m.attached.erase c
        detaching := c :: m.detaching }
    else m
  | .detach c => if m.lock.isSome ∨ c ∉ m.detaching then m else m.detach c
  | .cleanup => if m.lock.isSome then m else m.clean m.detached.entries
  | .cancelled => if m.lock.isSome then m else m.clear (m.detached.entries.map Prod.snd)
  | .disconnected raises => m.disconnectDone raises

/-- The callers that have attached and whose detach is not done. -/
def callers : List ServerConversation := m.attached ++ m.detaching

/-- The stored count of a session. -/
def storedCount (sid : String) : ℕ := (m.active.get? sid).elim 0 Prod.snd

/-- What the manager promises. -/
structure Safe : Prop where
  apart : ∀ sid, ¬ (sid ∈ m.active.keys ∧ sid ∈ m.detached.keys)
  counts : ∀ sid, m.storedCount sid = m.callers.countP (·.sid = sid)
  connected : ∀ c ∈ m.attached, c ∉ m.disconnected

/-- A detached conversation that is attached again has not been disconnected. -/
def ReattachesConnected : Step → Prop
  | .attach sid => m.lock = none → m.active.get? sid = none →
      ∀ c, m.detached.get? sid = some c → c ∉ m.disconnected
  | _ => True

end Manager

/-! ## The invariant -/

/-- A conversation of a session without callers. -/
def Idle (m : Manager) (c : ServerConversation) : Prop :=
  m.active.get? c.sid = none ∧ c.object < m.objects

/-- What holds while the lock is held: nobody else touches the dictionaries. -/
def Holder.Waits (m : Manager) : Holder → Prop
  | .connecting c => Idle m c ∧ m.detached.get? c.sid = none ∧ c ∉ m.disconnected
  | .abandoning _ => True
  | .cleaning _ _ items => ∀ item ∈ items, Idle m item.2
  | .clearing _ conversations => ∀ c ∈ conversations, Idle m c

namespace Manager

/-- The invariant of the steps. -/
structure Inv (m : Manager) : Prop where
  apart : ∀ sid entry, m.active.get? sid = some entry → m.detached.get? sid = none
  activeSid : ∀ sid c count, m.active.get? sid = some (c, count) → c.sid = sid
  detachedSid : ∀ sid c, m.detached.get? sid = some c → c.sid = sid
  counted : ∀ sid c count, m.active.get? sid = some (c, count) →
    0 < count ∧ count = m.callers.countP (·.sid = sid)
  stored : ∀ c ∈ m.callers, ∃ count, m.active.get? c.sid = some (c, count)
  connected : ∀ sid c count, m.active.get? sid = some (c, count) → c ∉ m.disconnected
  created : ∀ c ∈ m.disconnected, c.object < m.objects
  createdActive : ∀ sid c count, m.active.get? sid = some (c, count) → c.object < m.objects
  createdDetached : ∀ sid c, m.detached.get? sid = some c → c.object < m.objects
  waits : ∀ holder ∈ m.lock, holder.Waits m

theorem inv_init : Inv {} := by
  constructor <;> simp [callers]

variable {m : Manager} {c : ServerConversation} {sid : String}

theorem storedCount_eq (h : m.Inv) (sid : String) :
    m.storedCount sid = m.callers.countP (·.sid = sid) := by
  unfold storedCount
  cases hactive : m.active.get? sid with
  | some entry => exact (h.counted sid entry.1 entry.2 hactive).2
  | none =>
    rw [Option.elim_none, eq_comm, List.countP_eq_zero]
    intro c hc hsid
    obtain ⟨count, hstored⟩ := h.stored c hc
    rw [decide_eq_true_eq] at hsid
    rw [hsid, hactive] at hstored
    cases hstored

theorem safe_of_inv (h : m.Inv) : m.Safe := by
  refine ⟨?_, storedCount_eq h, ?_⟩
  · rintro sid ⟨hactive, hdetached⟩
    rw [← PyDict.isSome_get?_iff] at hactive hdetached
    obtain ⟨entry, hentry⟩ := Option.isSome_iff_exists.mp hactive
    rw [h.apart sid entry hentry] at hdetached
    cases hdetached
  · intro c hc
    obtain ⟨count, hstored⟩ := h.stored c (List.mem_append_left _ hc)
    exact h.connected c.sid c count hstored

/-! ## Steps under the lock -/

/-- Releasing the lock. -/
theorem Inv.unlock (h : m.Inv) : Inv { m with lock := none } :=
  ⟨h.apart, h.activeSid, h.detachedSid, h.counted, h.stored, h.connected, h.created,
    h.createdActive, h.createdDetached, fun _ hholder => (nomatch hholder)⟩

/-- A conversation of a session without callers is disconnected. -/
theorem Inv.disconnect (h : m.Inv) (hidle : Idle m c) {holder : Holder}
    (hwaits : holder.Waits (m.disconnect c)) :
    Inv { m.disconnect c with lock := some holder } := by
  refine ⟨h.apart, h.activeSid, h.detachedSid, h.counted, h.stored, ?_, ?_, h.createdActive,
    h.createdDetached, ?_⟩
  · intro sid c' count hc' hmem
    rcases List.mem_cons.mp hmem with rfl | hmem
    · have hsid : c'.sid = sid := h.activeSid sid c' count hc'
      have hnone := hidle.1
      rw [hsid] at hnone
      exact absurd (hnone.symm.trans hc') (by simp)
    · exact h.connected sid c' count hc' hmem
  · intro c' hmem
    rcases List.mem_cons.mp hmem with rfl | hmem
    · exact hidle.2
    · exact h.created c' hmem
  · rintro _ ⟨⟩
    cases holder <;> exact hwaits

theorem Inv.clean (h : m.Inv) {items : List (String × ServerConversation)}
    (hitems : ∀ item ∈ items, Idle m item.2) : (m.clean items).Inv := by
  cases items with
  | nil => exact h.unlock
  | cons item items =>
    rw [List.forall_mem_cons] at hitems
    exact h.disconnect hitems.1 hitems.2

theorem Inv.clear (h : m.Inv) {conversations : List ServerConversation}
    (hidle : ∀ c ∈ conversations, Idle m c) : (m.clear conversations).Inv := by
  cases conversations with
  | nil =>
    refine ⟨fun _ _ _ => rfl, h.activeSid, ?_, h.counted, h.stored, h.connected, h.created,
      h.createdActive, ?_, fun _ hholder => (nomatch hholder)⟩
    · exact fun sid c hc => (nomatch hc)
    · exact fun sid c hc => (nomatch hc)
  | cons c conversations =>
    rw [List.forall_mem_cons] at hidle
    exact h.disconnect hidle.1 hidle.2

/-- What is detached has no callers. -/
theorem Inv.idle (h : m.Inv) (hc : m.detached.get? sid = some c) : Idle m c := by
  refine ⟨?_, h.createdDetached sid c hc⟩
  have hsid := h.detachedSid sid c hc
  cases hactive : m.active.get? c.sid with
  | none => rfl
  | some entry =>
    rw [hsid] at hactive
    rw [h.apart sid entry hactive] at hc
    cases hc

/-- An entry is taken out of the detached conversations. -/
theorem Inv.pop (h : m.Inv) (sid : String) : Inv { m with detached := m.detached.pop sid, lock := none } := by
  have hkept : ∀ sid' c, (m.detached.pop sid).get? sid' = some c → m.detached.get? sid' = some c := by
    intro sid' c hc
    rw [PyDict.get?_pop] at hc
    split_ifs at hc
    exact hc
  refine ⟨?_, h.activeSid, ?_, h.counted, h.stored, h.connected, h.created, h.createdActive,
    ?_, fun _ hholder => absurd hholder.symm (Option.some_ne_none _)⟩
  · intro sid' entry hentry
    rw [PyDict.get?_pop, h.apart sid' entry hentry, ite_self]
  · exact fun sid' c hc => h.detachedSid sid' c (hkept sid' c hc)
  · exact fun sid' c hc => h.createdDetached sid' c (hkept sid' c hc)

theorem Inv.disconnectDone (h : m.Inv) (raises : Bool) : (m.disconnectDone raises).Inv := by
  unfold Manager.disconnectDone
  split
  · exact h.unlock
  · rename_i sid c items hlock
    exact (h.pop sid).clean (h.waits _ hlock)
  · rename_i c conversations hlock
    exact h.clear (h.waits _ hlock)
  · exact h.unlock
  · exact h.unlock
  · exact h
  · exact h

/-! ## Callers come and go -/

/-- The callers of the sessions, where one has come. -/
theorem countP_cons_callers (m : Manager) (c : ServerConversation) (sid : String) :
    List.countP (·.sid = sid) ((c :: m.attached) ++ m.detaching)
      = m.callers.countP (·.sid = sid) + if c.sid = sid then 1 else 0 := by
  rw [List.cons_append, List.countP_cons]
  unfold callers
  by_cases hsid : c.sid = sid <;> simp [hsid]

/-- What changes when the entry of a session gets another count. -/
structure Recounted (m m' : Manager) (c : ServerConversation) (count : ℕ) : Prop where
  active : m'.active = m.active.set c.sid (c, count)
  pos : 0 < count
  counted : ∀ sid, m'.callers.countP (·.sid = sid)
    = if sid = c.sid then count else m.callers.countP (·.sid = sid)
  callers : ∀ c' ∈ m'.callers, c' = c ∨ c' ∈ m.callers
  detached : ∀ sid c', m'.detached.get? sid = some c' → m.detached.get? sid = some c'
  notDetached : m'.detached.get? c.sid = none
  disconnected : m'.disconnected = m.disconnected
  objects : m'.objects = m.objects
  lock : m'.lock = none

theorem Inv.recount (h : m.Inv) {m' : Manager} {count : ℕ} (hnew : Recounted m m' c count)
    (hstored : m.storedCount c.sid = 0 ∨ ∃ count, m.active.get? c.sid = some (c, count))
    (hconnected : c ∉ m.disconnected) (hobject : c.object < m.objects) : m'.Inv := by
  have hget : ∀ sid, m'.active.get? sid = if sid = c.sid then some (c, count) else m.active.get? sid := by
    intro sid
    rw [hnew.active, PyDict.get?_set]
  -- The other callers of the session have the same conversation.
  have hsame : ∀ c' ∈ m'.callers, c'.sid = c.sid → c' = c := by
    intro c' hc' hsid
    rcases hnew.callers c' hc' with heq | hold
    · exact heq
    · obtain ⟨count', hcount'⟩ := h.stored c' hold
      rw [hsid] at hcount'
      rcases hstored with hzero | ⟨count'', hcount''⟩
      · have hpos := (h.counted c.sid c' count' hcount').1
        unfold storedCount at hzero
        rw [hcount'] at hzero
        exact absurd hzero (Nat.ne_of_gt hpos)
      · rw [hcount''] at hcount'
        cases hcount'
        rfl
  constructor
  · intro sid entry hentry
    by_cases hsid : sid = c.sid
    · rw [hsid]
      exact hnew.notDetached
    · rw [hget, if_neg hsid] at hentry
      have happart := h.apart sid entry hentry
      cases hd : m'.detached.get? sid with
      | none => rfl
      | some c' =>
        rw [hnew.detached sid c' hd] at happart
        cases happart
  · intro sid c' count' hc'
    rw [hget] at hc'
    split_ifs at hc' with hsid
    · cases hc'
      exact hsid.symm
    · exact h.activeSid sid c' count' hc'
  · exact fun sid c' hc' => h.detachedSid sid c' (hnew.detached sid c' hc')
  · intro sid c' count' hc'
    rw [hget] at hc'
    rw [hnew.counted]
    split_ifs at hc' ⊢ with hsid
    · cases hc'
      exact ⟨hnew.pos, rfl⟩
    · exact h.counted sid c' count' hc'
  · intro c' hc'
    by_cases hsid : c'.sid = c.sid
    · exact ⟨count, by rw [hget, if_pos hsid, hsame c' hc' hsid]⟩
    · obtain ⟨count', hcount'⟩ := h.stored c' ((hnew.callers c' hc').resolve_left
        fun heq => hsid (by rw [heq]))
      exact ⟨count', by rw [hget, if_neg hsid, hcount']⟩
  · intro sid c' count' hc'
    rw [hget] at hc'
    rw [hnew.disconnected]
    split_ifs at hc' with hsid
    · cases hc'
      exact hconnected
    · exact h.connected sid c' count' hc'
  · rw [hnew.disconnected, hnew.objects]
    exact h.created
  · intro sid c' count' hc'
    rw [hget] at hc'
    rw [hnew.objects]
    split_ifs at hc' with hsid
    · cases hc'
      exact hobject
    · exact h.createdActive sid c' count' hc'
  · intro sid c' hc'
    rw [hnew.objects]
    exact h.createdDetached sid c' (hnew.detached sid c' hc')
  · rw [hnew.lock]
    exact fun _ hholder => absurd hholder.symm (Option.some_ne_none _)

/-- The count of a session goes up, or starts with one. -/
theorem Inv.attachTo (h : m.Inv)
    (hstored : m.storedCount c.sid = 0 ∨ ∃ count, m.active.get? c.sid = some (c, count))
    (hconnected : c ∉ m.disconnected) (hobject : c.object < m.objects)
    {detached : PyDict String ServerConversation}
    (hkept : ∀ sid c, detached.get? sid = some c → m.detached.get? sid = some c)
    (hnone : detached.get? c.sid = none) :
    Inv { m with
      active := m.active.set c.sid (c, m.storedCount c.sid + 1)
      detached := detached
      attached := c :: m.attached
      lock := none } := by
  refine h.recount ⟨rfl, Nat.succ_pos _, ?_, ?_, hkept, hnone, rfl, rfl, rfl⟩ hstored hconnected
    hobject
  · intro sid
    change List.countP _ ((c :: m.attached) ++ m.detaching) = _
    rw [countP_cons_callers, storedCount_eq h]
    by_cases hsid : sid = c.sid
    · rw [if_pos hsid, if_pos hsid.symm, hsid]
    · rw [if_neg hsid, if_neg (Ne.symm hsid), Nat.add_zero]
  · exact fun c' hc' => List.mem_cons.mp hc'

theorem storedCount_of_none (hactive : m.active.get? sid = none) : m.storedCount sid = 0 := by
  unfold storedCount
  rw [hactive]
  rfl

theorem Inv.attach (h : m.Inv) (hlock : m.lock = none)
    (hreattach : m.ReattachesConnected (.attach sid)) : (m.attach sid).Inv := by
  unfold Manager.attach
  cases hactive : m.active.get? sid with
  | some entry =>
    obtain ⟨c, count⟩ := entry
    have hsid := h.activeSid sid c count hactive
    subst hsid
    have hcount : m.storedCount c.sid = count := by
      unfold storedCount
      rw [hactive]
      rfl
    have hinv := h.attachTo (Or.inr ⟨count, hactive⟩) (h.connected _ c count hactive)
      (h.createdActive _ c count hactive) (fun _ _ hd => hd) (h.apart _ _ hactive)
    rw [hcount] at hinv
    simpa only [hlock] using hinv
  | none =>
    cases hdetached : m.detached.get? sid with
    | some c =>
      have hsid := h.detachedSid sid c hdetached
      subst hsid
      have hzero := storedCount_of_none hactive
      have hkept : ∀ sid' c', (m.detached.pop c.sid).get? sid' = some c' →
          m.detached.get? sid' = some c' := by
        intro sid' c' hc'
        rw [PyDict.get?_pop] at hc'
        split_ifs at hc'
        exact hc'
      have hinv := h.attachTo (Or.inl hzero) (hreattach hlock hactive c hdetached)
        (h.createdDetached _ c hdetached) hkept (by rw [PyDict.get?_pop, if_pos rfl])
      rw [hzero] at hinv
      simpa only [hlock] using hinv
    | none =>
      -- The new object is none of those that have been disconnected.
      have hnew : (⟨sid, m.objects⟩ : ServerConversation) ∉ m.disconnected :=
        fun hmem => absurd (h.created _ hmem) (Nat.lt_irrefl _)
      refine ⟨h.apart, h.activeSid, h.detachedSid, h.counted, h.stored, h.connected, ?_, ?_, ?_, ?_⟩
      · exact fun c hc => Nat.lt_succ_of_lt (h.created c hc)
      · exact fun sid c count hc => Nat.lt_succ_of_lt (h.createdActive sid c count hc)
      · exact fun sid c hc => Nat.lt_succ_of_lt (h.createdDetached sid c hc)
      · rintro _ ⟨⟩
        exact ⟨⟨hactive, Nat.lt_succ_self _⟩, hdetached, hnew⟩

theorem Inv.connect (h : m.Inv) (hlock : m.lock = some (.connecting c)) (result : ConnectResult) :
    (m.connect c result).Inv := by
  obtain ⟨hidle, hdetached, hconnected⟩ := h.waits _ hlock
  cases result with
  | ok =>
    have hzero := storedCount_of_none hidle.1
    have hinv := h.attachTo (Or.inl hzero) hconnected hidle.2 (fun _ _ hd => hd) hdetached
    rw [hzero] at hinv
    exact hinv
  | unavailable => exact h.disconnect hidle trivial
  | raises => exact h.unlock

/-- The callers are the same, in another order. -/
theorem Inv.callDetach (h : m.Inv) (hc : c ∈ m.attached) :
    Inv { m with attached := m.attached.erase c, detaching := c :: m.detaching } := by
  have hperm : (m.attached.erase c ++ c :: m.detaching).Perm m.callers := by
    unfold callers
    refine List.perm_middle.trans ?_
    rw [← List.cons_append]
    exact (List.perm_cons_erase hc).symm.append_right _
  refine ⟨h.apart, h.activeSid, h.detachedSid, ?_, ?_, h.connected, h.created,
    h.createdActive, h.createdDetached, ?_⟩
  · intro sid c' count hc'
    refine ⟨(h.counted sid c' count hc').1, (h.counted sid c' count hc').2.trans ?_⟩
    exact (hperm.countP_eq _).symm
  · exact fun c' hc' => h.stored c' (hperm.subset hc')
  · intro holder hholder
    have hwaits := h.waits holder hholder
    cases holder <;> exact hwaits

/-- A caller less. -/
theorem Inv.detach (h : m.Inv) (hlock : m.lock = none) (hc : c ∈ m.detaching) :
    (m.detach c).Inv := by
  obtain ⟨count, hactive⟩ := h.stored c (List.mem_append_right _ hc)
  obtain ⟨hpos, hcount⟩ := h.counted c.sid c count hactive
  have hperm : m.callers.Perm (c :: (m.attached ++ m.detaching.erase c)) := by
    unfold callers
    exact ((List.perm_cons_erase hc).append_left _).trans List.perm_middle
  have hcountP : ∀ sid, m.callers.countP (·.sid = sid)
      = (m.attached ++ m.detaching.erase c).countP (·.sid = sid) + if c.sid = sid then 1 else 0 := by
    intro sid
    rw [hperm.countP_eq, List.countP_cons]
    by_cases hsid : c.sid = sid <;> simp [hsid]
  have hsub : ∀ c' ∈ m.attached ++ m.detaching.erase c, c' ∈ m.callers :=
    fun c' hc' => hperm.symm.subset (List.mem_cons_of_mem c hc')
  have hrest := hcountP c.sid
  rw [← hcount, if_pos rfl] at hrest
  unfold Manager.detach
  simp only [hactive]
  by_cases hmore : count > 1
  · rw [if_pos hmore]
    refine h.recount ⟨rfl, by omega, ?_, fun c' hc' => Or.inr (hsub c' hc'), fun _ _ hd => hd,
      h.apart _ _ hactive, rfl, rfl, hlock⟩ (Or.inr ⟨count, hactive⟩) (h.connected _ _ _ hactive)
      (h.createdActive _ _ _ hactive)
    intro sid
    change List.countP _ (m.attached ++ m.detaching.erase c) = _
    by_cases hsid : sid = c.sid
    · rw [if_pos hsid, hsid]
      omega
    · rw [if_neg hsid, hcountP, if_neg (Ne.symm hsid), Nat.add_zero]
  · -- The last caller: nobody else has the session.
    rw [if_neg hmore]
    have hzero : (m.attached ++ m.detaching.erase c).countP (·.sid = c.sid) = 0 := by omega
    have hget : ∀ sid entry, (m.active.pop c.sid).get? sid = some entry →
        sid ≠ c.sid ∧ m.active.get? sid = some entry := by
      intro sid entry hentry
      rw [PyDict.get?_pop] at hentry
      split_ifs at hentry with hsid
      exact ⟨hsid, hentry⟩
    have hset : ∀ sid c', (m.detached.set c.sid c).get? sid = some c' →
        sid = c.sid ∧ c' = c ∨ m.detached.get? sid = some c' := by
      intro sid c' hc'
      rw [PyDict.get?_set] at hc'
      split_ifs at hc' with hsid
      · exact Or.inl ⟨hsid, (Option.some.inj hc').symm⟩
      · exact Or.inr hc'
    refine ⟨?_, ?_, ?_, ?_, ?_, ?_, h.created, ?_, ?_, ?_⟩
    · intro sid entry hentry
      obtain ⟨hsid, hentry⟩ := hget sid entry hentry
      rw [PyDict.get?_set, if_neg hsid, h.apart sid entry hentry]
    · exact fun sid c' count' hc' => h.activeSid sid c' count' (hget sid _ hc').2
    · intro sid c' hc'
      rcases hset sid c' hc' with ⟨rfl, rfl⟩ | hold
      · rfl
      · exact h.detachedSid sid c' hold
    · intro sid c' count' hc'
      obtain ⟨hsid, hc'⟩ := hget sid _ hc'
      have hkept := h.counted sid c' count' hc'
      rw [hcountP sid, if_neg (Ne.symm hsid)] at hkept
      exact hkept
    · intro c' hc'
      obtain ⟨count', hcount'⟩ := h.stored c' (hsub c' hc')
      have hsid : c'.sid ≠ c.sid := by
        intro hsid
        exact List.countP_eq_zero.mp hzero c' hc' (by simpa using hsid)
      exact ⟨count', by rw [PyDict.get?_pop, if_neg hsid, hcount']⟩
    · exact fun sid c' count' hc' => h.connected sid c' count' (hget sid _ hc').2
    · exact fun sid c' count' hc' => h.createdActive sid c' count' (hget sid _ hc').2
    · intro sid c' hc'
      rcases hset sid c' hc' with ⟨rfl, rfl⟩ | hold
      · exact h.createdActive _ _ _ hactive
      · exact h.createdDetached sid c' hold
    · intro holder hholder
      rw [show _ = none from hlock] at hholder
      cases hholder

/-! ## Runs -/

theorem Inv.step (h : m.Inv) (l : Step) (hl : m.ReattachesConnected l) : (m.step l).Inv := by
  cases l with
  | attach sid =>
    rw [Manager.step]
    by_cases hlock : m.lock = none
    · rw [hlock]
      exact h.attach hlock hl
    · rw [if_pos (Option.isSome_iff_ne_none.mpr hlock)]
      exact h
  | connected result =>
    rw [Manager.step]
    split
    · rename_i c hlock
      exact h.connect hlock result
    · exact h
  | callDetach c =>
    rw [Manager.step]
    split_ifs with hc
    · exact h.callDetach hc
    · exact h
  | detach c =>
    rw [Manager.step]
    split_ifs with hc
    · exact h
    · rw [not_or, not_not, Option.not_isSome_iff_eq_none] at hc
      exact h.detach hc.1 hc.2
  | cleanup =>
    rw [Manager.step]
    split_ifs
    · exact h
    · exact h.clean fun item hitem =>
        h.idle (PyDict.get?_eq_some_iff.mpr hitem)
  | cancelled =>
    rw [Manager.step]
    split_ifs
    · exact h
    · refine h.clear fun c hc => ?_
      obtain ⟨item, hitem, rfl⟩ := List.mem_map.mp hc
      exact h.idle (PyDict.get?_eq_some_iff.mpr hitem)
  | disconnected raises => exact h.disconnectDone raises

/-- A step keeps the promises exactly when it does not attach a disconnected conversation. -/
theorem safe_step_iff (h : m.Inv) (l : Step) : (m.step l).Safe ↔ m.ReattachesConnected l := by
  constructor
  · intro hsafe
    cases l with
    | attach sid =>
      intro hlock hactive c hdetached
      have hattach : m.step (.attach sid) = m.attach sid := by
        unfold Manager.step
        rw [hlock]
        rfl
      have hresult : m.attach sid = { m with
          detached := m.detached.pop sid
          active := m.active.set sid (c, 1)
          attached := c :: m.attached } := by
        unfold Manager.attach
        rw [hactive, hdetached]
      rw [hattach, hresult] at hsafe
      exact hsafe.connected c List.mem_cons_self
    | connected result => trivial
    | callDetach c => trivial
    | detach c => trivial
    | cleanup => trivial
    | cancelled => trivial
    | disconnected raises => trivial
  · exact fun hl => safe_of_inv (h.step l hl)

/-- In every run the manager keeps its promises in all the states it reaches exactly when no
step attaches a detached conversation that has been disconnected. -/
theorem forall_safe_iff (steps : List Step) :
    (∀ p ∈ Run.steps step {} steps, (p.1.step p.2).Safe)
      ↔ ∀ p ∈ Run.steps step {} steps, p.1.ReattachesConnected p.2 := by
  have hiff : ∀ (m : Manager) (l : Step), m.Inv → ((m.step l).Safe ↔ m.ReattachesConnected l) :=
    fun m l h => safe_step_iff h l
  have hstep : ∀ (m : Manager) (l : Step), m.Inv → m.ReattachesConnected l → (m.step l).Inv :=
    fun m l h hl => h.step l hl
  exact Run.forall_steps_iff hiff hstep inv_init

/-- A conversation that a failed cleanup pass left behind is handed out. -/
theorem reattached_disconnected :
    ¬ (Run.run step {} [.attach "s", .connected .ok, .callDetach ⟨"s", 0⟩, .detach ⟨"s", 0⟩,
      .cleanup, .disconnected true, .attach "s"]).Safe := by
  intro h
  exact absurd (h.connected ⟨"s", 0⟩ (by decide)) (by decide)

end Manager

end OpenHands.Attachments
