/-
# Who owns a conversation of the cluster

A lock for each conversation: a server acquires it, runs with it, and releases it.  As long as
no key expires under a server that is busy with the conversation, the keys in redis implement
the lock: the starts, the registers and the closes of all servers together say who owns a
conversation and how far its owner has come, and the key of a conversation with an owner is
set.
-/
import OpenHands.ClusteredLoops

namespace OpenHands.Clustered

open Run

variable {Server : Type*}

/-! ## The lock -/

/-- How far the owner of a conversation has come. -/
inductive Stage where
  | starting | running | closing
  deriving DecidableEq, Repr

/-- The owner of a conversation. -/
structure Owner (Server : Type*) where
  server : Server
  userId : Option String
  stage : Stage
  deriving DecidableEq, Repr

/-- A step of the locks: a free one is acquired, its owner goes on or releases it, or nothing
happens. -/
inductive LockStep (owner : String → Option (Owner Server)) :
    (String → Option (Owner Server)) → Prop where
  | stay : LockStep owner owner
  | acquire (sid : String) (server : Server) (userId : Option String) (h : owner sid = none) :
      LockStep owner (Function.update owner sid (some ⟨server, userId, .starting⟩))
  | run (sid : String) (server : Server) (userId : Option String)
      (h : owner sid = some ⟨server, userId, .starting⟩) :
      LockStep owner (Function.update owner sid (some ⟨server, userId, .running⟩))
  | close (sid : String) (server : Server) (userId : Option String)
      (h : owner sid = some ⟨server, userId, .running⟩) :
      LockStep owner (Function.update owner sid (some ⟨server, userId, .closing⟩))
  | release (sid : String) (o : Owner Server) (h : owner sid = some o) :
      LockStep owner (Function.update owner sid none)

/-! ## The keys implement the lock -/

/-- The jobs are those of the owners at a stage. -/
structure JobsAt (stage : Stage) (jobs : List (Job Server))
    (owner : String → Option (Owner Server)) : Prop where
  mem_iff : ∀ job, job ∈ jobs ↔ owner job.sid = some ⟨job.server, job.userId, stage⟩
  nodup : jobs.Nodup

/-- The loops are those of the owners that run. -/
def LoopsRun (loops : Server → String → Option (Option String))
    (owner : String → Option (Owner Server)) : Prop :=
  ∀ server sid userId, loops server sid = some userId ↔
    owner sid = some ⟨server, userId, .running⟩

/-- The keys of the owners are set. -/
def KeysSet (redis : ExpiringKeys ConversationKey) (owner : String → Option (Owner Server)) :
    Prop :=
  ∀ sid o, owner sid = some o → redis.Present ⟨o.userId, sid⟩

/-- The jobs of the servers are those of the owners, whose keys are set. -/
structure Implements (w : World Server) (owner : String → Option (Owner Server)) : Prop where
  starting : JobsAt .starting w.starting owner
  running : LoopsRun w.localAgentLoops owner
  closing : JobsAt .closing w.closing owner
  keys : KeysSet w.redis owner

variable {w : World Server} {owner : String → Option (Owner Server)}

theorem implements_start : Implements ({} : World Server) fun _ => none where
  starting := ⟨fun job => by simp, List.nodup_nil⟩
  running := fun server sid userId => by simp
  closing := ⟨fun job => by simp, List.nodup_nil⟩
  keys := fun sid o h => by cases h

/-- A server is busy with a conversation exactly when it owns it. -/
theorem Implements.busy_iff (h : Implements w owner) {sid : String} {userId : Option String} :
    w.Busy sid userId ↔ ∃ server stage, owner sid = some ⟨server, userId, stage⟩ := by
  constructor
  · rintro (⟨server, hjob⟩ | ⟨server, hloop⟩ | ⟨server, hjob⟩)
    · exact ⟨server, .starting, (h.starting.mem_iff _).mp hjob⟩
    · exact ⟨server, .running, (h.running _ _ _).mp hloop⟩
    · exact ⟨server, .closing, (h.closing.mem_iff _).mp hjob⟩
  · rintro ⟨server, stage, howner⟩
    cases stage with
    | starting => exact Or.inl ⟨server, (h.starting.mem_iff ⟨server, sid, userId⟩).mpr howner⟩
    | running => exact Or.inr (Or.inl ⟨server, (h.running _ _ _).mpr howner⟩)
    | closing =>
      exact Or.inr (Or.inr ⟨server, (h.closing.mem_iff ⟨server, sid, userId⟩).mpr howner⟩)

/-- A conversation has one owner. -/
theorem Implements.mutualExclusion (h : Implements w owner) : w.MutualExclusion := by
  intro a b sid ha hb
  obtain ⟨userId, ha⟩ := Option.ne_none_iff_exists'.mp ha
  obtain ⟨userId', hb⟩ := Option.ne_none_iff_exists'.mp hb
  have hsame := ((h.running _ _ _).mp ha).symm.trans ((h.running _ _ _).mp hb)
  cases hsame
  rfl

/-! ## One owner changes -/

/-- The lock is not held at the stage. -/
def NotAt (stage : Stage) (o : Option (Owner Server)) : Prop := ∀ o' ∈ o, o'.stage ≠ stage

theorem notAt_none (stage : Stage) : NotAt stage (none : Option (Owner Server)) :=
  fun _ h => by cases h

theorem notAt_some {stage stage' : Stage} (h : stage' ≠ stage) (server : Server)
    (userId : Option String) : NotAt stage (some ⟨server, userId, stage'⟩) := by
  intro o ho
  cases ho
  exact h

theorem NotAt.of_eq {stage stage' : Stage} {o : Option (Owner Server)} {server : Server}
    {userId : Option String} (ho : o = some ⟨server, userId, stage'⟩) (h : stage' ≠ stage) :
    NotAt stage o :=
  ho ▸ notAt_some h server userId

theorem NotAt.ne {stage : Stage} {o : Option (Owner Server)} (h : NotAt stage o)
    (server : Server) (userId : Option String) : o ≠ some ⟨server, userId, stage⟩ :=
  fun heq => h _ heq rfl

variable {stage : Stage} {jobs : List (Job Server)} {job : Job Server}
  {loops : Server → String → Option (Option String)} {sid : String} {o : Option (Owner Server)}

theorem JobsAt.keep (h : JobsAt stage jobs owner) (hbefore : NotAt stage (owner sid))
    (hafter : NotAt stage o) : JobsAt stage jobs (Function.update owner sid o) := by
  refine ⟨fun job => (h.mem_iff job).trans ?_, h.nodup⟩
  by_cases hsid : job.sid = sid
  · rw [hsid, Function.update_self]
    exact iff_of_false (hbefore.ne _ _) (hafter.ne _ _)
  · rw [Function.update_of_ne hsid]

theorem JobsAt.cons (h : JobsAt stage jobs owner) (hbefore : NotAt stage (owner job.sid)) :
    JobsAt stage (job :: jobs)
      (Function.update owner job.sid (some ⟨job.server, job.userId, stage⟩)) := by
  have hnew : job ∉ jobs := fun hmem => hbefore.ne _ _ ((h.mem_iff job).mp hmem)
  refine ⟨fun other => ?_, List.nodup_cons.mpr ⟨hnew, h.nodup⟩⟩
  rw [List.mem_cons, h.mem_iff]
  by_cases hsid : other.sid = job.sid
  · rw [hsid, Function.update_self]
    constructor
    · rintro (rfl | hother)
      · rfl
      · exact absurd hother (hbefore.ne _ _)
    · intro heq
      left
      cases other
      cases job
      cases heq
      cases hsid
      rfl
  · rw [Function.update_of_ne hsid]
    refine or_iff_right ?_
    rintro rfl
    exact hsid rfl

variable [DecidableEq Server]

theorem JobsAt.erase (h : JobsAt stage jobs owner) (hjob : job ∈ jobs) (hafter : NotAt stage o) :
    JobsAt stage (jobs.erase job) (Function.update owner job.sid o) := by
  refine ⟨fun other => ?_, h.nodup.erase job⟩
  rw [h.nodup.mem_erase_iff, h.mem_iff]
  have howner := (h.mem_iff job).mp hjob
  by_cases hsid : other.sid = job.sid
  · rw [hsid, Function.update_self, howner]
    refine iff_of_false ?_ (hafter.ne _ _)
    rintro ⟨hne, heq⟩
    cases other
    cases job
    cases heq
    cases hsid
    exact hne rfl
  · rw [Function.update_of_ne hsid]
    refine and_iff_right ?_
    rintro rfl
    exact hsid rfl

omit [DecidableEq Server] in
theorem LoopsRun.keep (h : LoopsRun loops owner) (hbefore : NotAt .running (owner sid))
    (hafter : NotAt .running o) : LoopsRun loops (Function.update owner sid o) := by
  intro server sid' userId
  refine (h server sid' userId).trans ?_
  by_cases hsid : sid' = sid
  · rw [hsid, Function.update_self]
    exact iff_of_false (hbefore.ne _ _) (hafter.ne _ _)
  · rw [Function.update_of_ne hsid]

/-- The register of a server with one entry replaced. -/
theorem setLoop_apply (w : World Server) (server server' : Server) (sid sid' : String)
    (loop : Option (Option String)) :
    (w.setLoop server sid loop).localAgentLoops server' sid'
      = if server' = server ∧ sid' = sid then loop else w.localAgentLoops server' sid' := by
  unfold World.setLoop
  by_cases hserver : server' = server
  · subst hserver
    by_cases hsid : sid' = sid
    · subst hsid
      simp
    · simp [hsid]
  · simp [hserver]

theorem LoopsRun.setLoop (h : LoopsRun w.localAgentLoops owner) (server : Server)
    {loop : Option (Option String)}
    (hbefore : ∀ server' userId, owner sid = some ⟨server', userId, .running⟩ → server' = server)
    (hafter : ∀ server' userId, o = some ⟨server', userId, .running⟩
      ↔ server' = server ∧ loop = some userId) :
    LoopsRun (w.setLoop server sid loop).localAgentLoops (Function.update owner sid o) := by
  intro server' sid' userId
  rw [setLoop_apply]
  by_cases hsid : sid' = sid
  · subst hsid
    rw [Function.update_self, hafter]
    by_cases hserver : server' = server
    · rw [if_pos ⟨hserver, rfl⟩]
      exact (and_iff_right hserver).symm
    · rw [if_neg fun hand => hserver hand.1]
      refine iff_of_false (fun hloop => ?_) fun hand => hserver hand.1
      exact hserver (hbefore server' userId ((h _ _ _).mp hloop))
  · rw [if_neg fun hand => hsid hand.2, Function.update_of_ne hsid]
    exact h server' sid' userId

omit [DecidableEq Server] in
theorem KeysSet.update {redis redis' : ExpiringKeys ConversationKey} (h : KeysSet redis owner)
    (hkey : ∀ o' ∈ o, redis'.Present ⟨o'.userId, sid⟩)
    (hother : ∀ key : ConversationKey, key.conversationId ≠ sid → redis.Present key →
      redis'.Present key) : KeysSet redis' (Function.update owner sid o) := by
  intro sid' o' ho'
  by_cases hsid : sid' = sid
  · subst hsid
    rw [Function.update_self] at ho'
    exact hkey o' ho'
  · rw [Function.update_of_ne hsid] at ho'
    exact hother ⟨o'.userId, sid'⟩ hsid (h sid' o' ho')

/-! ## Steps -/

omit [DecidableEq Server] in
/-- A start that sets its key acquires the lock. -/
theorem Implements.maybeStartAgentLoop (h : Implements w owner)
    (huser : ∀ userId, w.Busy job.sid userId → userId = job.userId) :
    ∃ owner', Implements (w.maybeStartAgentLoop job) owner' ∧ LockStep owner owner' := by
  unfold World.maybeStartAgentLoop
  split
  · exact ⟨owner, h, .stay⟩
  next hfree =>
    have hnone : owner job.sid = none := by
      by_contra hne
      obtain ⟨o, ho⟩ := Option.ne_none_iff_exists'.mp hne
      have hsame := huser o.userId (h.busy_iff.mpr ⟨o.server, o.stage, ho⟩)
      have hkey := h.keys job.sid o ho
      rw [hsame] at hkey
      exact hfree hkey
    refine ⟨_, ⟨h.starting.cons ?_, h.running.keep ?_ (notAt_some (by decide) _ _),
      h.closing.keep ?_ (notAt_some (by decide) _ _), h.keys.update ?_ ?_⟩,
      .acquire job.sid job.server job.userId hnone⟩
    · exact hnone ▸ notAt_none _
    · exact hnone ▸ notAt_none _
    · exact hnone ▸ notAt_none _
    · intro o ho
      cases ho
      exact w.redis.present_set_self.mpr (by decide)
    · intro key hkey hpresent
      have hne : key ≠ job.key := fun heq => hkey (congrArg ConversationKey.conversationId heq)
      exact (w.redis.present_set_of_ne hne _).mpr hpresent

/-- The owner has registered its loop. -/
theorem Implements.register (h : Implements w owner) (job : Job Server) :
    ∃ owner', Implements (w.register job) owner' ∧ LockStep owner owner' := by
  unfold World.register
  split
  next hjob =>
    have howner := (h.starting.mem_iff job).mp hjob
    refine ⟨_, ⟨h.starting.erase hjob (notAt_some (by decide) _ _), ?_,
      h.closing.keep (.of_eq howner (by decide)) (notAt_some (by decide) _ _), h.keys.update ?_ ?_⟩,
      .run job.sid job.server job.userId howner⟩
    · refine h.running.setLoop job.server ?_ ?_
      · intro server' userId heq
        exact absurd heq ((NotAt.of_eq howner (by decide)).ne _ _)
      · intro server' userId
        constructor
        · intro heq
          cases heq
          exact ⟨rfl, rfl⟩
        · rintro ⟨rfl, heq⟩
          cases heq
          rfl
    · intro o ho
      cases ho
      exact h.keys job.sid ⟨job.server, job.userId, .starting⟩ howner
    · exact fun _ _ hpresent => hpresent
  · exact ⟨owner, h, .stay⟩

/-- A start that raises gives the lock back. -/
theorem Implements.fail (h : Implements w owner) (job : Job Server) :
    ∃ owner', Implements (w.fail job) owner' ∧ LockStep owner owner' := by
  by_cases hjob : job ∈ w.starting
  · have howner := (h.starting.mem_iff job).mp hjob
    exact ⟨_, ⟨h.starting.erase hjob (notAt_none _),
      h.running.keep (.of_eq howner (by decide)) (notAt_none _),
      h.closing.keep (.of_eq howner (by decide)) (notAt_none _),
      h.keys.update (fun _ ho => by cases ho) fun _ _ hpresent => hpresent⟩,
      .release job.sid _ howner⟩
  · have hsame : w.fail job = w := by
      unfold World.fail
      rw [List.erase_of_not_mem hjob]
    exact ⟨owner, hsame.symm ▸ h, .stay⟩

/-- The owner starts to close its loop. -/
theorem Implements.popSession (h : Implements w owner) (server : Server) (sid : String) :
    ∃ owner', Implements (w.popSession server sid) owner' ∧ LockStep owner owner' := by
  unfold World.popSession
  split
  · exact ⟨owner, h, .stay⟩
  next userId hloop =>
    have howner := (h.running _ _ _).mp hloop
    have hbefore : NotAt .closing (owner (Job.mk server sid userId).sid) :=
      .of_eq howner (by decide)
    refine ⟨_, ⟨h.starting.keep (.of_eq howner (by decide)) (notAt_some (by decide) _ _), ?_,
      JobsAt.cons h.closing hbefore, h.keys.update ?_ ?_⟩,
      .close sid server userId howner⟩
    · refine h.running.setLoop server ?_ ?_
      · intro server' userId' heq
        rw [howner] at heq
        cases heq
        rfl
      · intro server' userId'
        exact iff_of_false (fun heq => by cases heq) fun hand => by cases hand.2
    · intro o ho
      cases ho
      exact h.keys sid ⟨server, userId, .running⟩ howner
    · exact fun _ _ hpresent => hpresent

/-- The owner deletes its key and gives the lock back. -/
theorem Implements.deleteKey (h : Implements w owner) (job : Job Server) :
    ∃ owner', Implements (w.deleteKey job) owner' ∧ LockStep owner owner' := by
  unfold World.deleteKey
  split
  next hjob =>
    have howner := (h.closing.mem_iff job).mp hjob
    refine ⟨_, ⟨h.starting.keep (.of_eq howner (by decide)) (notAt_none _),
      h.running.keep (.of_eq howner (by decide)) (notAt_none _),
      h.closing.erase hjob (notAt_none _), h.keys.update (fun _ ho => by cases ho) ?_⟩,
      .release job.sid _ howner⟩
    intro key hkey hpresent
    have hne : key ≠ job.key := fun heq => hkey (congrArg ConversationKey.conversationId heq)
    exact (w.redis.present_delete_of_ne hne).mpr hpresent
  · exact ⟨owner, h, .stay⟩

/-- A close that does not get to its key gives the lock back. -/
theorem Implements.cancelClose (h : Implements w owner) (job : Job Server) :
    ∃ owner', Implements (w.cancelClose job) owner' ∧ LockStep owner owner' := by
  by_cases hjob : job ∈ w.closing
  · have howner := (h.closing.mem_iff job).mp hjob
    exact ⟨_, ⟨h.starting.keep (.of_eq howner (by decide)) (notAt_none _),
      h.running.keep (.of_eq howner (by decide)) (notAt_none _),
      h.closing.erase hjob (notAt_none _),
      h.keys.update (fun _ ho => by cases ho) fun _ _ hpresent => hpresent⟩,
      .release job.sid _ howner⟩
  · have hsame : w.cancelClose job = w := by
      unfold World.cancelClose
      rw [List.erase_of_not_mem hjob]
    exact ⟨owner, hsame.symm ▸ h, .stay⟩

/-- Each step of the cluster that keeps the keys is a step of the locks. -/
theorem Implements.perform (h : Implements w owner) {move : Move Server}
    (hkeeps : w.KeepsKeys move) :
    ∃ owner', Implements (w.perform move) owner' ∧ LockStep owner owner' := by
  cases move with
  | maybeStartAgentLoop job => exact h.maybeStartAgentLoop hkeeps
  | register job => exact h.register job
  | fail job => exact h.fail job
  | popSession server sid => exact h.popSession server sid
  | deleteKey job => exact h.deleteKey job
  | cancelClose job => exact h.cancelClose job
  | collect server => exact ⟨owner, ⟨h.starting, h.running, h.closing, h.keys⟩, .stay⟩
  | execute server =>
    exact ⟨owner, ⟨h.starting, h.running, h.closing, fun sid o ho =>
      (h.keys sid o ho).setAll _ (by decide)⟩, .stay⟩
  | elapse milliseconds =>
    exact ⟨owner, ⟨h.starting, h.running, h.closing, fun sid o ho =>
      hkeeps sid o.userId (h.busy_iff.mpr ⟨o.server, o.stage, ho⟩)⟩, .stay⟩

/-! ## Runs -/

/-- **No two servers hold one conversation, where every step keeps the keys of the conversations
that a server is busy with.** -/
theorem mutualExclusion_run (moves : List (Move Server))
    (hkeeps : ∀ s ∈ steps World.perform ({} : World Server) moves, s.1.KeepsKeys s.2) :
    (run World.perform ({} : World Server) moves).MutualExclusion := by
  have himplements : ∃ owner, Implements (run World.perform ({} : World Server) moves) owner :=
    run_invariant (I := fun w => ∃ owner, Implements w owner) (C := fun w move => w.KeepsKeys move)
      (fun w move ⟨owner, h⟩ hc => (h.perform hc).imp fun _ hand => hand.1)
      ⟨_, implements_start⟩ hkeeps
  obtain ⟨owner, h⟩ := himplements
  exact h.mutualExclusion

/-- The start of a conversation by a server. -/
def startOf (server : Bool) : Job Bool := ⟨server, "conversation", some "user"⟩

/-- A server starts the conversation in time, and another server finds the key. -/
def startInTime : List (Move Bool) :=
  [.maybeStartAgentLoop (startOf true), .elapse 14000, .register (startOf true),
    .maybeStartAgentLoop (startOf false), .register (startOf false)]

theorem mutualExclusion_startInTime :
    (run World.perform ({} : World Bool) startInTime).localAgentLoops true "conversation"
        = some (some "user") ∧
      (run World.perform ({} : World Bool) startInTime).MutualExclusion := by
  refine ⟨by decide, mutualExclusion_run startInTime ?_⟩
  simp only [startInTime, steps_cons, steps_nil, List.forall_mem_cons]
  refine ⟨?_, ?_, trivial, ?_, trivial, fun _ h => by cases h⟩
  · rintro userId (⟨_, h⟩ | ⟨_, h⟩ | ⟨_, h⟩) <;> cases h
  · rintro sid userId (⟨server, h⟩ | ⟨_, h⟩ | ⟨_, h⟩)
    · change _ ∈ [startOf true] at h
      cases List.mem_singleton.mp h
      decide
    · cases h
    · cases h
  · rintro userId (⟨_, h⟩ | ⟨server, h⟩ | ⟨_, h⟩)
    · cases h
    · cases server with
      | true =>
        change some (some "user") = some userId at h
        cases h
        rfl
      | false => cases h
    · cases h

/-- The start takes longer than the key lives, and another server starts the conversation. -/
def slowStart : List (Move Bool) :=
  [.maybeStartAgentLoop (startOf true), .elapse 15000, .maybeStartAgentLoop (startOf false),
    .register (startOf true), .register (startOf false)]

theorem not_mutualExclusion_slowStart :
    ¬ (run World.perform ({} : World Bool) slowStart).MutualExclusion := by
  intro h
  have hsame := h true false "conversation" (by decide) (by decide)
  cases hsame

end OpenHands.Clustered
