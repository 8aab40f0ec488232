/-
# Limits on sandboxes

Before a sandbox is started or resumed the service pauses old ones.  It reads the pages of
its listing, takes the sandboxes that are running, and pauses the oldest of them until one
fewer than the limit is left.  The remote service lists the sandboxes of one user from a table,
that of docker lists the containers with its prefix.
-/
import OpenHands.Lib.OffsetPages
import OpenHands.Lib.OldestFirst
import OpenHands.Lib.Run
import OpenHands.Sandboxes

namespace OpenHands.SandboxLimit

open Sandboxes (SandboxStatus)

/-- A sandbox as it is listed. -/
structure Sandbox where
  id : String
  createdByUserId : Option String
  createdAt : ℕ
  status : SandboxStatus
  deriving DecidableEq, Repr

/-- The sandboxes of all users, in the order in which they come without a sort. -/
structure World where
  sandboxes : List Sandbox
  nodup : (sandboxes.map Sandbox.id).Nodup

/-- The remote service with the user who asks, or that of docker with the prefix of its
containers. -/
inductive Service where
  | remote (userId : Option String)
  | docker (containerNamePrefix : String)

namespace World

variable (w : World)

/-- A change of sandboxes that keeps their ids. -/
def mapStatus (status : Sandbox → SandboxStatus) : World where
  sandboxes := w.sandboxes.map fun sandbox => { sandbox with status := status sandbox }
  nodup := by
    have hids : (w.sandboxes.map fun sandbox => { sandbox with status := status sandbox }).map
        Sandbox.id = w.sandboxes.map Sandbox.id := by
      rw [List.map_map]
      rfl
    rw [hids]
    exact w.nodup

/-- A sandbox with an id that is not in use. -/
def add (sandbox : Sandbox) : World :=
  if h : sandbox.id ∈ w.sandboxes.map Sandbox.id then w
  else
    { sandboxes := w.sandboxes ++ [sandbox]
      nodup := by
        rw [List.map_append]
        exact List.nodup_append.mpr ⟨w.nodup, List.nodup_singleton _, fun a ha b hb => by
          rw [List.mem_singleton.mp hb]
          rintro rfl
          exact h ha⟩ }

end World

namespace Service

variable (service : Service) (w : World)

/-- The rows of the user (`_secure_select`), or the containers with the prefix. -/
def sees (sandbox : Sandbox) : Bool :=
  match service with
  | .remote userId => ∀ user ∈ userId.filter (· ≠ ""), sandbox.createdByUserId = some user
  | .docker containerNamePrefix => containerNamePrefix.toList <+: sandbox.id.toList

def searchSandboxes (pageId : Option String) (limit : ℕ) : Page Sandbox :=
  let sandboxes := OldestFirst.sortNewest Sandbox.createdAt (w.sandboxes.filter service.sees)
  let start := OffsetPages.offset pageId
  match service with
  | .remote _ =>
    -- one row more than the page holds says whether there are more
    let stored := (sandboxes.drop start).take (limit + 1)
    if limit < stored.length then ⟨stored.take limit, some (toString (start + limit))⟩
    else ⟨stored, none⟩
  | .docker _ =>
    let stop := start + limit
    ⟨(sandboxes.drop start).take limit,
      if stop < sandboxes.length then some (toString stop) else none⟩

/-- A request to pause the sandbox of an id has an effect: a container is paused if it runs, a
runtime also while it starts. -/
def pauses (id : String) (sandbox : Sandbox) : Bool :=
  (sandbox.id = id ∧ service.sees sandbox) &&
    match service with
    | .remote _ => sandbox.status = .running ∨ sandbox.status = .starting
    | .docker _ => sandbox.status = .running

/-- `pause_sandbox`, where requests succeed: the sandboxes, and whether there is the one of the
id. -/
def pauseSandbox (id : String) : World × Bool :=
  (w.mapStatus fun sandbox => if service.pauses id sandbox then .paused else sandbox.status,
    w.sandboxes.any fun sandbox => sandbox.id = id ∧ service.sees sandbox)

/-- The oldest of the running sandboxes, if there are more than the number. -/
def sandboxesToPause (sandboxes : List Sandbox) (maxNumSandboxes : ℕ) : List Sandbox :=
  let running := sandboxes.filter (·.status = .running)
  if running.length ≤ maxNumSandboxes then []
  else
    (OldestFirst.sortOldest Sandbox.createdAt running).take (running.length - maxNumSandboxes)

/-- The loop that pauses sandboxes and notes those for which it succeeds. -/
def pauseAll (ids : List String) : World × List String :=
  ids.foldl (fun s id =>
    let paused := service.pauseSandbox s.1 id
    (paused.1, if paused.2 then s.2 ++ [id] else s.2)) (w, [])

/-- `pause_old_sandboxes`; `none` where it raises. -/
def pauseOldSandboxes (maxNumSandboxes : ℕ) : Option (World × List String) :=
  if maxNumSandboxes ≤ 0 then none
  else
    (OffsetPages.follow (service.searchSandboxes w · 100) (w.sandboxes.length + 1) none).map
      fun allSandboxes =>
        service.pauseAll w ((sandboxesToPause allSandboxes maxNumSandboxes).map Sandbox.id)

/-- The sandbox that a start makes, with a random text for its id. -/
def newSandbox (random : String) (now : ℕ) (accepted : Bool) : Sandbox :=
  match service with
  | .remote userId =>
    { id := random
      createdByUserId := userId
      createdAt := now
      status := if accepted then .starting else .missing }
  | .docker containerNamePrefix =>
    { id := containerNamePrefix ++ random
      createdByUserId := none
      createdAt := now
      status := .starting }

/-- `start_sandbox`: `accepted` says whether the request for the new sandbox succeeds.  Without
one a container is not made, while the row of a runtime is. -/
def startSandbox (maxNumSandboxes : ℕ) (random : String) (now : ℕ) (accepted : Bool) :
    Option World :=
  (service.pauseOldSandboxes w (maxNumSandboxes - 1)).map fun paused =>
    match service, accepted with
    | .docker _, false => paused.1
    | _, _ => paused.1.add (service.newSandbox random now accepted)

/-- A request to resume the sandbox of an id has an effect: containers are resumed if they are
paused, runtimes unless they are starting or running. -/
def resumes (id : String) (sandbox : Sandbox) : Bool :=
  (sandbox.id = id ∧ service.sees sandbox) &&
    match service with
    | .remote _ => sandbox.status ≠ .starting ∧ sandbox.status ≠ .running
    | .docker _ => sandbox.status = .paused

/-- `resume_sandbox`: `accepted` says whether the request succeeds, `ready` whether the sandbox
is running at once. -/
def resumeSandbox (maxNumSandboxes : ℕ) (id : String) (accepted ready : Bool) : Option World :=
  (service.pauseOldSandboxes w (maxNumSandboxes - 1)).map fun paused =>
    paused.1.mapStatus fun sandbox =>
      if accepted ∧ service.resumes id sandbox then (if ready then .running else .starting)
      else sandbox.status

end Service

/-- A call of the service, or a sandbox that was starting is running. -/
inductive Move where
  | start (random : String) (now : ℕ) (accepted : Bool)
  | resume (id : String) (accepted ready : Bool)
  | pause (id : String)
  | becomeRunning (id : String)

variable (service : Service) (maxNumSandboxes : ℕ)

def perform (w : World) : Move → World
  | .start random now accepted =>
    (service.startSandbox w maxNumSandboxes random now accepted).getD w
  | .resume id accepted ready =>
    (service.resumeSandbox w maxNumSandboxes id accepted ready).getD w
  | .pause id => (service.pauseSandbox w id).1
  | .becomeRunning id => w.mapStatus fun sandbox =>
      if sandbox.id = id ∧ sandbox.status = .starting then .running else sandbox.status

/-- How many of the sandboxes that the service sees have a status. -/
def World.count (w : World) (status : SandboxStatus) : ℕ :=
  w.sandboxes.countP fun sandbox => service.sees sandbox ∧ sandbox.status = status

/-- Sandboxes that are running or starting. -/
def World.active (w : World) : ℕ := w.count service .running + w.count service .starting

/-- The old sandboxes are paused: whichever is paused was running and is not newer than any that
goes on running. -/
def OnlyOldestPaused (w : World) : Prop :=
  ∀ w' ids, service.pauseOldSandboxes w (maxNumSandboxes - 1) = some (w', ids) →
    ∀ a ∈ w.sandboxes, a ∉ w'.sandboxes →
      service.sees a = true ∧ a.status = .running ∧
        ∀ b ∈ w.sandboxes, b ∈ w'.sandboxes → service.sees b = true → b.status = .running →
          a.createdAt ≤ b.createdAt

/-- A start gets past the pausing of old sandboxes, and after a start or a resume the limit
holds, with only the oldest having been paused for it. -/
def LimitHolds (w : World) : Move → Prop
  | .start random now accepted =>
    (service.pauseOldSandboxes w (maxNumSandboxes - 1)).isSome = true ∧
      (perform service maxNumSandboxes w (.start random now accepted)).active service
        ≤ maxNumSandboxes ∧ OnlyOldestPaused service maxNumSandboxes w
  | .resume id accepted ready =>
    (perform service maxNumSandboxes w (.resume id accepted ready)).active service
        ≤ maxNumSandboxes ∧ OnlyOldestPaused service maxNumSandboxes w
  | _ => True

/-- The limit is at least two, and those that are starting, with as many running ones as are
kept, leave room for one more. -/
def HasRoom (w : World) : Move → Prop
  | .start _ _ _ | .resume _ _ _ =>
    2 ≤ maxNumSandboxes ∧
      w.count service .starting + min (w.count service .running) (maxNumSandboxes - 1)
        < maxNumSandboxes
  | _ => True

end OpenHands.SandboxLimit
