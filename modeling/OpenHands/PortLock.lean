/-
# The lock file of a port

A `PortLock` keeps other processes off a port by a lock on a file that all of them open
under one name.  The name leads to an inode, or to nothing after an unlink; the lock lies
on the inode.  Every system call of `acquire`, `release` and `cleanup_stale_locks` is one
step of its process, in any order with those of the others.
-/
import Mathlib.Logic.Function.Basic
import OpenHands.Lib.Run

namespace OpenHands.PortLock

/-- What the code of a process does next. -/
inductive Pc where
  /-- Outside of the three functions. -/
  | idle
  /-- In the loop of `acquire`. -/
  | trying
  /-- `acquire` has the lock and writes the port number. -/
  | writing
  /-- The timeout of `acquire` is reached. -/
  | givingUp
  /-- `release`, from its first call to its last. -/
  | unlocking | closing | unlinking
  /-- `cleanup_stale_locks` has found the lock file old. -/
  | cleaning
  deriving DecidableEq, Repr

/-- The lock object of a process.  `lockFd` is the inode the descriptor is open on, and
`holding` says that an `acquire` has returned `True` and `release` was not called since. -/
structure Lock where
  pc : Pc := .idle
  lockFd : Option ℕ := none
  locked : Bool := false
  holding : Bool := false
  deriving DecidableEq, Repr

/-- The lock file and the processes: the inode under the path, the first unused inode, the
owner of the lock on each inode. -/
structure World (P : Type*) where
  entry : Option ℕ := none
  nextInode : ℕ := 0
  owner : ℕ → Option P := fun _ => none
  locks : P → Lock := fun _ => {}

/-- A system call, with what the environment decides about it.  `acquire` goes up to the
`open`, `release` up to the call of `flock`, and `stat` is the test of the age. -/
inductive Call where
  | acquire
  | flock
  | write (ok : Bool)
  | timeout
  | close
  | release
  | unlock
  | unlink (ok : Bool)
  | stat (old : Bool)
  deriving DecidableEq, Repr

variable {P : Type*} [DecidableEq P]

namespace World

/-- The lock object of `p` changes. -/
def set (w : World P) (p : P) (l : Lock) : World P :=
  { w with locks := Function.update w.locks p l }

/-- The lock on the inode goes if `p` has it. -/
def drop (w : World P) (p : P) (fd : Option ℕ) : World P :=
  { w with owner := fun i => if fd = some i ∧ w.owner i = some p then none else w.owner i }

/-- `acquire` until it returns or the lock file is open. -/
def acquire (w : World P) (p : P) : World P :=
  let l := w.locks p
  if l.pc ≠ .idle then w
  else if l.locked then w.set p { l with holding := true }
  else
    match w.entry with
    | some i => w.set p { l with pc := .trying, lockFd := some i }
    | none =>
      { w.set p { l with pc := .trying, lockFd := some w.nextInode } with
        entry := some w.nextInode
        nextInode := w.nextInode + 1 }

/-- `fcntl.flock(self.lock_fd, fcntl.LOCK_EX | fcntl.LOCK_NB)`. -/
def flock (w : World P) (p : P) : World P :=
  let l := w.locks p
  match l.pc, l.lockFd with
  | .trying, some i =>
    if w.owner i = none ∨ w.owner i = some p then
      { w.set p { l with pc := .writing, locked := true } with
        owner := Function.update w.owner i (some p) }
    else w
  | _, _ => w

/-- The write of the port number.  Where it raises the loop goes on. -/
def write (w : World P) (p : P) (ok : Bool) : World P :=
  let l := w.locks p
  match l.pc with
  | .writing =>
    if ok then w.set p { l with pc := .idle, holding := true }
    else w.set p { l with pc := .trying }
  | _ => w

/-- The condition of the loop fails. -/
def timeout (w : World P) (p : P) : World P :=
  let l := w.locks p
  match l.pc with
  | .trying => w.set p { l with pc := .givingUp }
  | _ => w

/-- `os.close(self.lock_fd)` of `acquire` and of `release`. -/
def close (w : World P) (p : P) : World P :=
  let l := w.locks p
  match l.pc with
  | .givingUp => (w.drop p l.lockFd).set p { l with pc := .idle, lockFd := none }
  | .closing => (w.drop p l.lockFd).set p { l with pc := .unlinking }
  | _ => w

/-- `release` until it returns or has a file to unlock. -/
def release (w : World P) (p : P) : World P :=
  let l := w.locks p
  match l.pc, l.lockFd with
  | .idle, none => w.set p { l with holding := false }
  | .idle, some _ => w.set p { l with pc := .unlocking, holding := false }
  | _, _ => w

/-- `fcntl.flock(self.lock_fd, fcntl.LOCK_UN)`. -/
def unlock (w : World P) (p : P) : World P :=
  let l := w.locks p
  match l.pc with
  | .unlocking => (w.drop p l.lockFd).set p { l with pc := .closing }
  | _ => w

/-- The inode under the path after an `os.unlink` that may fail. -/
def entryAfter (w : World P) (ok : Bool) : Option ℕ := if ok then none else w.entry

/-- `os.unlink` of `release`, with its `finally`, and of `cleanup_stale_locks`. -/
def unlink (w : World P) (p : P) (ok : Bool) : World P :=
  let l := w.locks p
  match l.pc with
  | .unlinking =>
    { w.set p { l with pc := .idle, lockFd := none, locked := false } with
      entry := w.entryAfter ok }
  | .cleaning => { w.set p { l with pc := .idle } with entry := w.entryAfter ok }
  | _ => w

/-- `cleanup_stale_locks` looks at the lock file. -/
def stat (w : World P) (p : P) (old : Bool) : World P :=
  let l := w.locks p
  match l.pc with
  | .idle => if old ∧ w.entry.isSome then w.set p { l with pc := .cleaning } else w
  | _ => w

/-- A process performs a system call. -/
def perform (w : World P) : P × Call → World P
  | (p, .acquire) => w.acquire p
  | (p, .flock) => w.flock p
  | (p, .write ok) => w.write p ok
  | (p, .timeout) => w.timeout p
  | (p, .close) => w.close p
  | (p, .release) => w.release p
  | (p, .unlock) => w.unlock p
  | (p, .unlink ok) => w.unlink p ok
  | (p, .stat old) => w.stat p old

/-- At most one process is between a successful `acquire` and its `release`. -/
def AtMostOneHolder (w : World P) : Prop :=
  ∀ p q, (w.locks p).holding → (w.locks q).holding → p = q

end World

end OpenHands.PortLock
