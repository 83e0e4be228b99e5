import TaskFleet.Scheduler.Basic

/-!
# Giving containers back

A held container is given back once: the ledger marks it, the trail has a record with the
reason, and the journal a call to the cluster.  A container that is not wanted on arrival
is given back without being held; its completion is awaited and not reported.
-/

namespace TaskFleet.Scheduler

/-- Record and queue that a container which `task` used goes back. -/
def sendBack (s : Scheduler) (now : Instant) (id : ContainerId) (task : Option TaskId)
    (reason : String) : Scheduler :=
  (s.note now .released none task (some id) (some reason)).queue (.call (.giveBack id))

/-- Give a held container back.  Answers whether it was still to be given back. -/
def releaseHeld (s : Scheduler) (now : Instant) (id : ContainerId) (reason : String) :
    Bool × Scheduler :=
  match s.ledger.release id with
  | (.ok task, ledger) => (true, { s with ledger }.sendBack now id task reason)
  | (.error _, ledger) => (false, { s with ledger })

/-- Give back a container that is not held, and await its completion. -/
def returnUnheld (s : Scheduler) (now : Instant) (id : ContainerId) : Scheduler :=
  { s with awaiting := s.awaiting.insert id now }.queue (.call (.giveBack id))

/-- Give a container back at the application's word.  This is also how the application
acknowledges that a container is taken from it; once is enough. -/
def deallocateContainer (s : Scheduler) (cx : Context) (id : ContainerId) :
    Except SchedulerError Unit × Scheduler :=
  match s.ledger.release id with
  | (.ok task, ledger) => (.ok (), { s with ledger }.sendBack cx.now id task "deallocated")
  | (.error (.alreadyReleased _), ledger) => (.ok (), { s with ledger })
  | (.error cause, ledger) => (.error (.ledger cause), { s with ledger })

/-- Give back the listed containers.  Answers how many still were to be given back. -/
def releaseEach (s : Scheduler) (now : Instant) (reason : String) :
    List ContainerId → Nat × Scheduler
  | [] => (0, s)
  | id :: ids =>
    let (done, s) := s.releaseHeld now id reason
    let (count, s) := s.releaseEach now reason ids
    (if done then count + 1 else count, s)

/-- Give back the containers that were idle too long at the time `asOf`, if there is a
limit.  Answers how many. -/
def releaseExpired (s : Scheduler) (cx : Context) (timeout : UInt64) (asOf : Instant) :
    Nat × Scheduler :=
  s.releaseEach cx.now "idle timeout" (s.ledger.expiredIdle asOf timeout)

/-- Await no longer the completions of containers returned on arrival long before
`asOf`. -/
def forgetReturned (s : Scheduler) (cx : Context) (asOf : Instant) : Scheduler :=
  let grace := cx.policy.config.releaseCompletionTimeoutMs.toNat
  { s with awaiting := s.awaiting.filter fun _ at_ => decide (asOf.since at_ < grace) }

end TaskFleet.Scheduler
