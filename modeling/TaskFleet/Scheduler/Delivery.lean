import TaskFleet.Scheduler.Assignment

/-!
# Carrying decisions out

A scheduler acts on its `Surroundings`: the client of the cluster and the workers that
call the application.  `Surroundings.flush` carries out what is pending, one effect
after another, until nothing is left.

The application may not be reachable.  A notice that is refused is made good: a container
whose allocation or release the application never heard of goes back to the cluster, and
a report of the failure is kept until it can be delivered.  Kept reports are offered
again, the oldest first, whenever effects are carried out.

While a notice is delivered the application may call the scheduler.  Its decisions are
then left to the flush that is under way.
-/

namespace TaskFleet

namespace Scheduler

/-- How many reports are kept. -/
def reportLimit : Nat := 256

/-- Keep a report of a failed delivery; the oldest makes room.  Nothing is kept for an
application that is gone. -/
def keepReport (s : Scheduler) (cause : DispatchError) (report : String) : Scheduler :=
  if cause = .shutdown then s
  else
    let kept := if reportLimit ≤ s.reports.length then s.reports.drop 1 else s.reports
    { s with reports := kept ++ [report] }

/-- The report of a notice that was not delivered. -/
def undelivered (notice : Notice) (cause : DispatchError) : String :=
  match notice with
  | .taskAllocated task cookie container =>
    s!"task_allocated for {task.display} ({cookie.display}) in container " ++
    s!"{container.id.text} was not delivered: {cause.message}; the container was released"
  | .containerCompleted _ status =>
    s!"container_completed for container {status.container.text} was not delivered: " ++
    cause.message
  | .containerBeingReleased id =>
    s!"container_being_released for container {id.text} was not delivered: " ++
    s!"{cause.message}; the container was released"
  | .failure reported => reported.chain
  | other => s!"{other.name} was not delivered: {cause.message}"

/-- Give back what the application does not know that it has, or does not know that it
has to give up. -/
def giveUpUnheard (s : Scheduler) (now : Instant) : Notice → Scheduler
  | .taskAllocated _ cookie container =>
    if s.ledger.containerOf? cookie = some container.id ∧
        s.ledger.state? cookie = some .allocated then
      (s.releaseHeld now container.id "allocation undeliverable").2
    else s
  | .containerBeingReleased id =>
    match (s.ledger.holding? id).map Holding.assignment with
    | some (.beingReleased _) => (s.releaseHeld now id "release notice undeliverable").2
    | _ => s
  | _ => s

/-- Make good that a notice was refused. -/
def refused (s : Scheduler) (now : Instant) (notice : Notice) (cause : DispatchError) :
    Scheduler :=
  (s.giveUpUnheard now notice).keepReport cause (undelivered notice cause)

end Scheduler

/-- What a scheduler acts on, with a state `σ` of its own.  Whatever calls the application
may also change the scheduler, because the application may call back. -/
structure Surroundings (σ : Type) where
  now : σ → Instant
  headroom : σ → Option Resource
  call : ContainerCall → σ → σ
  register : SchedulerConfig → σ → Except Failure Registration × σ
  unregister : AppFinalStatus → Scheduler × σ → Except Failure Unit × Scheduler × σ
  deliver : Callback → Scheduler × σ → Except DispatchError Unit × Scheduler × σ
  offer : Notice → Scheduler × σ → Except DispatchError Unit × Scheduler × σ
  askProgress : Scheduler × σ → Except DispatchError Progress × Scheduler × σ
  askFinalStatus : Scheduler × σ → Except DispatchError AppFinalStatus × Scheduler × σ
  drain : Scheduler × σ → Scheduler × σ
  shutdown : Scheduler × σ → Scheduler × σ

namespace Surroundings

variable {σ : Type}

/-! ## Kept reports -/

/-- Offer reports to the application, the oldest first, as long as there is room.  Answers
those that are still to be kept. -/
def offerReports (here : Surroundings σ) :
    List String → Scheduler × σ → List String × Scheduler × σ
  | [], w => ([], w)
  | report :: rest, w =>
    match here.offer (.failure (.ofRoot report)) w with
    | (.ok (), w) => here.offerReports rest w
    | (.error .shutdown, w) => ([], w)
    | (.error _, w) => (report :: rest, w)

/-- Offer the kept reports again. -/
def redeliver (here : Surroundings σ) (w : Scheduler × σ) : Scheduler × σ :=
  let (kept, s, x) := here.offerReports w.1.reports ({ w.1 with reports := [] }, w.2)
  ({ s with reports := kept ++ s.reports }, x)

/-! ## Effects -/

/-- Carry out one effect. -/
def apply (here : Surroundings σ) : Effect → Scheduler × σ → Scheduler × σ
  | .call call, (s, x) => (s, here.call call x)
  | .notify notice, w =>
    match here.deliver (.notice notice) w with
    | (.ok (), w) => w
    | (.error cause, s, x) => (s.refused (here.now x) notice cause, x)

/-- Carry out pending effects, at most `fuel` of them. -/
def applyPending (here : Surroundings σ) : Nat → Scheduler × σ → Scheduler × σ
  | 0, w => w
  | fuel + 1, w =>
    match w.1.takeUp? with
    | none => w
    | some (e, s) => here.applyPending fuel (here.apply e (s, w.2))

end Surroundings

/-- Enough to carry out everything pending and all that may follow from it: one call for
each notice that is refused, and what the application does with its live requests and
held containers when it hears of them. -/
def Scheduler.flushBound (s : Scheduler) : Nat :=
  2 * s.pending.length + 8 * (s.ledger.entries.size + s.ledger.held.size)

namespace Surroundings

variable {σ : Type}

/-- Carry out all that is pending, unless that is under way. -/
def flush (here : Surroundings σ) (w : Scheduler × σ) : Scheduler × σ :=
  if w.1.applying then w
  else
    let w := here.redeliver ({ w.1 with applying := true }, w.2)
    let w := here.applyPending w.1.flushBound w
    ({ w.1 with applying := false }, w.2)

/-- Take a decision and carry it out. -/
def perform (here : Surroundings σ) (policy : Policy) {α : Type}
    (decision : Scheduler → Context → α × Scheduler) (w : Scheduler × σ) :
    α × Scheduler × σ :=
  let (answer, s) := decision w.1 ⟨policy, here.now w.2, here.headroom w.2⟩
  (answer, here.flush (s, w.2))

end Surroundings

end TaskFleet
