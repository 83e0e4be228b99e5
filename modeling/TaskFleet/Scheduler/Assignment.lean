import TaskFleet.Scheduler.Takeback

/-!
# Bringing requests and containers together

A new request takes an idle container if one serves it; otherwise the cluster is asked.
A container that a task leaves is offered to the waiting requests before it is kept idle.
A granted container goes to the request that it names or, without a name, to the request
it is meant for; a container that no waiting request wants goes back at once.
-/

namespace TaskFleet.Scheduler

/-- Record and queue that an idle container was handed to a request. -/
def reuse (s : Scheduler) (now : Instant) (task : TaskId) (cookie : Cookie)
    (container : Container) : Scheduler :=
  (s.note now .reused (some cookie) (some task) (some container.id) none).queue
    (.notify (.taskAllocated task cookie container))

/-! ## Requests -/

/-- The idle container that a new request takes, if containers are reused. -/
def reusable? (s : Scheduler) (cx : Context) (request : TaskRequest) :
    Except MatchError (Option ContainerId) :=
  if cx.policy.config.reuseEnabled then
    pickIdle? cx.policy.matcher request s.ledger.holdings
  else .ok none

/-- Ask the cluster for a container on behalf of the request recorded under a cookie. -/
def askCluster (s : Scheduler) (now : Instant) (cookie : Cookie) :
    Except LedgerError Unit × Scheduler :=
  match s.ledger.lookup cookie with
  | .error cause => (.error cause, s)
  | .ok request =>
    let asked := request.tiers cookie
    match s.ledger.markRequested cookie asked with
    | (.error cause, ledger) => (.error cause, { s with ledger })
    | (.ok (), ledger) =>
      let s := { s with ledger }.note now .requested (some cookie) (some request.task) none
        (some s!"{asked.length} tiers")
      (.ok (), asked.foldl (fun s r => s.queue (.call (.submit r))) s)

/-- Take a request up: hand it an idle container or ask the cluster. -/
def place (s : Scheduler) (cx : Context) (cookie : Cookie) (request : TaskRequest) :
    Option ContainerId → Except SchedulerError Cookie × Scheduler
  | some id =>
    match s.ledger.assignIdle cx.now cookie id with
    | (.error cause, ledger) => (.error (.ledger cause), { s with ledger })
    | (.ok (container, _), ledger) =>
      (.ok cookie, { s with ledger }.reuse cx.now request.task cookie container)
  | none =>
    match s.askCluster cx.now cookie with
    | (.error cause, s) => (.error (.ledger cause), s)
    | (.ok (), s) => (.ok cookie, s.preemptQuietly cx)

/-- Take a new request up.  One that the cluster can never grant is refused. -/
def request (s : Scheduler) (cx : Context) (request : TaskRequest) :
    Except SchedulerError Cookie × Scheduler :=
  match s.maxCapability.filter fun max => !max.covers request.capability with
  | some max => (.error (.capabilityExceeded request.capability max), s)
  | none =>
    match s.reusable? cx request with
    | .error cause => (.error (.matching cause), s)
    | .ok reusable =>
      let (cookie, ledger) := s.ledger.add request
      { s with ledger }.place cx cookie request reusable

/-! ## Containers that a task leaves -/

/-- The first of the waiting requests that a container serves. -/
def firstServed? (m : Matcher) (h : Holding) :
    List (Cookie × TaskRequest) → Except MatchError (Option (Cookie × TaskRequest))
  | [] => .ok none
  | (cookie, request) :: rest =>
    match m.superset (some h.signature) (some request.signature) with
    | .error cause => .error cause
    | .ok serves =>
      if serves && h.container.resource.covers request.capability then
        .ok (some (cookie, request))
      else firstServed? m h rest

/-- Hand an idle container to a waiting request. -/
def handOver (s : Scheduler) (now : Instant) (cookie : Cookie) (task : TaskId)
    (id : ContainerId) : Scheduler :=
  match s.ledger.assignIdle now cookie id with
  | (.error _, ledger) => { s with ledger }
  | (.ok (container, previous), ledger) =>
    ({ s with ledger }.withdrawAfter previous cookie).reuse now task cookie container

/-- Offer an idle container to the waiting requests. -/
def offerIdle (s : Scheduler) (cx : Context) (id : ContainerId) :
    Except MatchError Unit × Scheduler :=
  match s.ledger.holding? id with
  | none => (.ok (), s)
  | some h =>
    match firstServed? cx.policy.matcher h s.ledger.outstanding with
    | .error cause => (.error cause, s)
    | .ok none => (.ok (), s)
    | .ok (some (cookie, request)) => (.ok (), s.handOver cx.now cookie request.task id)

/-- Keep the container of a finished task and offer it to the waiting requests. -/
def retain (s : Scheduler) (cx : Context) (cookie : Cookie) (id : ContainerId) :
    Except SchedulerError (Option ContainerId) × Scheduler :=
  match s.ledger.remove cx.now cookie with
  | (.error cause, ledger) => (.error (.ledger cause), { s with ledger })
  | (.ok removed, ledger) =>
    let s := { s with ledger }.note cx.now .idled (some cookie) (some removed.request.task)
      (some id) none
    match s.offerIdle cx id with
    | (.error cause, s) => (.error (.matching cause), s)
    | (.ok (), s) => (.ok (some id), s)

/-- Withdraw a waiting request. -/
def withdraw (s : Scheduler) (cx : Context) (cookie : Cookie) :
    Except SchedulerError (Option ContainerId) × Scheduler :=
  match s.ledger.remove cx.now cookie with
  | (.error cause, ledger) => (.error (.ledger cause), { s with ledger })
  | (.ok removed, ledger) =>
    (.ok none, ({ s with ledger }.withdrawAfter removed.previousState cookie).note cx.now
      .withdrawn (some cookie) (some removed.request.task) none none)

/-- The task of a request is done.  A waiting request is withdrawn.  The container of a
task that succeeded is kept for reuse, if containers are reused; otherwise it goes back,
and so does one that is being taken away.  Answers the container the task had. -/
def deallocateTask (s : Scheduler) (cx : Context) (cookie : Cookie) (succeeded : Bool) :
    Except SchedulerError (Option ContainerId) × Scheduler :=
  match s.ledger.entries.get? cookie with
  | none => (.error (.ledger (.unknownCookie cookie)), s)
  | some entry =>
    match entry.phase with
    | .pending | .requested _ => s.withdraw cx cookie
    | .allocated id =>
      if succeeded && cx.policy.config.reuseEnabled then s.retain cx cookie id
      else (.ok (some id), (s.releaseHeld cx.now id "task finished").2)
    | .releasing id => (.ok (some id), (s.releaseHeld cx.now id "preempted task finished").2)

/-! ## Granted containers -/

/-- Give a granted container to a waiting request. -/
def assign (s : Scheduler) (now : Instant) (cookie : Cookie) (container : Container) :
    Scheduler :=
  match s.ledger.allocate now cookie container with
  | (.error _, ledger) => { s with ledger }.returnUnheld now container.id
  | (.ok previous, ledger) =>
    let s := { s with ledger }.withdrawAfter previous cookie
    match ledger.lookup cookie, ledger.holding? container.id with
    | .ok request, some h =>
      (s.note now .allocated (some cookie) (some request.task) (some container.id) none).queue
        (.notify (.taskAllocated request.task cookie h.container))
    | _, _ => s

/-- Give back a granted container that no waiting request wants. -/
def turnAway (s : Scheduler) (now : Instant) (action : AuditAction) (cookie : Option Cookie)
    (id : ContainerId) (detail : Option String) : Scheduler :=
  (s.note now action cookie none (some id) detail).returnUnheld now id

/-- Receive a granted container.  One that is held already is ignored. -/
def receive (s : Scheduler) (now : Instant) (container : Container) : Scheduler :=
  if s.ledger.held.contains container.id then s
  else
    match container.cookie <|> s.ledger.matchOutstanding container with
    | none => s.turnAway now .unsolicited none container.id none
    | some cookie =>
      match s.ledger.classify cookie with
      | .live state =>
        if state.isOutstanding then s.assign now cookie container
        else s.turnAway now .unsolicited (some cookie) container.id (some "surplus")
      | .retired => s.turnAway now .lateAllocation (some cookie) container.id none
      | .unknown => s.turnAway now .unsolicited (some cookie) container.id none

/-- Receive granted containers.  They change which requests wait, so containers may have
to be taken back afterwards, unless the scheduler was stopped. -/
def receiveAll (s : Scheduler) (cx : Context) (containers : List Container) : Scheduler :=
  let s := containers.foldl (fun s c => s.receive cx.now c) s
  if s.stopped then s else s.preemptQuietly cx

/-! ## Completed containers -/

/-- A container has finished.  One that was returned on arrival is awaited no longer and
not reported. -/
def complete (s : Scheduler) (now : Instant) (status : ContainerStatus) : Scheduler :=
  match s.ledger.complete status.container with
  | (.error _, ledger) => { s with ledger, awaiting := s.awaiting.erase status.container }
  | (.ok done, ledger) =>
    ({ s with ledger }.note now .completed done.cookie done.task (some status.container)
      (some s!"exit {status.exitStatus.toInt}")).queue
      (.notify (.containerCompleted done.task status))

end TaskFleet.Scheduler
