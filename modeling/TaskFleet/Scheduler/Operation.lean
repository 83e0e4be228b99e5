import TaskFleet.Scheduler.Delivery

/-!
# The operations of a scheduler

The application starts and stops the scheduler, asks for containers and gives them back;
the cluster sends news; time passes.  Every operation takes its decision at once and then
carries out what follows.

A stopped scheduler takes no more requests and takes no containers back, but goes on to
receive, give back and complete containers.
-/

namespace TaskFleet

/-- News from the cluster. -/
inductive ClusterEvent where
  | allocated (containers : List Container)
  | completed (statuses : List ContainerStatus)
  | nodesUpdated (reports : List NodeReport)
  | shutdownRequested
  | failure (cause : Failure)

namespace Surroundings

variable {σ : Type}

/-! ## Registration -/

/-- Register with the cluster and hand what it answers to the application. -/
def start (here : Surroundings σ) (policy : Policy) (w : Scheduler × σ) :
    Except SchedulerError Unit × Scheduler × σ :=
  if w.1.stopped then (.error .stopped, w)
  else
    match here.register policy.config w.2 with
    | (.error cause, x) => (.error (.registration cause), w.1, x)
    | (.ok data, x) =>
      let s := { w.1 with maxCapability := some data.maxCapability, registered := true }
      let (answer, w) := here.deliver (.registration data) (s, x)
      (answer.mapError .dispatch, w)

/-- The final status of an application: its own, or why it could not be asked.  A status
without a tracking URL has the configured one. -/
def finalStatus (config : SchedulerConfig) (answer : Except DispatchError AppFinalStatus) :
    AppFinalStatus :=
  let status := match answer with
    | .ok status => status
    | .error cause => ⟨.undefined, cause.message, ""⟩
  if status.trackingUrl.isEmpty then { status with trackingUrl := config.trackingUrl }
  else status

/-- Unregister with the application's final status. -/
def signOff (here : Surroundings σ) (policy : Policy) (w : Scheduler × σ) :
    Except SchedulerError Unit × Scheduler × σ :=
  let (status, w) := here.askFinalStatus w
  let (answer, w) := here.unregister (finalStatus policy.config status) w
  (answer.mapError .unregistration, w)

/-- Unregister, wait for the callbacks and call the application no more.  Stopping twice
is stopping once. -/
def stop (here : Surroundings σ) (policy : Policy) (w : Scheduler × σ) :
    Except SchedulerError Unit × Scheduler × σ :=
  if w.1.stopped then (.ok (), w)
  else
    let w := here.flush ({ w.1 with stopped := true }, w.2)
    let (answer, w) :=
      if w.1.registered then here.signOff policy ({ w.1 with registered := false }, w.2)
      else (.ok (), w)
    (answer, here.shutdown (here.drain w))

/-! ## Requests and containers -/

/-- Ask for a container. -/
def requestTask (here : Surroundings σ) (policy : Policy) (request : TaskRequest)
    (w : Scheduler × σ) : Except SchedulerError Cookie × Scheduler × σ :=
  if w.1.stopped then (.error .stopped, w)
  else here.perform policy (fun s cx => s.request cx request) w

/-- Say that the task of a request is done. -/
def deallocateTask (here : Surroundings σ) (policy : Policy) (cookie : Cookie)
    (succeeded : Bool) (w : Scheduler × σ) :
    Except SchedulerError (Option ContainerId) × Scheduler × σ :=
  here.perform policy (fun s cx => s.deallocateTask cx cookie succeeded) w

/-- Give a held container back. -/
def deallocateContainer (here : Surroundings σ) (policy : Policy) (id : ContainerId)
    (w : Scheduler × σ) : Except SchedulerError Unit × Scheduler × σ :=
  here.perform policy (fun s cx => s.deallocateContainer cx id) w

/-- Take containers back for waiting requests, if that is enabled. -/
def preemptIfNeeded (here : Surroundings σ) (policy : Policy) (w : Scheduler × σ) :
    Except SchedulerError Unit × Scheduler × σ :=
  if policy.config.preemptionEnabled then
    let (answer, w) := here.perform policy Scheduler.preempt w
    (answer.mapError .matching, w)
  else (.ok (), w)

/-! ## Time -/

/-- Give back the containers that were idle too long at the time `asOf`.  Answers how
many. -/
def releaseIdle (here : Surroundings σ) (policy : Policy) (asOf : Instant)
    (w : Scheduler × σ) : Nat × Scheduler × σ :=
  match policy.config.idleReleaseTimeoutMs with
  | none => (0, w)
  | some timeout => here.perform policy (fun s cx => s.releaseExpired cx timeout asOf) w

/-- The housekeeping of every interval: idle containers go back, completions that never
came are forgotten, and waiting requests are looked at again.  Answers how many idle
containers went back. -/
def tick (here : Surroundings σ) (policy : Policy) (asOf : Instant) (w : Scheduler × σ) :
    Nat × Scheduler × σ :=
  let (released, w) := here.releaseIdle policy asOf w
  let ((), w) := here.perform policy (fun s cx =>
    let s := s.forgetReturned cx asOf
    ((), if s.stopped then s else s.preemptQuietly cx)) w
  (released, w)

/-! ## News -/

/-- Send the application a notice. -/
def notify (here : Surroundings σ) (policy : Policy) (notice : Notice) (w : Scheduler × σ) :
    Scheduler × σ :=
  (here.perform policy (fun s _ => ((), s.queue (.notify notice))) w).2

/-- Receive news from the cluster. -/
def handle (here : Surroundings σ) (policy : Policy) (event : ClusterEvent)
    (w : Scheduler × σ) : Scheduler × σ :=
  match event with
  | .allocated containers =>
    (here.perform policy (fun s cx => ((), s.receiveAll cx containers)) w).2
  | .completed statuses =>
    (here.perform policy (fun s cx =>
      ((), statuses.foldl (fun s status => s.complete cx.now status) s)) w).2
  | .nodesUpdated reports => here.notify policy (.nodesUpdated reports) w
  | .shutdownRequested => here.notify policy .shutdownRequested w
  | .failure cause => here.notify policy (.failure cause) w

/-- The progress of the application, or the last known one when it does not answer with a
number. -/
def progress (here : Surroundings σ) (w : Scheduler × σ) : Progress × Scheduler × σ :=
  match here.askProgress w with
  | (.ok p, s, x) =>
    let s := if p.isFinite then { s with progress := p.clamped } else s
    (s.progress, s, x)
  | (.error _, s, x) => (s.progress, s, x)

end Surroundings

end TaskFleet
