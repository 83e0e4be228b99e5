import TaskFleet.Rehearsal.Application
import TaskFleet.Rehearsal.Crew
import TaskFleet.Scheduler.EventQueue
import TaskFleet.Scheduler.Setup
import TaskFleet.Scheduler.Snapshot

/-!
# Rehearsing a scheduler

A session puts a scheduler between the in-memory client and a scripted application that
is called by a crew of workers, and lets time stand still between steps.  Whenever
something was given to the crew, it moves until nobody can move; so an operation sees
every callback that could run, run.

A callback that calls the scheduler runs the same operations as everybody else, on the
worker that runs the callback.  A question to the application that its crew could not
answer before it came to rest has timed out; the answer is dropped when it comes.
-/

namespace TaskFleet.Rehearsal

/-- Everything around the scheduler. -/
structure Session where
  policy : Policy
  client : Client
  crew : Crew Errand
  script : Script
  hash : String → Nat
  heard : List Heard
  clock : Int
  opensOnUnregister : Bool

/-- The scheduler and everything around it. -/
abbrev World := Scheduler × Session

namespace Session

/-- A session that begins. -/
def start (policy : Policy) (client : Client) (script : Script) (hash : String → Nat) :
    Session where
  policy
  client
  crew := .ofPool (.idle policy.config.dispatcher)
  script
  hash
  heard := []
  clock := 1000000
  opensOnUnregister := false

/-- The pool that calls the application. -/
def pool (x : Session) : Pool Errand := x.crew.pool

/-- A change of the pool. -/
def changePool (x : Session) (f : Pool Errand → Pool Errand) : Session :=
  { x with crew := { x.crew with pool := f x.crew.pool } }

/-- A change of the gate. -/
def changeGate (x : Session) (f : Gate → Gate) : Session :=
  { x with crew := { x.crew with gate := f x.crew.gate } }

/-- Note what the application hears. -/
def hear (x : Session) (h : Option Heard) : Session :=
  { x with heard := x.heard ++ h.toList }

/-- The application panics in a callback. -/
def panicsIn (x : Session) (callback : Callback) : Bool :=
  x.script.panicsIn.contains callback.name

/-- What the application heard since an earlier state of the session.  What one worker
delivered is in order; what several delivered is arranged by the given text. -/
def heardSince (x earlier : Session) (text : Heard → String) : List Heard :=
  let news := x.heard.drop earlier.heard.length
  if 1 < x.pool.config.workers.toNat then arrange text news else news

/-- The calls that the client was made since an earlier state of the session. -/
def callsSince (x earlier : Session) : List ClientCall :=
  x.client.calls.drop earlier.client.calls.length

end Session

/-! ## Giving callbacks to the crew -/

/-- Queue a callback and let the crew move. -/
def dispatch (settle : World → World) (callback : Callback) (w : World) :
    Except DispatchError Nat × World :=
  let (answer, pool) := w.2.pool.submit w.2.hash callback.key? { callback, isReport := false }
  (answer, settle (w.1, w.2.changePool fun _ => pool))

/-- Ask the application and wait for its answer. -/
def ask (settle : World → World) (question : Callback) {α : Type} (answer : Script → α)
    (w : World) : Except DispatchError α × World :=
  match dispatch settle question w with
  | (.error cause, w) => (.error cause, w)
  | (.ok seq, w) =>
    if w.2.pool.holds seq fun e => !e.isReport then (.error .timeout, w)
    else if w.2.panicsIn question then (.error (.callbackPanicked question.name), w)
    else (.ok (answer w.2.script), w)

/-- The surroundings of the scheduler in a session whose crew moves by `settle`. -/
def surroundings (settle : World → World) : Surroundings Session where
  now x := .ofClock x.clock
  headroom x := x.client.headroom
  call call x := { x with client := x.client.call call }
  register config x :=
    let (answer, client) := x.client.register config.appHost config.appPort config.trackingUrl
    (answer.mapError .ofRoot, { x with client })
  unregister status w :=
    let (answer, client) := w.2.client.unregister status
    let x := { w.2 with client }
    (answer.mapError .ofRoot,
      if x.opensOnUnregister then settle (w.1, x.changeGate Gate.unhold) else (w.1, x))
  deliver callback w :=
    let (answer, w) := dispatch settle callback w
    (answer.map fun _ => (), w)
  offer notice w :=
    let (answer, w) := dispatch settle (.notice notice) w
    (answer.map fun _ => (), w)
  askProgress := ask settle .askProgress Script.progress
  askFinalStatus := ask settle .askFinalStatus Script.finalStatus
  drain := settle
  shutdown w := (w.1, w.2.changePool Pool.shutdown)

/-! ## What callbacks do -/

/-- What the application does in a callback before it returns or panics. -/
def react (settle : World → World) (reaction : Reaction) (w : World) : World :=
  let here := surroundings settle
  let policy := w.2.policy
  match reaction with
  | .nothing => w
  | .finish cookie succeeded => (here.deallocateTask policy cookie succeeded w).2
  | .acknowledge id => (here.deallocateContainer policy id w).2
  | .stop =>
    let (answer, s, x) := here.stop policy w
    (s, x.hear (some (.stoppedInside answer)))

/-- What happens when a worker comes through the gate.  A panic is reported by the same
worker; the report of a panic may panic without further consequence. -/
def perform (settle : World → World) (e : Errand) (w : World) : Outcome Errand × World :=
  if e.isReport then (.finished true, w)
  else
    let w := react settle e.reaction w
    if w.2.panicsIn e.callback then
      (.followedBy (panicReport e.callback.name (w.2.script.payload e.callback.name)), w)
    else (.finished false, w)

/-- Callbacks of the application on stage. -/
def scene : Scene World Errand where
  crew w := w.2.crew
  withCrew crew w := (w.1, { w.2 with crew })
  enter e w :=
    ({ e with reaction := w.2.script.reaction e.callback },
      w.1, w.2.hear (Heard.of? e.callback))
  perform := perform

/-- Enough moves for everything that waits and for all that the application can cause by
calling the scheduler: each live request and each held container is given up once. -/
def moves (w : World) : Nat :=
  8 * (w.2.pool.waiting.length + w.2.pool.running.length + w.1.pending.length +
    w.1.ledger.entries.size + w.1.ledger.held.size + w.1.reports.length + 2)

/-- Let the crew move until nobody can move. -/
def settle (w : World) : World :=
  scene.settle (moves w) w

/-- The surroundings of the scheduler between steps. -/
def stage : Surroundings Session := surroundings settle

/-! ## The gate -/

/-- Hold the gate and let a callback get stuck at it. -/
def hold (w : World) : World :=
  stage.handle w.2.policy .shutdownRequested (w.1, w.2.changeGate Gate.hold)

/-- Let `n` more callbacks through the gate. -/
def grant (n : Nat) (w : World) : World :=
  settle (w.1, w.2.changeGate (·.grant n))

/-- Open the gate. -/
def unhold (w : World) : World :=
  settle (w.1, w.2.changeGate Gate.unhold)

/-! ## A faulty policy -/

/-- A policy that can be made to lose an argument of its comparisons. -/
def forgetful (m : Matcher) (losesCandidate losesRight : Bool) : Matcher where
  superset s t := m.superset (if losesCandidate then none else s) t
  exact s t := m.exact s (if losesRight then none else t)

/-! ## The event queue -/

/-- Submit events to a queue of their own, apply them, and then run the housekeeping if
`ticks` says so; answers how each event was received. -/
def runQueue (events : List ClusterEvent) (ticks : Bool) (w : World) :
    List (Except SchedulerError Unit) × EventQueue × World :=
  let submitted := events.foldl (fun (acc : List (Except SchedulerError Unit) × EventQueue) e =>
    let (answer, q) := acc.2.submit e
    (acc.1 ++ [answer], q)) ([], .opened)
  let (q, w) := submitted.2.applyAll stage w.2.policy w
  let w := if ticks then (stage.tick w.2.policy (stage.now w.2) w).2 else w
  (submitted.1, q, w)

end TaskFleet.Rehearsal
