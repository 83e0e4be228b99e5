import TaskFleet.Dispatch.Panic
import TaskFleet.Rehearsal.Crew

/-!
# Drilling a worker pool

A drill runs a pool with invocations that do what they are told: return, panic, or shut
the pool down.  Each notes that it ran when a worker begins it.  A panic is reported to a
hook, if the drill has one; the hook notes the report and is not stopped at the gate.
Whether the hook itself panics makes no difference: the invocation has failed once.
-/

namespace TaskFleet.Rehearsal

/-- What an invocation of a drill does when it has come through the gate. -/
inductive Conduct where
  | returns
  | panics (payload : PanicPayload)
  | shutsDown
deriving DecidableEq, Repr

/-- An invocation of a drill: its name, a label for the log, and what it does.  `rank`
is the key by which the log of several workers is sorted. -/
structure Exercise where
  name : String
  tag : Json
  rank : String
  conduct : Conduct

/-- What a drill notes. -/
inductive DrillNote where
  | ran (name : String) (tag : Json)
  | reported (name message : String)

/-- A pool of exercises and what was noted so far. -/
structure Drill where
  crew : Crew Exercise
  hash : String → Nat
  hooked : Bool
  notes : List (String × DrillNote)

namespace Drill

/-- A drill that begins. -/
def start (config : DispatcherConfig) (hash : String → Nat) (hooked : Bool) :
    Except DispatchError Drill :=
  (Pool.create config).map fun pool => ⟨.ofPool pool, hash, hooked, []⟩

/-- The pool of a drill. -/
def pool (d : Drill) : Pool Exercise := d.crew.pool

/-- A change of the pool. -/
def changePool (d : Drill) (f : Pool Exercise → Pool Exercise) : Drill :=
  { d with crew := { d.crew with pool := f d.crew.pool } }

/-- A change of the gate. -/
def changeGate (d : Drill) (f : Gate → Gate) : Drill :=
  { d with crew := { d.crew with gate := f d.crew.gate } }

/-- What an exercise does after the gate. -/
def perform (x : Exercise) (d : Drill) : Outcome Exercise × Drill :=
  match x.conduct with
  | .returns => (.finished false, d)
  | .shutsDown => (.finished false, d.changePool Pool.shutdown)
  | .panics payload =>
    let notes :=
      if d.hooked then d.notes ++ [(x.name, .reported x.name payload.message)] else d.notes
    (.finished true, { d with notes })

/-- Exercises on stage. -/
def scene : Scene Drill Exercise where
  crew := crew
  withCrew crew d := { d with crew }
  enter x d := (x, { d with notes := d.notes ++ [(x.rank, .ran x.name x.tag)] })
  perform _ := perform

/-- Run whatever can run. -/
def settle (d : Drill) : Drill :=
  scene.settle (2 * (d.pool.waiting.length + d.pool.running.length) + 1) d

/-- Ask for an exercise and run whatever can run. -/
def dispatch (d : Drill) (key : Option String) (x : Exercise) :
    Except DispatchError Nat × Drill :=
  let (answer, pool) := d.pool.submit d.hash key x
  (answer, (d.changePool fun _ => pool).settle)

/-- Ask for an exercise and wait for its end. -/
def call (d : Drill) (x : Exercise) : Except DispatchError Unit × Drill :=
  match d.dispatch none x with
  | (.error e, d) => (.error e, d)
  | (.ok seq, d) =>
    if d.pool.holds seq fun _ => true then (.error .timeout, d)
    else
      match x.conduct with
      | .panics _ => (.error (.callbackPanicked x.name), d)
      | _ => (.ok (), d)

/-- Hold the gate. -/
def hold (d : Drill) : Drill := d.changeGate Gate.hold

/-- Grant permits and run whatever can run. -/
def grant (d : Drill) (n : Nat) : Drill := (d.changeGate (·.grant n)).settle

/-- Open the gate and run whatever can run. -/
def unhold (d : Drill) : Drill := (d.changeGate Gate.unhold).settle

/-- Close the pool. -/
def shutdown (d : Drill) : Drill := d.changePool Pool.shutdown

/-- What was noted since an earlier state of the drill.  One worker's notes are in the
order in which they were made; those of several workers are sorted by key. -/
def notesSince (d earlier : Drill) : List DrillNote :=
  let notes := d.notes.drop earlier.notes.length
  let arranged :=
    if 1 < d.pool.config.workers.toNat then
      notes.mergeSort fun a b => decide (¬ b.1 < a.1)
    else notes
  arranged.map Prod.snd

end Drill

end TaskFleet.Rehearsal
