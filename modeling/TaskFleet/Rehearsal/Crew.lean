import TaskFleet.Dispatch.Pool
import TaskFleet.Rehearsal.Gate

/-!
# Workers at the gate

A `Crew` is a worker pool whose workers stop at the gate before they act.  A `Scene` says
what invocations do: what is noted and decided when a worker begins one, and what happens
when it comes through the gate.  `Scene.settle` moves the crew until nobody can move:
workers at the gate go on in the order in which they came, and only when none can, the
oldest invocation that a free worker serves is begun.  With an open gate, callbacks
therefore run one after another in the order of acceptance.

A callback may act on the pool it runs in, and what it starts there may run on other
workers before it returns; `Scene.perform` is given the crew's own moves for that.
-/

namespace TaskFleet.Rehearsal

/-- A pool, a gate, and the workers that wait at the gate, the first come first. -/
structure Crew (α : Type) where
  pool : Pool α
  gate : Gate
  atGate : List Nat

/-- How a worker's part ends: it is done, or it goes on with something else, which
stops at the gate again. -/
inductive Outcome (α : Type) where
  | finished (failed : Bool)
  | followedBy (next : α)

namespace Crew

variable {α : Type}

/-- A crew at rest before an open gate. -/
def ofPool (pool : Pool α) : Crew α := ⟨pool, .opened, []⟩

/-- Let the first worker at the gate through: the worker, and what it runs. -/
def letThrough? (c : Crew α) : Option (Nat × α × Crew α) :=
  match c.atGate with
  | [] => none
  | worker :: others =>
    match c.gate.pass?, c.pool.runningAt? worker with
    | some gate, some i => some (worker, i.content, { c with gate, atGate := others })
    | _, _ => none

/-- Let a free worker begin the oldest invocation it can: the worker, and what it
begins. -/
def begin? (c : Crew α) : Option (Nat × α × Crew α) :=
  match c.pool.nextTake? with
  | none => none
  | some (worker, d) =>
    (c.pool.take? worker d).map fun (i, pool) => (worker, i.content, { c with pool })

/-- A worker comes to the gate with what it is to do. -/
def arrive (c : Crew α) (worker : Nat) (content : α) : Crew α :=
  { c with pool := c.pool.goOn worker content, atGate := c.atGate ++ [worker] }

/-- A worker has finished what it did. -/
def finish (c : Crew α) (worker : Nat) (failed : Bool) : Crew α :=
  { c with pool := c.pool.finish worker failed }

end Crew

/-- What the invocations of a crew do to the state around it.  `enter` answers what the
worker takes to the gate. -/
structure Scene (σ α : Type) where
  crew : σ → Crew α
  withCrew : Crew α → σ → σ
  enter : α → σ → α × σ
  perform : (σ → σ) → α → σ → Outcome α × σ

namespace Scene

variable {σ α : Type}

/-- A worker enters with an invocation and comes to the gate. -/
def arrive (scene : Scene σ α) (worker : Nat) (content : α) (s : σ) : σ :=
  let (content, s) := scene.enter content s
  scene.withCrew ((scene.crew s).arrive worker content) s

/-- A worker's part has ended. -/
def conclude (scene : Scene σ α) (worker : Nat) (outcome : Outcome α) (s : σ) : σ :=
  match outcome with
  | .finished failed => scene.withCrew ((scene.crew s).finish worker failed) s
  | .followedBy next => scene.arrive worker next s

/-- Move the crew until nobody can move, at most `fuel` times. -/
def settle (scene : Scene σ α) : Nat → σ → σ
  | 0, s => s
  | fuel + 1, s =>
    match (scene.crew s).letThrough? with
    | some (worker, content, crew) =>
      let (outcome, s) := scene.perform (scene.settle fuel) content (scene.withCrew crew s)
      scene.settle fuel (scene.conclude worker outcome s)
    | none =>
      match (scene.crew s).begin? with
      | some (worker, content, crew) =>
        scene.settle fuel (scene.arrive worker content (scene.withCrew crew s))
      | none => s

end Scene

end TaskFleet.Rehearsal
