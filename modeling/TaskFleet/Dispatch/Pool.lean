import TaskFleet.Dispatch.Stats
import TaskFleet.Dispatch.Tracker
import TaskFleet.Error

/-!
# The worker pool

Callbacks wait in bounded first-in-first-out queues and are run by a fixed number of
workers.  All of them share one queue; when there is more than one worker, each also has
a lane of its own, and invocations under one key go to one lane, so they run one after
another in the order in which they were accepted.

The pool is a state machine.  `submit` asks for an invocation, `take?` lets a free worker
begin the oldest invocation of a queue it serves, `finish` ends a running one and
`shutdown` closes the queues; what is waiting then still runs.  Which free worker moves
next is not decided here.

The queues are kept as one list in order of acceptance, and a queue is the part of it
with one destination.  Which number a key has, and so which lane, is left to who asks.
-/

namespace TaskFleet

/-- The queue in which an invocation waits. -/
inductive Destination where
  | shared
  | lane (worker : Nat)
deriving DecidableEq, Repr, Inhabited

/-- Where an invocation waits whose key has the number `hash`, or which has no key. -/
def Destination.ofHash (workers : Nat) : Option Nat → Destination
  | some hash => if 1 < workers then .lane (hash % workers) else .shared
  | none => .shared

/-- An accepted invocation: its number, its queue, and what is to run. -/
structure Invocation (α : Type) where
  seq : Nat
  destination : Destination
  content : α
deriving Inhabited

/-- Workers, what waits for them and what they run. -/
structure Pool (α : Type) where
  config : DispatcherConfig
  tracker : Tracker
  waiting : List (Invocation α)
  running : List (Nat × Invocation α)
  closed : Bool

namespace Pool

variable {α : Type}

/-- A pool at rest. -/
def idle (config : DispatcherConfig) : Pool α := ⟨config, .empty, [], [], false⟩

/-- A pool at rest, if its settings have no fault. -/
def create (config : DispatcherConfig) : Except DispatchError (Pool α) :=
  match config.fault? with
  | some fault => .error (.invalidConfig fault.message)
  | none => .ok (idle config)

/-! ## Asking for invocations -/

/-- The invocations that wait in one queue, the oldest first. -/
def queue (p : Pool α) (d : Destination) : List (Invocation α) :=
  p.waiting.filter fun i => decide (i.destination = d)

/-- A queue has no room left. -/
def isFull (p : Pool α) (d : Destination) : Bool :=
  decide (p.config.queueDepth.toNat ≤ (p.queue d).length)

/-- Count an attempt to queue an invocation, and give it a number and a queue. -/
def attempt (p : Pool α) (hash : Option Nat) (content : α) : Invocation α × Pool α :=
  let (tracker, seq) := p.tracker.reserve
  (⟨seq, .ofHash p.config.workers.toNat hash, content⟩, { p with tracker })

/-- An attempt finds room in its queue. -/
def accept (p : Pool α) (i : Invocation α) : Pool α :=
  { p with tracker := p.tracker.enqueued, waiting := p.waiting ++ [i] }

/-- An attempt is given up. -/
def giveUp (p : Pool α) (i : Invocation α) : Pool α :=
  { p with tracker := p.tracker.abandon i.seq }

/-- Ask for an invocation, where `hash` gives the numbers of keys.  A closed pool refuses
without counting the attempt; a full queue refuses and counts it.  Answers the number of an
accepted invocation. -/
def submit {κ : Type} (p : Pool α) (hash : κ → Nat) (key : Option κ) (content : α) :
    Except DispatchError Nat × Pool α :=
  if p.closed then (.error .shutdown, p)
  else
    let (i, asked) := p.attempt (key.map hash) content
    if p.isFull i.destination then (.error .queueFull, asked.giveUp i)
    else (.ok i.seq, asked.accept i)

/-! ## Running invocations -/

/-- A worker of the pool runs nothing. -/
def isFree (p : Pool α) (worker : Nat) : Bool :=
  decide (worker < p.config.workers.toNat) && p.running.all fun r => decide (r.1 ≠ worker)

/-- A worker serves the shared queue and its own lane. -/
def serves (worker : Nat) : Destination → Bool
  | .shared => true
  | .lane w => decide (w = worker)

/-- A free worker begins the oldest invocation of a queue that it serves. -/
def take? (p : Pool α) (worker : Nat) (d : Destination) : Option (Invocation α × Pool α) :=
  if p.isFree worker && serves worker d then
    match (p.queue d).head? with
    | none => none
    | some i =>
      some (i, { p with
        waiting := p.waiting.eraseP fun j => decide (j.destination = d)
        running := p.running ++ [(worker, i)] })
  else none

/-- What a worker runs. -/
def runningAt? (p : Pool α) (worker : Nat) : Option (Invocation α) :=
  (p.running.find? fun r => decide (r.1 = worker)).map Prod.snd

/-- A worker goes on with something else under the same number. -/
def goOn (p : Pool α) (worker : Nat) (content : α) : Pool α :=
  { p with
    running := p.running.map fun r =>
      if r.1 = worker then (r.1, { r.2 with content }) else r }

/-- A worker has finished what it ran. -/
def finish (p : Pool α) (worker : Nat) (failed : Bool) : Pool α :=
  match p.runningAt? worker with
  | none => p
  | some i =>
    { p with
      tracker := p.tracker.finish i.seq failed
      running := p.running.filter fun r => decide (r.1 ≠ worker) }

/-- Accept nothing more. -/
def shutdown (p : Pool α) : Pool α := { p with closed := true }

/-- Some invocation with number `seq` that passes a test waits or runs. -/
def holds (p : Pool α) (seq : Nat) (test : α → Bool) : Bool :=
  (p.waiting ++ p.running.map Prod.snd).any fun i => decide (i.seq = seq) && test i.content

/-! ## The next move of an eager pool -/

/-- The free worker with the least number. -/
def freeWorker? (p : Pool α) : Option Nat :=
  (List.range (p.running.length + 1)).find? p.isFree

/-- The oldest invocation that some free worker can begin: the worker, and the queue. -/
def nextTake? (p : Pool α) : Option (Nat × Destination) :=
  p.waiting.findSome? fun i =>
    match i.destination with
    | .shared => p.freeWorker?.map fun worker => (worker, .shared)
    | .lane worker => if p.isFree worker then some (worker, .lane worker) else none

/-! ## Waiting and counting -/

/-- How a wait for everything asked for so far ends, if nothing more finishes. -/
def drained (p : Pool α) : Except DispatchError Unit :=
  Tracker.waitFor p.tracker.watermark p.tracker []

/-- The counters of the pool. -/
def stats (p : Pool α) : DispatcherStats where
  workers := p.config.workers
  dispatched := clip64 p.tracker.dispatched
  completed := clip64 p.tracker.completed
  failed := clip64 p.tracker.failed
  rejected := clip64 p.tracker.rejected
  inFlight := clip64 p.tracker.inFlight.length

/-- The text of the pool in diagnostics. -/
def diagnostic (p : Pool α) : String :=
  s!"CallbackDispatcher \x7b config: {p.config.diagnostic}, stats: {p.stats.diagnostic}, .. \x7d"

end Pool

end TaskFleet
