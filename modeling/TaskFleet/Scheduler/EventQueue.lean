import TaskFleet.Scheduler.Operation

/-!
# The queue of cluster events

Events wait in the order in which they were submitted and are applied one after another.
A queue that was stopped takes no more of them, but what it holds is still applied.
-/

namespace TaskFleet

/-- Events that wait to be applied. -/
structure EventQueue where
  waiting : List ClusterEvent
  accepting : Bool

namespace EventQueue

/-- A queue without events. -/
def opened : EventQueue := ⟨[], true⟩

/-- Submit an event. -/
def submit (q : EventQueue) (event : ClusterEvent) : Except SchedulerError Unit × EventQueue :=
  if q.accepting then (.ok (), { q with waiting := q.waiting ++ [event] })
  else (.error .stopped, q)

/-- Take no more events. -/
def stop (q : EventQueue) : EventQueue := { q with accepting := false }

/-- Apply what waits. -/
def applyAll {σ : Type} (q : EventQueue) (here : Surroundings σ) (policy : Policy)
    (w : Scheduler × σ) : EventQueue × Scheduler × σ :=
  ({ q with waiting := [] }, q.waiting.foldl (fun w event => here.handle policy event w) w)

end EventQueue

end TaskFleet
