import TaskFleet.Json.Codec

/-!
# Counters of a worker pool
-/

namespace TaskFleet

/-- How many invocations were queued, ran, failed and were turned away, and how many are
queued or running. -/
structure DispatcherStats where
  workers : UInt64
  dispatched : UInt64
  completed : UInt64
  failed : UInt64
  rejected : UInt64
  inFlight : UInt64
deriving DecidableEq, Repr, Inhabited

/-- The text of the counters in diagnostics. -/
def DispatcherStats.diagnostic (s : DispatcherStats) : String :=
  s!"DispatcherStats \x7b workers: {s.workers.toNat}, dispatched: {s.dispatched.toNat}, " ++
  s!"completed: {s.completed.toNat}, failed: {s.failed.toNat}, " ++
  s!"rejected: {s.rejected.toNat}, in_flight: {s.inFlight.toNat} \x7d"

instance : Codec DispatcherStats where
  encode s := .record [
    ("workers", encode s.workers),
    ("dispatched", encode s.dispatched),
    ("completed", encode s.completed),
    ("failed", encode s.failed),
    ("rejected", encode s.rejected),
    ("in_flight", encode s.inFlight)]
  decode? j := do
    let [workers, dispatched, completed, failed, rejected, inFlight] ← j.fields?
      ["workers", "dispatched", "completed", "failed", "rejected", "in_flight"] false | none
    return {
      workers := ← required? workers
      dispatched := ← required? dispatched
      completed := ← required? completed
      failed := ← required? failed
      rejected := ← required? rejected
      inFlight := ← required? inFlight }

end TaskFleet
