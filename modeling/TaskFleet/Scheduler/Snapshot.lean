import TaskFleet.Dispatch.Stats
import TaskFleet.Scheduler.Basic

/-!
# A view of the scheduler's bookkeeping
-/

namespace TaskFleet

/-- Counters and totals at one moment. -/
structure SchedulerSnapshot where
  outstandingRequests : UInt64
  allocatedRequests : UInt64
  releasingRequests : UInt64
  idleContainers : UInt64
  heldContainers : UInt64
  outstandingResources : Resource
  heldResources : Resource
  releasingResources : Resource
  awaitingCompletion : UInt64
  undeliveredReports : UInt64
  maxCapability : Option Resource
  dispatcher : DispatcherStats
deriving DecidableEq, Repr, Inhabited

/-- The view of a scheduler whose workers have the given counters. -/
def Scheduler.snapshot (s : Scheduler) (dispatcher : DispatcherStats) : SchedulerSnapshot where
  outstandingRequests := clip64 (s.ledger.countIn .pending + s.ledger.countIn .requested)
  allocatedRequests := clip64 (s.ledger.countIn .allocated)
  releasingRequests := clip64 (s.ledger.countIn .releasing)
  idleContainers := clip64 s.ledger.idleContainers.length
  heldContainers := clip64 s.ledger.held.size
  outstandingResources := s.ledger.outstandingResources
  heldResources := s.ledger.heldResources
  releasingResources := s.ledger.releasingResources
  awaitingCompletion := clip64 s.awaiting.size
  undeliveredReports := clip64 s.reports.length
  maxCapability := s.maxCapability
  dispatcher

instance : Codec SchedulerSnapshot where
  encode s := .record [
    ("outstanding_requests", encode s.outstandingRequests),
    ("allocated_requests", encode s.allocatedRequests),
    ("releasing_requests", encode s.releasingRequests),
    ("idle_containers", encode s.idleContainers),
    ("held_containers", encode s.heldContainers),
    ("outstanding_resources", encode s.outstandingResources),
    ("held_resources", encode s.heldResources),
    ("releasing_resources", encode s.releasingResources),
    ("awaiting_completion", encode s.awaitingCompletion),
    ("undelivered_reports", encode s.undeliveredReports),
    ("max_capability", encode s.maxCapability),
    ("dispatcher", encode s.dispatcher)]
  decode? j := do
    let [outstanding, allocated, releasing, idle, held, outstandingResources, heldResources,
        releasingResources, awaiting, reports, maxCapability, dispatcher] ← j.fields?
      ["outstanding_requests", "allocated_requests", "releasing_requests", "idle_containers",
        "held_containers", "outstanding_resources", "held_resources", "releasing_resources",
        "awaiting_completion", "undelivered_reports", "max_capability", "dispatcher"]
      false | none
    return {
      outstandingRequests := ← required? outstanding
      allocatedRequests := ← required? allocated
      releasingRequests := ← required? releasing
      idleContainers := ← required? idle
      heldContainers := ← required? held
      outstandingResources := ← required? outstandingResources
      heldResources := ← required? heldResources
      releasingResources := ← required? releasingResources
      awaitingCompletion := ← required? awaiting
      undeliveredReports := ← required? reports
      maxCapability := ← optional? maxCapability
      dispatcher := ← required? dispatcher }

end TaskFleet
