import TaskFleet.Identifier
import TaskFleet.Json.Codec
import TaskFleet.Cluster

/-!
# The audit trail

One `AuditRecord` is made for each decision.  A sink turns records into `AuditEvent`s
with a name of their own; `AuditLog` keeps the latest of them.  Where the names come from is
left open: a supply says how the event is called that a sink was given as number 0, 1, 2, …
-/

namespace TaskFleet

/-- What was decided. -/
inductive AuditAction where
  | requested
  | reused
  | allocated
  | withdrawn
  | idled
  | released
  | preempted
  | completed
  | unsolicited
  | lateAllocation
deriving DecidableEq, Repr, Inhabited

namespace AuditAction

/-- Every action. -/
def all : List AuditAction := [
  requested, reused, allocated, withdrawn, idled, released, preempted, completed, unsolicited,
  lateAllocation]

/-- The word for an action. -/
def name : AuditAction → String
  | requested => "requested"
  | reused => "reused"
  | allocated => "allocated"
  | withdrawn => "withdrawn"
  | idled => "idled"
  | released => "released"
  | preempted => "preempted"
  | completed => "completed"
  | unsolicited => "unsolicited"
  | lateAllocation => "late_allocation"

end AuditAction

/-- A decision: what, about which request, task and container, and when. -/
structure AuditRecord where
  action : AuditAction
  cookie : Option Cookie
  task : Option TaskId
  container : Option ContainerId
  detail : Option String
  time : Instant
deriving DecidableEq, Repr

/-- A recorded decision under a name of its own. -/
structure AuditEvent where
  eventId : String
  action : AuditAction
  cookie : Option Cookie
  task : Option TaskId
  container : Option ContainerId
  createdAt : Instant
  detail : Option String
deriving DecidableEq, Repr

/-- A record as an event under a name. -/
def AuditRecord.event (eventId : String) (r : AuditRecord) : AuditEvent where
  eventId
  action := r.action
  cookie := r.cookie
  task := r.task
  container := r.container
  createdAt := r.time
  detail := r.detail

/-- A sink that keeps the latest events, the oldest first. -/
structure AuditLog where
  capacity : Nat
  events : List AuditEvent
  recorded : Nat
deriving DecidableEq

namespace AuditLog

/-- The sink that was given nothing yet. -/
def empty (capacity : Nat) : AuditLog := ⟨capacity, [], 0⟩

/-- The sink after one more event; the oldest one makes room if there is none. -/
def keep (log : AuditLog) (e : AuditEvent) : AuditLog :=
  let events :=
    if log.capacity = 0 then log.events
    else
      let kept := if log.capacity ≤ log.events.length then log.events.drop 1 else log.events
      kept ++ [e]
  { log with events, recorded := log.recorded + 1 }

/-- The sink after one more record, of which it makes an event under the next name. -/
def record (names : Nat → String) (log : AuditLog) (r : AuditRecord) : AuditLog :=
  log.keep (r.event (names log.recorded))

/-- How many events are kept. -/
def size (log : AuditLog) : Nat := log.events.length

/-- No event is kept. -/
def isEmpty (log : AuditLog) : Bool := log.events.isEmpty

/-- The kept events that an earlier state of the sink had not been given. -/
def newSince (log earlier : AuditLog) : List AuditEvent :=
  log.events.drop (log.size - min log.size (log.recorded - earlier.recorded))

end AuditLog

/-- Where audit records go: into a log, or to a trace that keeps nothing here. -/
inductive AuditSink where
  | log (log : AuditLog)
  | trace
deriving DecidableEq

namespace AuditSink

/-- The sink after one more record. -/
def record (names : Nat → String) (sink : AuditSink) (r : AuditRecord) : AuditSink :=
  match sink with
  | log l => log (l.record names r)
  | trace => trace

/-- The sink after more records, the oldest first. -/
def recordAll (names : Nat → String) (sink : AuditSink) (rs : List AuditRecord) : AuditSink :=
  rs.foldl (record names) sink

/-- The events that the sink keeps. -/
def events : AuditSink → List AuditEvent
  | log l => l.events
  | trace => []

/-- The kept events that an earlier state of the sink had not been given. -/
def newSince : AuditSink → AuditSink → List AuditEvent
  | log l, log earlier => l.newSince earlier
  | sink, _ => sink.events

end AuditSink

/-! ## JSON forms -/

instance : Codec AuditAction where
  encode a := .ofString a.name
  decode? j := j.caseOf? AuditAction.all AuditAction.name

instance : Codec AuditEvent where
  encode e := .record [
    ("event_id", encode e.eventId),
    ("action", encode e.action),
    ("cookie", encode e.cookie),
    ("task", encode e.task),
    ("container_id", encode e.container),
    ("created_at_ms", encode e.createdAt),
    ("detail", encode e.detail)]
  decode? j := do
    let [eventId, action, cookie, task, container, createdAt, detail] ← j.fields?
      ["event_id", "action", "cookie", "task", "container_id", "created_at_ms", "detail"]
      false | none
    return {
      eventId := ← required? eventId
      action := ← required? action
      cookie := ← optional? cookie
      task := ← optional? task
      container := ← optional? container
      createdAt := ← required? createdAt
      detail := ← optional? detail }

end TaskFleet
