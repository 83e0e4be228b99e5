import TaskFleet.Config.Scheduler
import TaskFleet.Text.Reading

/-!
# Configuration from named variables

Every setting but the workers' stack size has a variable.  The host and the tracking URL
are taken as they stand; every other variable is read without the blanks around it.  The
variables are read in a fixed order and the first that cannot be read is reported with
the text as it was given.  What was read is checked as a whole afterwards.
-/

namespace TaskFleet

/-- Why variables are not a configuration. -/
inductive EnvironmentError where
  | unreadable (name text : String) (cause : Text.ReadError)
  | invalid (fault : ConfigError)
deriving DecidableEq, Repr

/-- The wording of a cause. -/
def EnvironmentError.message : EnvironmentError → String
  | .unreadable name text cause => s!"{name}: cannot parse `{text}`: {cause.message}"
  | .invalid fault => fault.message

namespace SchedulerConfig

/-- Read a 64-bit word. -/
def readWord64 (s : String) : Except Text.ReadError UInt64 :=
  (Text.readNat UInt64.size s.toList).map UInt64.ofNat

/-- Read a 16-bit word. -/
def readWord16 (s : String) : Except Text.ReadError UInt16 :=
  (Text.readNat UInt16.size s.toList).map UInt16.ofNat

/-- Read the name of a matching policy. -/
def readMatcher (s : String) : Except Text.ReadError MatcherKind :=
  match MatcherKind.all.find? fun k => decide (k.name = Text.trim s) with
  | some k => .ok k
  | none => .error (.unknownMatcher (Text.trim s))

/-- The value of a variable, if it is defined. -/
def readVariable {α : Type} (read : String → Except Text.ReadError α)
    (lookup : String → Option String) (name : String) : Except EnvironmentError (Option α) :=
  match lookup name with
  | none => .ok none
  | some text =>
    match read (Text.trim text) with
    | .ok a => .ok (some a)
    | .error cause => .error (.unreadable name text cause)

/-- The configuration that variables describe, before it is checked. -/
def ofVariables (lookup : String → Option String) : Except EnvironmentError SchedulerConfig := do
  let d := SchedulerConfig.standard
  let word64 := readVariable readWord64 lookup
  let switch := readVariable Text.readSwitch lookup
  let port ← readVariable readWord16 lookup "SCHEDULER_APP_PORT"
  let reuse ← switch "SCHEDULER_REUSE_ENABLED"
  let preemption ← switch "SCHEDULER_PREEMPTION_ENABLED"
  let idleCheck ← word64 "SCHEDULER_IDLE_CHECK_INTERVAL_MS"
  let eventQueue ← word64 "SCHEDULER_EVENT_QUEUE_DEPTH"
  let completion ← word64 "SCHEDULER_RELEASE_COMPLETION_TIMEOUT_MS"
  let matcher ← readVariable readMatcher lookup "SCHEDULER_MATCHER"
  let workers ← word64 "SCHEDULER_CALLBACK_WORKERS"
  let queueDepth ← word64 "SCHEDULER_CALLBACK_QUEUE_DEPTH"
  let drain ← word64 "SCHEDULER_DRAIN_TIMEOUT_MS"
  let enqueue ← word64 "SCHEDULER_ENQUEUE_TIMEOUT_MS"
  let call ← word64 "SCHEDULER_CALL_TIMEOUT_MS"
  let idleRelease ← word64 "SCHEDULER_IDLE_RELEASE_TIMEOUT_MS"
  return {
    appHost := (lookup "SCHEDULER_APP_HOST").getD d.appHost
    appPort := port.getD d.appPort
    trackingUrl := (lookup "SCHEDULER_TRACKING_URL").getD d.trackingUrl
    reuseEnabled := reuse.getD d.reuseEnabled
    preemptionEnabled := preemption.getD d.preemptionEnabled
    idleReleaseTimeoutMs := idleRelease
    idleCheckIntervalMs := idleCheck.getD d.idleCheckIntervalMs
    releaseCompletionTimeoutMs := completion.getD d.releaseCompletionTimeoutMs
    eventQueueDepth := eventQueue.getD d.eventQueueDepth
    matcher := matcher.getD d.matcher
    dispatcher := {
      workers := workers.getD d.dispatcher.workers
      queueDepth := queueDepth.getD d.dispatcher.queueDepth
      drainTimeoutMs := drain.getD d.dispatcher.drainTimeoutMs
      enqueueTimeoutMs := enqueue.getD d.dispatcher.enqueueTimeoutMs
      callTimeoutMs := call.getD d.dispatcher.callTimeoutMs
      threadStackSize := d.dispatcher.threadStackSize } }

/-- The configuration that variables describe. -/
def ofLookup (lookup : String → Option String) : Except EnvironmentError SchedulerConfig := do
  let c ← ofVariables lookup
  c.validated.mapError .invalid

end SchedulerConfig

end TaskFleet
