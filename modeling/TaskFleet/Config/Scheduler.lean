import TaskFleet.Config.Dispatcher
import TaskFleet.Matcher
import TaskFleet.Text.Blank
import TaskFleet.Text.Quoted

/-!
# Settings of the scheduler

How the application announces itself, which policies apply and how long things wait.
A configuration read from a JSON text stands on the defaults: a field that is not
written keeps its default, inside the dispatcher section too.  What was read is checked
as a whole afterwards.
-/

namespace TaskFleet

/-- The configuration of a scheduler.  Times are in milliseconds. -/
structure SchedulerConfig where
  appHost : String := "localhost"
  appPort : UInt16 := 0
  trackingUrl : String := ""
  reuseEnabled : Bool := true
  preemptionEnabled : Bool := true
  idleReleaseTimeoutMs : Option UInt64 := none
  idleCheckIntervalMs : UInt64 := 1000
  releaseCompletionTimeoutMs : UInt64 := 600000
  eventQueueDepth : UInt64 := 1024
  matcher : MatcherKind := .alwaysMatch
  dispatcher : DispatcherConfig := .standard
deriving DecidableEq, Repr

/-- What is wrong with a configuration. -/
inductive ConfigError where
  | noAppHost
  | noIdleCheckInterval
  | noReleaseCompletionTimeout
  | noEventQueue
  | zeroIdleReleaseTimeout
  | dispatcher (fault : DispatcherConfigError)
deriving DecidableEq, Repr

/-- The wording of a fault. -/
def ConfigError.message : ConfigError → String
  | .noAppHost => "app_host must not be empty"
  | .noIdleCheckInterval => "idle_check_interval_ms must be greater than 0"
  | .noReleaseCompletionTimeout => "release_completion_timeout_ms must be greater than 0"
  | .noEventQueue => "event_queue_depth must be greater than 0"
  | .zeroIdleReleaseTimeout => "idle_release_timeout_ms must be greater than 0 when set"
  | .dispatcher fault => s!"dispatcher invalid: {fault.message}"

namespace SchedulerConfig

/-- The configuration in which nothing was set. -/
def standard : SchedulerConfig := {}

instance : Inhabited SchedulerConfig := ⟨standard⟩

/-- The first fault of a configuration, if there is one. -/
def fault? (c : SchedulerConfig) : Option ConfigError :=
  if (Text.trimmed c.appHost.toList).isEmpty then some .noAppHost
  else if c.idleCheckIntervalMs = 0 then some .noIdleCheckInterval
  else if c.releaseCompletionTimeoutMs = 0 then some .noReleaseCompletionTimeout
  else if c.eventQueueDepth = 0 then some .noEventQueue
  else if c.idleReleaseTimeoutMs = some 0 then some .zeroIdleReleaseTimeout
  else c.dispatcher.fault?.map .dispatcher

/-- A configuration without fault. -/
def validated (c : SchedulerConfig) : Except ConfigError SchedulerConfig :=
  match c.fault? with
  | some fault => .error fault
  | none => .ok c

/-- A change of one setting. -/
inductive Change where
  | reuse (enabled : Bool)
  | preemption (enabled : Bool)
  | idleReleaseTimeoutMs (ms : UInt64)
  | releaseCompletionTimeoutMs (ms : UInt64)
  | matcher (kind : MatcherKind)
  | dispatcher (settings : DispatcherConfig)

/-- The configuration after a change. -/
def change (c : SchedulerConfig) : Change → SchedulerConfig
  | .reuse enabled => { c with reuseEnabled := enabled }
  | .preemption enabled => { c with preemptionEnabled := enabled }
  | .idleReleaseTimeoutMs ms => { c with idleReleaseTimeoutMs := some ms }
  | .releaseCompletionTimeoutMs ms => { c with releaseCompletionTimeoutMs := ms }
  | .matcher kind => { c with matcher := kind }
  | .dispatcher settings => { c with dispatcher := settings }

/-- The text of a configuration in diagnostics. -/
def diagnostic (c : SchedulerConfig) : String :=
  let idleRelease := match c.idleReleaseTimeoutMs with
    | some ms => s!"Some({ms.toNat})"
    | none => "None"
  s!"SchedulerConfig \x7b app_host: {Text.quoted c.appHost}, app_port: {c.appPort.toNat}, " ++
  s!"tracking_url: {Text.quoted c.trackingUrl}, reuse_enabled: {c.reuseEnabled}, " ++
  s!"preemption_enabled: {c.preemptionEnabled}, idle_release_timeout_ms: {idleRelease}, " ++
  s!"idle_check_interval_ms: {c.idleCheckIntervalMs.toNat}, " ++
  s!"release_completion_timeout_ms: {c.releaseCompletionTimeoutMs.toNat}, " ++
  s!"event_queue_depth: {c.eventQueueDepth.toNat}, matcher: {c.matcher.diagnostic}, " ++
  s!"dispatcher: {c.dispatcher.diagnostic} \x7d"

end SchedulerConfig

instance : Codec SchedulerConfig where
  encode c := .record [
    ("app_host", encode c.appHost),
    ("app_port", encode c.appPort),
    ("tracking_url", encode c.trackingUrl),
    ("reuse_enabled", encode c.reuseEnabled),
    ("preemption_enabled", encode c.preemptionEnabled),
    ("idle_release_timeout_ms", encode c.idleReleaseTimeoutMs),
    ("idle_check_interval_ms", encode c.idleCheckIntervalMs),
    ("release_completion_timeout_ms", encode c.releaseCompletionTimeoutMs),
    ("event_queue_depth", encode c.eventQueueDepth),
    ("matcher", encode c.matcher),
    ("dispatcher", encode c.dispatcher)]
  decode? j := do
    let [host, port, url, reuse, preemption, idleRelease, idleCheck, completion, queue,
        matcher, dispatcher] ← j.fields?
      ["app_host", "app_port", "tracking_url", "reuse_enabled", "preemption_enabled",
        "idle_release_timeout_ms", "idle_check_interval_ms", "release_completion_timeout_ms",
        "event_queue_depth", "matcher", "dispatcher"] true | none
    let d := SchedulerConfig.standard
    return {
      appHost := ← defaulted? d.appHost host
      appPort := ← defaulted? d.appPort port
      trackingUrl := ← defaulted? d.trackingUrl url
      reuseEnabled := ← defaulted? d.reuseEnabled reuse
      preemptionEnabled := ← defaulted? d.preemptionEnabled preemption
      idleReleaseTimeoutMs := ← defaulted? d.idleReleaseTimeoutMs idleRelease
      idleCheckIntervalMs := ← defaulted? d.idleCheckIntervalMs idleCheck
      releaseCompletionTimeoutMs := ← defaulted? d.releaseCompletionTimeoutMs completion
      eventQueueDepth := ← defaulted? d.eventQueueDepth queue
      matcher := ← defaulted? d.matcher matcher
      dispatcher := ← defaulted? d.dispatcher dispatcher }

/-- Why a JSON text is not a configuration. -/
inductive ConfigTextError where
  | notReadable
  | invalid (fault : ConfigError)
deriving DecidableEq, Repr

/-- The configuration that a JSON text describes. -/
def SchedulerConfig.ofJsonText (s : String) : Except ConfigTextError SchedulerConfig :=
  match ofJsonText? SchedulerConfig s with
  | none => .error .notReadable
  | some c => c.validated.mapError .invalid

end TaskFleet
