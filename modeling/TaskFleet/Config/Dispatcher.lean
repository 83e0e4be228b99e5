import TaskFleet.Json.Codec
import TaskFleet.Word

/-!
# Settings of the callback dispatcher

How many workers run callbacks, how much may wait, and how long callers wait.  One
worker runs everything in order; with more, only callbacks under one key keep their
order.
-/

namespace TaskFleet

/-- Sizes and time limits of the callback workers.  Times are in milliseconds. -/
structure DispatcherConfig where
  workers : UInt64 := 1
  queueDepth : UInt64 := 1024
  drainTimeoutMs : UInt64 := 5000
  enqueueTimeoutMs : UInt64 := 1000
  callTimeoutMs : UInt64 := 5000
  threadStackSize : UInt64 := 2097152
deriving DecidableEq, Repr

/-- What is wrong with dispatcher settings. -/
inductive DispatcherConfigError where
  | noWorkers
  | noQueue
  | noDrainTimeout
  | noCallTimeout
  | smallStack
deriving DecidableEq, Repr

/-- The wording of a fault. -/
def DispatcherConfigError.message : DispatcherConfigError → String
  | .noWorkers => "workers must be greater than 0"
  | .noQueue => "queue_depth must be greater than 0"
  | .noDrainTimeout => "drain_timeout_ms must be greater than 0"
  | .noCallTimeout => "call_timeout_ms must be greater than 0"
  | .smallStack => "thread_stack_size must be at least 64 KiB"

namespace DispatcherConfig

/-- One worker and roomy limits. -/
def standard : DispatcherConfig := {}

instance : Inhabited DispatcherConfig := ⟨standard⟩

/-- The first fault of the settings, if there is one. -/
def fault? (c : DispatcherConfig) : Option DispatcherConfigError :=
  if c.workers = 0 then some .noWorkers
  else if c.queueDepth = 0 then some .noQueue
  else if c.drainTimeoutMs = 0 then some .noDrainTimeout
  else if c.callTimeoutMs = 0 then some .noCallTimeout
  else if c.threadStackSize < 65536 then some .smallStack
  else none

/-- A change of one setting.  A span longer than the milliseconds that 64 bits can
count is set to the longest one. -/
inductive Change where
  | workers (n : UInt64)
  | queueDepth (n : UInt64)
  | drainTimeout (span : Duration)
  | enqueueTimeout (span : Duration)
  | callTimeout (span : Duration)
  | threadStackSize (n : UInt64)

/-- A span as a setting. -/
def milliseconds (span : Duration) : UInt64 :=
  clip64 span.milliseconds

/-- The settings after a change. -/
def change (c : DispatcherConfig) : Change → DispatcherConfig
  | .workers n => { c with workers := n }
  | .queueDepth n => { c with queueDepth := n }
  | .drainTimeout span => { c with drainTimeoutMs := milliseconds span }
  | .enqueueTimeout span => { c with enqueueTimeoutMs := milliseconds span }
  | .callTimeout span => { c with callTimeoutMs := milliseconds span }
  | .threadStackSize n => { c with threadStackSize := n }

/-- The text of the settings in diagnostics. -/
def diagnostic (c : DispatcherConfig) : String :=
  s!"DispatcherConfig \x7b workers: {c.workers.toNat}, queue_depth: {c.queueDepth.toNat}, " ++
  s!"drain_timeout_ms: {c.drainTimeoutMs.toNat}, " ++
  s!"enqueue_timeout_ms: {c.enqueueTimeoutMs.toNat}, " ++
  s!"call_timeout_ms: {c.callTimeoutMs.toNat}, " ++
  s!"thread_stack_size: {c.threadStackSize.toNat} \x7d"

end DispatcherConfig

instance : Codec DispatcherConfig where
  encode c := .record [
    ("workers", encode c.workers),
    ("queue_depth", encode c.queueDepth),
    ("drain_timeout_ms", encode c.drainTimeoutMs),
    ("enqueue_timeout_ms", encode c.enqueueTimeoutMs),
    ("call_timeout_ms", encode c.callTimeoutMs),
    ("thread_stack_size", encode c.threadStackSize)]
  decode? j := do
    let [workers, queueDepth, drain, enqueue, call, stack] ← j.fields?
      ["workers", "queue_depth", "drain_timeout_ms", "enqueue_timeout_ms", "call_timeout_ms",
        "thread_stack_size"] true | none
    let d := DispatcherConfig.standard
    return {
      workers := ← defaulted? d.workers workers
      queueDepth := ← defaulted? d.queueDepth queueDepth
      drainTimeoutMs := ← defaulted? d.drainTimeoutMs drain
      enqueueTimeoutMs := ← defaulted? d.enqueueTimeoutMs enqueue
      callTimeoutMs := ← defaulted? d.callTimeoutMs call
      threadStackSize := ← defaulted? d.threadStackSize stack }

end TaskFleet
