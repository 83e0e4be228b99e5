import TaskFleet.Config.Scheduler

/-!
# Settings over defaults

A configuration has sixteen settings, ten of its own and six in its dispatcher section.  Texts
and variables give some of them and leave out others; `SchedulerConfig.keeping` is what they
then describe, the given settings over the defaults.

Every fault of a configuration is a fault of one setting, and the defaults have none.  So to
leave settings out never makes a configuration invalid (`fault?_keeping`).
-/

namespace TaskFleet

/-- What a configuration sets. -/
inductive Setting where
  | appHost
  | appPort
  | trackingUrl
  | reuseEnabled
  | preemptionEnabled
  | idleReleaseTimeoutMs
  | idleCheckIntervalMs
  | releaseCompletionTimeoutMs
  | eventQueueDepth
  | matcher
  | workers
  | queueDepth
  | drainTimeoutMs
  | enqueueTimeoutMs
  | callTimeoutMs
  | threadStackSize
deriving DecidableEq

/-- The settings of a configuration itself. -/
def Setting.outer : List Setting := [
  .appHost, .appPort, .trackingUrl, .reuseEnabled, .preemptionEnabled, .idleReleaseTimeoutMs,
  .idleCheckIntervalMs, .releaseCompletionTimeoutMs, .eventQueueDepth, .matcher]

/-- The settings of the dispatcher section. -/
def Setting.inner : List Setting := [
  .workers, .queueDepth, .drainTimeoutMs, .enqueueTimeoutMs, .callTimeoutMs, .threadStackSize]

/-- The settings that are `c`'s for the settings in `S` and the defaults for the others. -/
def DispatcherConfig.keeping (S : Setting → Bool) (c : DispatcherConfig) : DispatcherConfig :=
  let d := DispatcherConfig.standard
  { workers := if S .workers then c.workers else d.workers
    queueDepth := if S .queueDepth then c.queueDepth else d.queueDepth
    drainTimeoutMs := if S .drainTimeoutMs then c.drainTimeoutMs else d.drainTimeoutMs
    enqueueTimeoutMs := if S .enqueueTimeoutMs then c.enqueueTimeoutMs else d.enqueueTimeoutMs
    callTimeoutMs := if S .callTimeoutMs then c.callTimeoutMs else d.callTimeoutMs
    threadStackSize := if S .threadStackSize then c.threadStackSize else d.threadStackSize }

/-- The configuration that agrees with `c` on the settings in `S` and with the defaults on the
others, in the dispatcher section too. -/
def SchedulerConfig.keeping (S : Setting → Bool) (c : SchedulerConfig) : SchedulerConfig :=
  let d := SchedulerConfig.standard
  { appHost := if S .appHost then c.appHost else d.appHost
    appPort := if S .appPort then c.appPort else d.appPort
    trackingUrl := if S .trackingUrl then c.trackingUrl else d.trackingUrl
    reuseEnabled := if S .reuseEnabled then c.reuseEnabled else d.reuseEnabled
    preemptionEnabled := if S .preemptionEnabled then c.preemptionEnabled else d.preemptionEnabled
    idleReleaseTimeoutMs :=
      if S .idleReleaseTimeoutMs then c.idleReleaseTimeoutMs else d.idleReleaseTimeoutMs
    idleCheckIntervalMs :=
      if S .idleCheckIntervalMs then c.idleCheckIntervalMs else d.idleCheckIntervalMs
    releaseCompletionTimeoutMs :=
      if S .releaseCompletionTimeoutMs then c.releaseCompletionTimeoutMs
      else d.releaseCompletionTimeoutMs
    eventQueueDepth := if S .eventQueueDepth then c.eventQueueDepth else d.eventQueueDepth
    matcher := if S .matcher then c.matcher else d.matcher
    dispatcher := c.dispatcher.keeping S }

@[simp] theorem DispatcherConfig.keeping_all (c : DispatcherConfig) :
    c.keeping (fun _ => true) = c := rfl

@[simp] theorem SchedulerConfig.keeping_all (c : SchedulerConfig) :
    c.keeping (fun _ => true) = c := rfl

/-- Where no setting of the section is given, the section stands at its defaults. -/
theorem DispatcherConfig.keeping_none {S : Setting → Bool} (c : DispatcherConfig)
    (h : ∀ s ∈ Setting.inner, S s = false) : c.keeping S = .standard := by
  simp only [Setting.inner, List.forall_mem_cons, List.not_mem_nil, false_imp_iff, implies_true,
    and_true] at h
  obtain ⟨hworkers, hqueue, hdrain, henqueue, hcall, hstack⟩ := h
  simp [keeping, hworkers, hqueue, hdrain, henqueue, hcall, hstack]

/-! ## Faults -/

/-- What settings without fault come to. -/
theorem DispatcherConfig.fault?_eq_none_iff {c : DispatcherConfig} :
    c.fault? = none ↔ c.workers ≠ 0 ∧ c.queueDepth ≠ 0 ∧ c.drainTimeoutMs ≠ 0 ∧
      c.callTimeoutMs ≠ 0 ∧ ¬ c.threadStackSize < 65536 := by
  unfold fault?
  grind

/-- What a configuration without fault comes to. -/
theorem SchedulerConfig.fault?_eq_none_iff {c : SchedulerConfig} :
    c.fault? = none ↔ (Text.trimmed c.appHost.toList).isEmpty = false ∧
      c.idleCheckIntervalMs ≠ 0 ∧ c.releaseCompletionTimeoutMs ≠ 0 ∧ c.eventQueueDepth ≠ 0 ∧
      c.idleReleaseTimeoutMs ≠ some 0 ∧ c.dispatcher.fault? = none := by
  unfold fault?
  grind [Option.map_eq_none_iff]

theorem DispatcherConfig.fault?_keeping {c : DispatcherConfig} (h : c.fault? = none)
    (S : Setting → Bool) : (c.keeping S).fault? = none := by
  have hstandard : standard.fault? = none := by decide
  rw [fault?_eq_none_iff] at *
  grind [keeping]

/-- A setting that is left out is no fault. -/
theorem SchedulerConfig.fault?_keeping {c : SchedulerConfig} (h : c.fault? = none)
    (S : Setting → Bool) : (c.keeping S).fault? = none := by
  have hstandard : standard.fault? = none := by decide
  have hsection : (c.dispatcher.keeping S).fault? = none :=
    DispatcherConfig.fault?_keeping (fault?_eq_none_iff.mp h).2.2.2.2.2 S
  rw [fault?_eq_none_iff] at *
  grind [keeping]

/-! ## The check after reading -/

/-- What was read is accepted if it has no fault, and refused for its fault else. -/
theorem SchedulerConfig.mapError_validated {ε : Type} (report : ConfigError → ε)
    (c : SchedulerConfig) :
    c.validated.mapError report = match c.fault? with
      | none => .ok c
      | some fault => .error (report fault) := by
  rw [validated]
  cases c.fault? <;> rfl

/-- What is accepted has no fault. -/
theorem SchedulerConfig.fault?_of_mapError_validated {ε : Type} {report : ConfigError → ε}
    {read c : SchedulerConfig} (h : read.validated.mapError report = .ok c) : c.fault? = none := by
  rw [mapError_validated] at h
  split at h
  · next hfault =>
    cases h
    exact hfault
  · cases h

end TaskFleet
