import TaskFleet.Config.Environment
import TaskFleet.Proofs.Config.Settings
import TaskFleet.Proofs.Text.Reading

/-!
# Configurations as variables

Variables that give some settings of a configuration describe the configuration that has those
settings and the defaults elsewhere.  Each of them is read by one function into its own
setting, so the argument goes setting by setting: what `Setting.variableName?` names is looked up,
what `Setting.wording?` says is read back (`readVariable_of_gives`), and the settings put together
are `SchedulerConfig.keeping`.

The configuration was valid, and to leave settings out does not make it invalid, so the check
afterwards never refuses it.
-/

namespace TaskFleet

/-! ## How settings are given by variables -/

namespace Setting

/-- The variable of a setting.  The stack size of the workers has none. -/
def variableName? : Setting → Option String
  | appHost => some "SCHEDULER_APP_HOST"
  | appPort => some "SCHEDULER_APP_PORT"
  | trackingUrl => some "SCHEDULER_TRACKING_URL"
  | reuseEnabled => some "SCHEDULER_REUSE_ENABLED"
  | preemptionEnabled => some "SCHEDULER_PREEMPTION_ENABLED"
  | idleReleaseTimeoutMs => some "SCHEDULER_IDLE_RELEASE_TIMEOUT_MS"
  | idleCheckIntervalMs => some "SCHEDULER_IDLE_CHECK_INTERVAL_MS"
  | releaseCompletionTimeoutMs => some "SCHEDULER_RELEASE_COMPLETION_TIMEOUT_MS"
  | eventQueueDepth => some "SCHEDULER_EVENT_QUEUE_DEPTH"
  | matcher => some "SCHEDULER_MATCHER"
  | workers => some "SCHEDULER_CALLBACK_WORKERS"
  | queueDepth => some "SCHEDULER_CALLBACK_QUEUE_DEPTH"
  | drainTimeoutMs => some "SCHEDULER_DRAIN_TIMEOUT_MS"
  | enqueueTimeoutMs => some "SCHEDULER_ENQUEUE_TIMEOUT_MS"
  | callTimeoutMs => some "SCHEDULER_CALL_TIMEOUT_MS"
  | threadStackSize => none

/-- The setting is taken as it stands, blanks and all. -/
def isVerbatim : Setting → Bool
  | appHost | trackingUrl => true
  | _ => false

/-- The word for a setting of `c`.  An idle release timeout that is not set has none. -/
def wording? (c : SchedulerConfig) : Setting → Option String
  | appHost => some c.appHost
  | appPort => some (Text.decimal c.appPort.toNat)
  | trackingUrl => some c.trackingUrl
  | reuseEnabled => some (Text.switch c.reuseEnabled)
  | preemptionEnabled => some (Text.switch c.preemptionEnabled)
  | idleReleaseTimeoutMs => c.idleReleaseTimeoutMs.map fun ms => Text.decimal ms.toNat
  | idleCheckIntervalMs => some (Text.decimal c.idleCheckIntervalMs.toNat)
  | releaseCompletionTimeoutMs => some (Text.decimal c.releaseCompletionTimeoutMs.toNat)
  | eventQueueDepth => some (Text.decimal c.eventQueueDepth.toNat)
  | matcher => some c.matcher.name
  | workers => some (Text.decimal c.dispatcher.workers.toNat)
  | queueDepth => some (Text.decimal c.dispatcher.queueDepth.toNat)
  | drainTimeoutMs => some (Text.decimal c.dispatcher.drainTimeoutMs.toNat)
  | enqueueTimeoutMs => some (Text.decimal c.dispatcher.enqueueTimeoutMs.toNat)
  | callTimeoutMs => some (Text.decimal c.dispatcher.callTimeoutMs.toNat)
  | threadStackSize => none

end Setting

/-- The variable `name` gives a word, perhaps between blanks unless it is taken verbatim; where
there is no word it is not defined. -/
def Gives (lookup : String → Option String) (name : String) (verbatim : Bool) :
    Option String → Prop
  | none => lookup name = none
  | some value => ∃ given, lookup name = some given ∧
      if verbatim then given = value else Text.Padded value given

/-- The variables give the settings in `S` the values that they have in `c`, and leave out the
others.  What else is defined does not matter. -/
def SchedulerConfig.GivenBy (lookup : String → Option String) (S : Setting → Bool)
    (c : SchedulerConfig) : Prop :=
  ∀ s name, s.variableName? = some name →
    Gives lookup name s.isVerbatim (if S s then s.wording? c else none)

/-! ## Reading single variables -/

namespace SchedulerConfig

/-- Every value is read from the word for it. -/
def Reads {α : Type} (read : String → Except Text.ReadError α) (word : α → String) : Prop :=
  ∀ a, Text.IsWord (word a) ∧ read (word a) = .ok a

theorem reads_word64 : Reads readWord64 fun w => Text.decimal w.toNat := by
  intro w
  refine ⟨Text.isWord_decimal _, ?_⟩
  rw [readWord64, Text.readNat_decimal w.toNat_lt, Except.map, UInt64.ofNat_toNat]

theorem reads_word16 : Reads readWord16 fun w => Text.decimal w.toNat := by
  intro w
  refine ⟨Text.isWord_decimal _, ?_⟩
  rw [readWord16, Text.readNat_decimal w.toNat_lt, Except.map, UInt16.ofNat_toNat]

theorem reads_switch : Reads Text.readSwitch Text.switch := fun on =>
  ⟨Text.isWord_switch on, Text.readSwitch_switch on⟩

theorem reads_matcher : Reads readMatcher MatcherKind.name := by
  intro k
  have hword : Text.IsWord k.name := by cases k <;> decide
  refine ⟨hword, ?_⟩
  rw [readMatcher, Text.trim_word hword]
  cases k <;> rfl

variable {lookup : String → Option String} {name : String}

/-- A variable that gives a value in some case is read as the value in that case. -/
theorem readVariable_of_gives {α : Type} {read : String → Except Text.ReadError α}
    {word : α → String} (hread : Reads read word) (a? : Option α) {on : Bool}
    (h : Gives lookup name false (if on then a?.map word else none)) :
    readVariable read lookup name = .ok (if on then a? else none) := by
  cases on with
  | false =>
    have hnone : lookup name = none := h
    rw [readVariable, hnone]
    rfl
  | true =>
    cases a? with
    | none =>
      have hnone : lookup name = none := h
      rw [readVariable, hnone]
      rfl
    | some a =>
      obtain ⟨given, hgiven, hpadded⟩ := h
      obtain ⟨hword, hvalue⟩ := hread a
      have htrim : Text.trim given = word a := Text.trim_padded hword hpadded
      simp only [readVariable, hgiven, htrim, hvalue]
      rfl

theorem lookup_of_gives {value : String} {on : Bool}
    (h : Gives lookup name true (if on then some value else none)) :
    lookup name = if on then some value else none := by
  cases on with
  | false => exact h
  | true =>
    obtain ⟨given, hgiven, heq⟩ := h
    rw [hgiven]
    exact congrArg some heq

/-- A setting that is given in some case has its value in that case and its default otherwise. -/
theorem getD_ite {α : Type} (on : Bool) (a d : α) :
    (if on then some a else none).getD d = if on then a else d := by
  cases on <;> rfl

/-! ## Reading all variables -/

theorem ofVariables_of_givenBy {c : SchedulerConfig} {S : Setting → Bool}
    (hstack : c.dispatcher.threadStackSize = standard.dispatcher.threadStackSize)
    (h : c.GivenBy lookup S) : ofVariables lookup = .ok (c.keeping S) := by
  have hhost := lookup_of_gives (h .appHost _ rfl)
  have hurl := lookup_of_gives (h .trackingUrl _ rfl)
  have hport := readVariable_of_gives reads_word16 (some c.appPort) (h .appPort _ rfl)
  have hreuse := readVariable_of_gives reads_switch (some c.reuseEnabled) (h .reuseEnabled _ rfl)
  have hpreemption := readVariable_of_gives reads_switch (some c.preemptionEnabled)
    (h .preemptionEnabled _ rfl)
  have hidle := readVariable_of_gives reads_word64 c.idleReleaseTimeoutMs
    (h .idleReleaseTimeoutMs _ rfl)
  have hcheck := readVariable_of_gives reads_word64 (some c.idleCheckIntervalMs)
    (h .idleCheckIntervalMs _ rfl)
  have hcompletion := readVariable_of_gives reads_word64 (some c.releaseCompletionTimeoutMs)
    (h .releaseCompletionTimeoutMs _ rfl)
  have hevents := readVariable_of_gives reads_word64 (some c.eventQueueDepth)
    (h .eventQueueDepth _ rfl)
  have hmatcher := readVariable_of_gives reads_matcher (some c.matcher) (h .matcher _ rfl)
  have hworkers := readVariable_of_gives reads_word64 (some c.dispatcher.workers) (h .workers _ rfl)
  have hqueue := readVariable_of_gives reads_word64 (some c.dispatcher.queueDepth)
    (h .queueDepth _ rfl)
  have hdrain := readVariable_of_gives reads_word64 (some c.dispatcher.drainTimeoutMs)
    (h .drainTimeoutMs _ rfl)
  have henqueue := readVariable_of_gives reads_word64 (some c.dispatcher.enqueueTimeoutMs)
    (h .enqueueTimeoutMs _ rfl)
  have hcall := readVariable_of_gives reads_word64 (some c.dispatcher.callTimeoutMs)
    (h .callTimeoutMs _ rfl)
  have hsection : standard.dispatcher = DispatcherConfig.standard := rfl
  simp only [ofVariables, hport, hreuse, hpreemption, hidle, hcheck, hcompletion, hevents, hmatcher,
    hworkers, hqueue, hdrain, henqueue, hcall, hhost, hurl, getD_ite, bind, Except.bind, pure,
    Except.pure, keeping, DispatcherConfig.keeping, hstack, hsection, ite_self]
  rfl

theorem ofLookup_eq {c : SchedulerConfig} (h : ofVariables lookup = .ok c) :
    ofLookup lookup = match c.fault? with
      | none => .ok c
      | some fault => .error (.invalid fault) := by
  rw [ofLookup, h]
  exact mapError_validated EnvironmentError.invalid c

theorem fault?_of_ofLookup {c : SchedulerConfig} (h : ofLookup lookup = .ok c) :
    c.fault? = none := by
  cases hread : ofVariables lookup with
  | error cause =>
    rw [ofLookup, hread] at h
    cases h
  | ok read =>
    rw [ofLookup, hread] at h
    exact fault?_of_mapError_validated h

/-- A configuration without fault whose stack size is the default is read back from variables
that give all its settings.  Variables that give some of its settings are read as these over the
defaults.  What variables are accepted as has no fault. -/
theorem variables_read_back :
    (∀ (lookup : String → Option String) (c : SchedulerConfig), c.fault? = none →
      c.dispatcher.threadStackSize = standard.dispatcher.threadStackSize →
      c.GivenBy lookup (fun _ => true) → ofLookup lookup = .ok c) ∧
    (∀ (lookup : String → Option String) (c : SchedulerConfig) (S : Setting → Bool),
      c.fault? = none → c.dispatcher.threadStackSize = standard.dispatcher.threadStackSize →
      c.GivenBy lookup S → ofLookup lookup = .ok (c.keeping S)) ∧
    (∀ (lookup : String → Option String) (c : SchedulerConfig), ofLookup lookup = .ok c →
      c.fault? = none) := by
  have hsome : ∀ (lookup : String → Option String) (c : SchedulerConfig) (S : Setting → Bool),
      c.fault? = none → c.dispatcher.threadStackSize = standard.dispatcher.threadStackSize →
      c.GivenBy lookup S → ofLookup lookup = .ok (c.keeping S) := by
    intro lookup c S hfault hstack hgiven
    rw [ofLookup_eq (ofVariables_of_givenBy hstack hgiven), fault?_keeping hfault S]
  refine ⟨fun lookup c hfault hstack hgiven => ?_, hsome, fun lookup c h => fault?_of_ofLookup h⟩
  rw [hsome lookup c _ hfault hstack hgiven, keeping_all]

/-- Four settings are given, two of them between blanks, beside a variable of something else. -/
theorem variables_read_back_padded :
    let c : SchedulerConfig := {
      appHost := "head node ", idleReleaseTimeoutMs := some 60000, matcher := .identity,
      dispatcher := { workers := 3 } }
    let S : Setting → Bool := fun s =>
      s ∈ [.appHost, .idleReleaseTimeoutMs, .matcher, .workers]
    let lookup : String → Option String := fun name => List.lookup name [
      ("PATH", "/usr/bin"),
      ("SCHEDULER_APP_HOST", "head node "),
      ("SCHEDULER_IDLE_RELEASE_TIMEOUT_MS", "60000"),
      ("SCHEDULER_MATCHER", "identity\n"),
      ("SCHEDULER_CALLBACK_WORKERS", " \t3 ")]
    c.fault? = none ∧ c.dispatcher.threadStackSize = standard.dispatcher.threadStackSize ∧
      c.GivenBy lookup S ∧ ofLookup lookup = .ok c := by
  intro c S lookup
  have hfault : c.fault? = none := by decide +kernel
  have hgiven : c.GivenBy lookup S := by
    intro s name hname
    cases s <;> cases hname
    case appHost => exact ⟨_, rfl, rfl⟩
    case idleReleaseTimeoutMs => exact ⟨_, rfl, Text.padded_refl _⟩
    case matcher => exact ⟨_, rfl, [], ['\n'], rfl, rfl, by decide⟩
    case workers => exact ⟨_, rfl, [' ', '\t'], [' '], rfl, rfl, by decide⟩
    all_goals rfl
  have hkeeping : c.keeping S = c := by decide
  refine ⟨hfault, rfl, hgiven, (variables_read_back.2.1 lookup c S hfault rfl hgiven).trans ?_⟩
  rw [hkeeping]

end SchedulerConfig

end TaskFleet
