import TaskFleet.Proofs.Config.Settings
import TaskFleet.Proofs.Json.Codec

/-!
# Configurations as JSON texts

An object that names some settings describes the configuration that has those settings and the
defaults elsewhere, whatever the order of its members and whatever else it holds.  The settings
of the dispatcher are written in a section of their own, and the section may be written in part
as well: a default is filled in where the setting would stand, so a section that is there does
not disturb the settings it leaves out (`decode?_of_described`).

What was read is then checked as a whole.  So the text decides which settings are given, and
the configuration they make decides whether the text is accepted.
-/

namespace TaskFleet

instance : LawfulCodec MatcherKind where
  isLegal_encode k := Json.isLegal_string (some k.name)
  decode?_encode k := by cases k <;> rfl

/-! ## How settings are written -/

namespace Setting

/-- The name under which a setting is written. -/
def name : Setting → String
  | appHost => "app_host"
  | appPort => "app_port"
  | trackingUrl => "tracking_url"
  | reuseEnabled => "reuse_enabled"
  | preemptionEnabled => "preemption_enabled"
  | idleReleaseTimeoutMs => "idle_release_timeout_ms"
  | idleCheckIntervalMs => "idle_check_interval_ms"
  | releaseCompletionTimeoutMs => "release_completion_timeout_ms"
  | eventQueueDepth => "event_queue_depth"
  | matcher => "matcher"
  | workers => "workers"
  | queueDepth => "queue_depth"
  | drainTimeoutMs => "drain_timeout_ms"
  | enqueueTimeoutMs => "enqueue_timeout_ms"
  | callTimeoutMs => "call_timeout_ms"
  | threadStackSize => "thread_stack_size"

/-- The document of a setting of `c`. -/
def document (c : SchedulerConfig) : Setting → Json
  | appHost => encode c.appHost
  | appPort => encode c.appPort
  | trackingUrl => encode c.trackingUrl
  | reuseEnabled => encode c.reuseEnabled
  | preemptionEnabled => encode c.preemptionEnabled
  | idleReleaseTimeoutMs => encode c.idleReleaseTimeoutMs
  | idleCheckIntervalMs => encode c.idleCheckIntervalMs
  | releaseCompletionTimeoutMs => encode c.releaseCompletionTimeoutMs
  | eventQueueDepth => encode c.eventQueueDepth
  | matcher => encode c.matcher
  | workers => encode c.dispatcher.workers
  | queueDepth => encode c.dispatcher.queueDepth
  | drainTimeoutMs => encode c.dispatcher.drainTimeoutMs
  | enqueueTimeoutMs => encode c.dispatcher.enqueueTimeoutMs
  | callTimeoutMs => encode c.dispatcher.callTimeoutMs
  | threadStackSize => encode c.dispatcher.threadStackSize

/-- The field of a setting, which has a document if the setting is in `S`. -/
def field (c : SchedulerConfig) (S : Setting → Bool) (s : Setting) : String × Option Json :=
  (s.name, if S s then some (s.document c) else none)

/-- The fields of a dispatcher section that gives the settings in `S`. -/
def innerFields (c : SchedulerConfig) (S : Setting → Bool) : List (String × Option Json) :=
  inner.map (field c S)

/-- The fields of a configuration that gives the settings in `S`, perhaps with a section. -/
def outerFields (c : SchedulerConfig) (S : Setting → Bool) (inside? : Option Json) :
    List (String × Option Json) :=
  outer.map (field c S) ++ [("dispatcher", inside?)]

theorem nodup_innerFields (c : SchedulerConfig) (S : Setting → Bool) :
    ((innerFields c S).map Prod.fst).Nodup := by
  show (inner.map name).Nodup
  decide

theorem nodup_outerFields (c : SchedulerConfig) (S : Setting → Bool) (inside? : Option Json) :
    ((outerFields c S inside?).map Prod.fst).Nodup := by
  show (outer.map name ++ ["dispatcher"]).Nodup
  decide

end Setting

/-- The members of an object give the settings in `S` the values that they have in `c`, and no
others: those of the configuration itself by their names, and those of the dispatcher in a
section, which need not be there if it would give none.  Members with other names may stand
anywhere, in the section too. -/
inductive SchedulerConfig.Described (S : Setting → Bool) (c : SchedulerConfig) :
    List (Option String × Json) → Prop
  | plain {members : List (Option String × Json)} :
      (∀ s ∈ Setting.inner, S s = false) →
      Json.Writes (Setting.outerFields c S none) members → Described S c members
  | sectioned {inside members : List (Option String × Json)} :
      Json.Writes (Setting.innerFields c S) inside →
      Json.Writes (Setting.outerFields c S (some (.object inside))) members →
      Described S c members

/-! ## Reading settings -/

/-- A field that is written in some case has its value in that case and its default otherwise. -/
@[simp] theorem defaulted?_ite {α : Type} [Codec α] [LawfulCodec α] (default a : α) (b : Bool) :
    defaulted? default (if b then some (encode a) else none) =
      some (if b then a else default) := by
  cases b with
  | false => rfl
  | true => exact decode?_encode a

theorem DispatcherConfig.decode?_of_writes {S : Setting → Bool} {c : SchedulerConfig}
    {inside : List (Option String × Json)} (h : Json.Writes (Setting.innerFields c S) inside) :
    decode? (.object inside) = some (c.dispatcher.keeping S) := by
  refine (Json.bind_fields?_of_writes h (Setting.nodup_innerFields c S) true _).trans ?_
  simp [Setting.innerFields, Setting.inner, Setting.field, Setting.document, keeping]

/-- A section that is read as the dispatcher's settings completes the settings beside it. -/
theorem SchedulerConfig.decode?_of_writes {S : Setting → Bool} {c : SchedulerConfig}
    {inside? : Option Json} {members : List (Option String × Json)}
    (h : Json.Writes (Setting.outerFields c S inside?) members)
    (hinside : defaulted? standard.dispatcher inside? = some (c.dispatcher.keeping S)) :
    decode? (.object members) = some (c.keeping S) := by
  refine (Json.bind_fields?_of_writes h (Setting.nodup_outerFields c S inside?) true _).trans ?_
  simp [Setting.outerFields, Setting.outer, Setting.field, Setting.document, keeping, hinside]

theorem SchedulerConfig.decode?_of_described {S : Setting → Bool} {c : SchedulerConfig}
    {members : List (Option String × Json)} (h : c.Described S members) :
    decode? (.object members) = some (c.keeping S) := by
  cases h with
  | plain hnone hmembers =>
    refine decode?_of_writes hmembers ?_
    rw [defaulted?, c.dispatcher.keeping_none hnone]
    rfl
  | sectioned hinside hmembers =>
    exact decode?_of_writes hmembers (DispatcherConfig.decode?_of_writes hinside)

instance : LawfulCodec DispatcherConfig where
  isLegal_encode c := Json.isLegal_record_iff.mpr (by simp)
  decode?_encode c := by
    refine (Json.bind_fields?_record _ (by simp) _).trans ?_
    simp [defaulted?]

instance : LawfulCodec SchedulerConfig where
  isLegal_encode c := Json.isLegal_record_iff.mpr (by simp)
  decode?_encode c := by
    refine (Json.bind_fields?_record _ (by simp) _).trans ?_
    simp [defaulted?]

/-! ## Reading texts -/

namespace SchedulerConfig

theorem ofJsonText_eq {text : String} {c : SchedulerConfig}
    (h : ofJsonText? SchedulerConfig text = some c) :
    ofJsonText text = match c.fault? with
      | none => .ok c
      | some fault => .error (.invalid fault) := by
  rw [ofJsonText, h]
  exact mapError_validated ConfigTextError.invalid c

theorem fault?_of_ofJsonText {text : String} {c : SchedulerConfig} (h : ofJsonText text = .ok c) :
    c.fault? = none := by
  rw [ofJsonText] at h
  split at h
  · cases h
  · exact fault?_of_mapError_validated h

/-- A text that is an object of some settings stands for these settings over the defaults: it is
accepted as that configuration if it has no fault, and else refused for its fault.  Every object
has such a text, its own.  So a configuration without fault is read back from its text, and what
is accepted has no fault, in its dispatcher section neither. -/
theorem text_over_defaults :
    (∀ (c : SchedulerConfig) (S : Setting → Bool) (members : List (Option String × Json))
      (text : String), c.Described S members → Json.parse? text = some (.object members) →
      ofJsonText text = match (c.keeping S).fault? with
        | none => .ok (c.keeping S)
        | some fault => .error (.invalid fault)) ∧
    (∀ members : List (Option String × Json), (∀ m ∈ members, m.2.IsLegal) →
      Json.parse? (Json.object members).toText = some (.object members)) ∧
    (∀ c : SchedulerConfig, c.fault? = none → ofJsonText (toJsonText c) = .ok c) ∧
    (∀ (text : String) (c : SchedulerConfig), ofJsonText text = .ok c →
      c.fault? = none ∧ c.dispatcher.fault? = none) := by
  refine ⟨fun c S members text hmembers htext => ?_, fun members hlegal => ?_,
    fun c hfault => ?_, fun text c h => ?_⟩
  · refine ofJsonText_eq ?_
    rw [ofJsonText?, htext, Option.bind_some, decode?_of_described hmembers]
  · exact Json.parse?_toText (Json.isLegal_object_iff.mpr hlegal)
  · rw [ofJsonText_eq (ofJsonText?_toJsonText c), hfault]
  · have hfault := fault?_of_ofJsonText h
    exact ⟨hfault, (fault?_eq_none_iff.mp hfault).2.2.2.2.2⟩

/-- A section that names the workers alone, behind a member that no configuration knows. -/
theorem text_over_defaults_section :
    let c : SchedulerConfig := { dispatcher := { workers := 4 }, matcher := .launchContext }
    let S : Setting → Bool := fun s => s = .matcher || s = .workers
    let inside : List (Option String × Json) := [
      (some "workers", .number false 4 []), (some "lanes", .null)]
    let members : List (Option String × Json) := [
      (some "share", .number false 0 ['.', '5']), (some "dispatcher", .object inside),
      (some "matcher", .string (some "launch_context"))]
    let text := "\x7b \"share\": 0.5, \"dispatcher\": \x7b\"workers\": 4, \"lanes\": null\x7d,\n" ++
      "  \"matcher\": \"launch_context\" \x7d"
    c.Described S members ∧ Json.parse? text = some (.object members) ∧
      ofJsonText text = .ok c := by
  intro c S inside members text
  have hinside : Json.Writes (Setting.innerFields c S) inside := by
    refine ⟨by decide, .of_eq ?_⟩
    rfl
  have hmembers : Json.Writes (Setting.outerFields c S (some (.object inside))) members := by
    refine ⟨by decide, .trans (.swap ..) (.of_eq ?_)⟩
    rfl
  have htokens : Json.tokens? text.toList = some (Json.object members).tokens := by decide +kernel
  have htext : Json.parse? text = some (.object members) := by
    rw [Json.parse?, htokens, Option.bind_some, Json.ofTokens?_tokens]
  have hdescribed : c.Described S members := .sectioned hinside hmembers
  have hkeeping : c.keeping S = c := by decide
  have hfault : c.fault? = none := by decide +kernel
  refine ⟨hdescribed, htext, (text_over_defaults.1 c S members text hdescribed htext).trans ?_⟩
  rw [hkeeping, hfault]

end SchedulerConfig

end TaskFleet
