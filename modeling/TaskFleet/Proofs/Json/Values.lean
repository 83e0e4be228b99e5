import TaskFleet.Audit
import TaskFleet.Proofs.Json.Codec
import TaskFleet.Request
import TaskFleet.Scheduler.Snapshot

/-!
# What the fleet writes it can read

Every value that leaves the fleet as text comes back from the text: names and allotments, the
reports of the cluster, requests, launch specifications, the audit trail and the counters.

Texts may spell a value in other ways too, with the members of an object in another order or an
array in its place.  Such a text is read as some value, and the value has its own text; so
whatever was read once is read again after it was written (`RoundTrips.again`).
-/

namespace TaskFleet

/-! ## Names -/

instance : LawfulCodec TaskId where
  isLegal_encode t := isLegal_encode t.val
  decode?_encode t := by
    show (decode? (encode t.val)).map TaskId.mk = some t
    rw [decode?_encode, Option.map_some]

instance : LawfulCodec Cookie where
  isLegal_encode c := isLegal_encode c.val
  decode?_encode c := by
    show (decode? (encode c.val)).map Cookie.mk = some c
    rw [decode?_encode, Option.map_some]

instance : LawfulCodec ContainerId where
  isLegal_encode c := isLegal_encode c.text
  decode?_encode c := by
    show (decode? (encode c.text)).map ContainerId.mk = some c
    rw [decode?_encode, Option.map_some]

instance : LawfulCodec Priority where
  isLegal_encode p := isLegal_encode p.val
  decode?_encode p := by
    show (decode? (encode p.val)).map Priority.mk = some p
    rw [decode?_encode, Option.map_some]

instance : NeverNull TaskId := ⟨fun _ => Json.noConfusion⟩

instance : NeverNull Cookie := ⟨fun _ => Json.noConfusion⟩

instance : NeverNull ContainerId := ⟨fun _ => Json.noConfusion⟩

/-! ## Cases without content -/

instance : LawfulCodec NodeState where
  isLegal_encode s := Json.isLegal_string (some s.name)
  decode?_encode s := by cases s <;> rfl

instance : LawfulCodec ContainerState where
  isLegal_encode s := Json.isLegal_string (some s.name)
  decode?_encode s := by cases s <;> rfl

instance : LawfulCodec FinalStatus where
  isLegal_encode s := Json.isLegal_string (some s.name)
  decode?_encode s := by cases s <;> rfl

instance : LawfulCodec AuditAction where
  isLegal_encode a := Json.isLegal_string (some a.name)
  decode?_encode a := by cases a <;> rfl

/-- A place is written as its name, or as an object that gives its name to what it holds. -/
instance : LawfulCodec LocalityTier where
  isLegal_encode
    | .node host => Json.isLegal_record_iff.mpr (by simp)
    | .rack name => Json.isLegal_record_iff.mpr (by simp)
    | .any => Json.isLegal_string (some "any")
  decode?_encode
    | .node _ => rfl
    | .rack _ => rfl
    | .any => rfl

/-! ## Records -/

instance : LawfulCodec NodeId where
  isLegal_encode n := Json.isLegal_record_iff.mpr (by simp)
  decode?_encode n := by
    refine (Json.bind_fields?_record _ (by simp) _).trans ?_
    simp [required?]

instance : LawfulCodec Resource where
  isLegal_encode r := Json.isLegal_record_iff.mpr (by simp)
  decode?_encode r := by
    refine (Json.bind_fields?_record _ (by simp) _).trans ?_
    simp [required?]

instance : NeverNull Resource := ⟨fun _ => Json.noConfusion⟩

instance : LawfulCodec NodeReport where
  isLegal_encode r := Json.isLegal_record_iff.mpr (by simp)
  decode?_encode r := by
    refine (Json.bind_fields?_record _ (by simp) _).trans ?_
    simp [required?]

instance : LawfulCodec ContainerStatus where
  isLegal_encode s := Json.isLegal_record_iff.mpr (by simp)
  decode?_encode s := by
    refine (Json.bind_fields?_record _ (by simp) _).trans ?_
    simp [required?]

instance : LawfulCodec AppFinalStatus where
  isLegal_encode s := Json.isLegal_record_iff.mpr (by simp)
  decode?_encode s := by
    refine (Json.bind_fields?_record _ (by simp) _).trans ?_
    simp [required?]

instance : LawfulCodec LaunchSpec where
  isLegal_encode s := Json.isLegal_record_iff.mpr (by simp)
  decode?_encode s := by
    refine (Json.bind_fields?_record _ (by simp) _).trans ?_
    simp [required?]

instance : LawfulCodec Locality where
  isLegal_encode l := Json.isLegal_record_iff.mpr (by simp)
  decode?_encode l := by
    refine (Json.bind_fields?_record _ (by simp) _).trans ?_
    simp [required?]

instance : LawfulCodec ContainerRequest where
  isLegal_encode r := Json.isLegal_record_iff.mpr (by simp)
  decode?_encode r := by
    refine (Json.bind_fields?_record _ (by simp) _).trans ?_
    simp [required?]

instance : LawfulCodec AuditEvent where
  isLegal_encode e := Json.isLegal_record_iff.mpr (by simp)
  decode?_encode e := by
    refine (Json.bind_fields?_record _ (by simp) _).trans ?_
    simp [required?, optional?]

instance : LawfulCodec DispatcherStats where
  isLegal_encode s := Json.isLegal_record_iff.mpr (by simp)
  decode?_encode s := by
    refine (Json.bind_fields?_record _ (by simp) _).trans ?_
    simp [required?]

instance : LawfulCodec SchedulerSnapshot where
  isLegal_encode s := Json.isLegal_record_iff.mpr (by simp)
  decode?_encode s := by
    refine (Json.bind_fields?_record _ (by simp) _).trans ?_
    simp [required?, optional?]

/-! ## Texts -/

/-- The text of a value spells the value's document and is read as the value; and what any text
was read as, however it was spelled, is read again from its own text. -/
structure RoundTrips (α : Type) [Codec α] : Prop where
  spelled : ∀ a : α, Json.parse? (toJsonText a) = some (encode a)
  readBack : ∀ a : α, ofJsonText? α (toJsonText a) = some a
  again : ∀ (text : String) (a : α), ofJsonText? α text = some a →
    ofJsonText? α (toJsonText a) = some a

theorem LawfulCodec.roundTrips (α : Type) [Codec α] [LawfulCodec α] : RoundTrips α where
  spelled a := Json.parse?_toText (isLegal_encode a)
  readBack := ofJsonText?_toJsonText
  again _ a _ := ofJsonText?_toJsonText a

/-- All that the fleet writes is read back as it was. -/
theorem texts_read_back :
    RoundTrips Resource ∧ RoundTrips NodeId ∧ RoundTrips NodeReport ∧
    RoundTrips ContainerStatus ∧ RoundTrips Locality ∧ RoundTrips LocalityTier ∧
    RoundTrips ContainerRequest ∧ RoundTrips LaunchSpec ∧ RoundTrips AuditEvent ∧
    RoundTrips AppFinalStatus ∧ RoundTrips DispatcherStats ∧ RoundTrips SchedulerSnapshot := by
  refine ⟨?_, ?_, ?_, ?_, ?_, ?_, ?_, ?_, ?_, ?_, ?_, ?_⟩
  all_goals exact LawfulCodec.roundTrips _

end TaskFleet
