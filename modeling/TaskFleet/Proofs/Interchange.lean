import TaskFleet.Proofs.Matcher
import TaskFleet.Proofs.SortedMap

/-!
# The policies agree with themselves

A container goes from task to task, each time to one that it could run, and the fleet never
looks back at what the container was first made for.  That is right only if running is
transitive; and a container that is as good as made for a request must be as good as one in
every other respect too.  `Matcher.Coherent` says what this takes of a policy, and the policies
that have a name meet it.

For the policy that compares launch specifications a second argument runs the other way.  To
be at least as large and to hold every row of a table are orders, so two specifications that
are above each other are one (`LaunchSpec.eq_of_above`).
-/

namespace TaskFleet

/-! ## The order of allotments -/

namespace Resource

theorem covers_refl (r : Resource) : r.covers r = true :=
  covers_iff.mpr ⟨UInt64.le_refl _, UInt32.le_refl _⟩

theorem covers_trans {r s t : Resource} (hrs : r.covers s = true) (hst : s.covers t = true) :
    r.covers t = true := by
  obtain ⟨hmemory, hcores⟩ := covers_iff.mp hrs
  obtain ⟨hmemory', hcores'⟩ := covers_iff.mp hst
  exact covers_iff.mpr ⟨UInt64.le_trans hmemory' hmemory, UInt32.le_trans hcores' hcores⟩

theorem covers_antisymm {r s : Resource} (hrs : r.covers s = true) (hsr : s.covers r = true) :
    r = s := by
  obtain ⟨hmemory, hcores⟩ := covers_iff.mp hrs
  obtain ⟨hmemory', hcores'⟩ := covers_iff.mp hsr
  exact Resource.ext (UInt64.le_antisymm hmemory' hmemory) (UInt32.le_antisymm hcores' hcores)

end Resource

/-! ## The order of tables -/

namespace Matcher

variable {m n p : SortedMap String String}

/-- A table holds every row of another if it answers whatever the other answers. -/
theorem containsAll_iff :
    containsAll m n = true ↔ ∀ k v, n.get? k = some v → m.get? k = some v := by
  simp only [containsAll, List.all_eq_true, decide_eq_true_eq, Prod.forall,
    SortedMap.mem_rows_iff]

theorem containsAll_refl (m : SortedMap String String) : containsAll m m = true :=
  containsAll_iff.mpr fun _ _ h => h

theorem containsAll_trans (hmn : containsAll m n = true) (hnp : containsAll n p = true) :
    containsAll m p = true := by
  rw [containsAll_iff] at *
  intro k v h
  exact hmn k v (hnp k v h)

/-- Two tables that hold each other's rows are one. -/
theorem containsAll_antisymm (hmn : containsAll m n = true) (hnm : containsAll n m = true) :
    m = n := by
  rw [containsAll_iff] at *
  refine SortedMap.eq_of_get? fun k => ?_
  cases hk : n.get? k with
  | some v => exact hmn k v hk
  | none =>
    cases hk' : m.get? k with
    | none => rfl
    | some v => rw [hnm k v hk'] at hk; cases hk

end Matcher

/-! ## The order of launch specifications -/

namespace LaunchSpec

/-- A container launched as `s` offers all that `t` names. -/
structure Above (s t : LaunchSpec) : Prop where
  resource : s.resource.covers t.resource = true
  files : Matcher.containsAll s.files t.files = true
  environment : Matcher.containsAll s.environment t.environment = true

variable {s t u : LaunchSpec}

theorem above_refl (s : LaunchSpec) : s.Above s where
  resource := s.resource.covers_refl
  files := Matcher.containsAll_refl s.files
  environment := Matcher.containsAll_refl s.environment

theorem Above.trans (hst : s.Above t) (htu : t.Above u) : s.Above u where
  resource := Resource.covers_trans hst.resource htu.resource
  files := Matcher.containsAll_trans hst.files htu.files
  environment := Matcher.containsAll_trans hst.environment htu.environment

theorem eq_of_above (hst : s.Above t) (hts : t.Above s) : s = t := by
  obtain ⟨resource, files, environment⟩ := s
  obtain ⟨resource', files', environment'⟩ := t
  obtain rfl : resource = resource' := Resource.covers_antisymm hst.resource hts.resource
  obtain rfl : files = files' := Matcher.containsAll_antisymm hst.files hts.files
  obtain rfl : environment = environment' :=
    Matcher.containsAll_antisymm hst.environment hts.environment
  rfl

end LaunchSpec

/-! ## Coherent policies -/

namespace Matcher

/-- What the fleet takes for granted of a policy: it answers for any two signatures that are
there, to run is reflexive and transitive, to be exact is an equivalence, and signatures that
are exact can run each other and stand for each other in every question of running. -/
structure Coherent (m : Matcher) : Prop where
  answers : m.Answers
  superset_refl : ∀ s, m.superset (some s) (some s) = .ok true
  superset_trans : ∀ s t u, m.superset (some s) (some t) = .ok true →
    m.superset (some t) (some u) = .ok true → m.superset (some s) (some u) = .ok true
  exact_equivalence : Equivalence fun s t => m.exact (some s) (some t) = .ok true
  superset_of_exact : ∀ s t, m.exact (some s) (some t) = .ok true →
    m.superset (some s) (some t) = .ok true ∧ m.superset (some t) (some s) = .ok true
  interchangeable : ∀ s t, m.exact (some s) (some t) = .ok true → ∀ u,
    m.superset (some s) (some u) = m.superset (some t) (some u) ∧
      m.superset (some u) (some s) = m.superset (some u) (some t)

/-- Of a policy that answers, two answers are equal if the one is a yes whenever the other is. -/
theorem Answers.superset_congr {m : Matcher} (hm : m.Answers) {s t s' t' : Signature}
    (h : m.superset (some s) (some t) = .ok true ↔ m.superset (some s') (some t') = .ok true) :
    m.superset (some s) (some t) = m.superset (some s') (some t') := by
  obtain ⟨answer, hanswer⟩ := (hm s t).1
  obtain ⟨answer', hanswer'⟩ := (hm s' t').1
  rw [hanswer, hanswer', Except.ok.injEq, Except.ok.injEq] at h
  rw [hanswer, hanswer', Bool.eq_iff_iff.mpr h]

/-- That exact signatures stand for each other follows from the other laws: what the one can
run or be run by, the other can by way of the one. -/
theorem coherent_of_laws {m : Matcher} (hanswers : m.Answers)
    (hrefl : ∀ s, m.superset (some s) (some s) = .ok true)
    (htrans : ∀ s t u, m.superset (some s) (some t) = .ok true →
      m.superset (some t) (some u) = .ok true → m.superset (some s) (some u) = .ok true)
    (hexact : Equivalence fun s t => m.exact (some s) (some t) = .ok true)
    (hsuperset : ∀ s t, m.exact (some s) (some t) = .ok true →
      m.superset (some s) (some t) = .ok true) : m.Coherent where
  answers := hanswers
  superset_refl := hrefl
  superset_trans := htrans
  exact_equivalence := hexact
  superset_of_exact s t h := ⟨hsuperset s t h, hsuperset t s (hexact.symm h)⟩
  interchangeable s t h u := by
    have hst := hsuperset s t h
    have hts := hsuperset t s (hexact.symm h)
    constructor
    · refine hanswers.superset_congr ⟨fun hsu => ?_, fun htu => ?_⟩
      · exact htrans t s u hts hsu
      · exact htrans s t u hst htu
    · refine hanswers.superset_congr ⟨fun hus => ?_, fun hut => ?_⟩
      · exact htrans u s t hus hst
      · exact htrans u t s hut hts

theorem exact_identity_iff {s t : Signature} :
    identity.exact (some s) (some t) = .ok true ↔ s = t := by
  simp only [identity, ofTests, comparing, Except.ok.injEq, Signature.sameInstance,
    decide_eq_true_eq]

theorem superset_launchContext_iff {s t : Signature} :
    launchContext.superset (some s) (some t) = .ok true ↔ s.spec.Above t.spec := by
  simp only [launchContext, ofTests, comparing, Except.ok.injEq, Bool.and_eq_true]
  constructor
  · rintro ⟨⟨hresource, hfiles⟩, henvironment⟩
    exact ⟨hresource, hfiles, henvironment⟩
  · intro h
    exact ⟨⟨h.resource, h.files⟩, h.environment⟩

/-- One instance has one specification, so only the specifications count. -/
theorem exact_launchContext_iff {s t : Signature} :
    launchContext.exact (some s) (some t) = .ok true ↔ s.spec = t.spec := by
  simp only [launchContext, ofTests, comparing, Except.ok.injEq, Bool.or_eq_true,
    Signature.sameInstance, decide_eq_true_eq, or_iff_right_iff_imp]
  exact fun h => congrArg Signature.spec h

end Matcher

theorem MatcherKind.coherent (kind : MatcherKind) : kind.matcher.Coherent := by
  cases kind with
  | alwaysMatch =>
    refine Matcher.coherent_of_laws (MatcherKind.answers _) (fun _ => rfl) (fun _ _ _ _ _ => rfl)
      ⟨fun _ => rfl, fun _ => rfl, fun _ _ => rfl⟩ (fun _ _ _ => rfl)
  | identity =>
    refine Matcher.coherent_of_laws (MatcherKind.answers _) (fun _ => rfl) (fun _ _ _ _ _ => rfl)
      ?_ (fun _ _ _ => rfl)
    simp only [MatcherKind.matcher, Matcher.exact_identity_iff]
    exact ⟨Eq.refl, Eq.symm, Eq.trans⟩
  | launchContext =>
    refine Matcher.coherent_of_laws (MatcherKind.answers _) ?_ ?_ ?_ ?_ <;>
      simp only [MatcherKind.matcher, Matcher.superset_launchContext_iff,
        Matcher.exact_launchContext_iff]
    · exact fun s => s.spec.above_refl
    · exact fun _ _ _ hst htu => hst.trans htu
    · exact ⟨fun _ => rfl, Eq.symm, Eq.trans⟩
    · intro s t h
      rw [h]
      exact t.spec.above_refl

/-- The policies that have a name are coherent, and where launch specifications are compared,
signatures that can run each other are exact: they were launched with the same things. -/
theorem policies_coherent : (∀ kind : MatcherKind, kind.matcher.Coherent) ∧
    ∀ s t : Signature, Matcher.launchContext.superset (some s) (some t) = .ok true →
      Matcher.launchContext.superset (some t) (some s) = .ok true →
      Matcher.launchContext.exact (some s) (some t) = .ok true ∧ s.spec = t.spec := by
  refine ⟨MatcherKind.coherent, fun s t hst hts => ?_⟩
  rw [Matcher.superset_launchContext_iff] at hst hts
  have hspec : s.spec = t.spec := LaunchSpec.eq_of_above hst hts
  exact ⟨Matcher.exact_launchContext_iff.mpr hspec, hspec⟩

/-- Two specifications that were put together in different orders are one. -/
theorem policies_coherent_two_instances :
    let s : Signature := ⟨0, ⟨⟨1024, 1⟩, .empty, .ofList [("HOME", "/"), ("MODE", "fast")]⟩⟩
    let t : Signature := ⟨1, ⟨⟨1024, 1⟩, .empty, .ofList [("MODE", "fast"), ("HOME", "/")]⟩⟩
    s ≠ t ∧ Matcher.launchContext.superset (some s) (some t) = .ok true ∧
      Matcher.launchContext.superset (some t) (some s) = .ok true ∧
      Matcher.launchContext.exact (some s) (some t) = .ok true ∧ s.spec = t.spec := by
  intro s t
  have hst : Matcher.launchContext.superset (some s) (some t) = .ok true := by rfl
  have hts : Matcher.launchContext.superset (some t) (some s) = .ok true := by rfl
  exact ⟨by decide, hst, hts, policies_coherent.2 s t hst hts⟩

end TaskFleet
