import TaskFleet.Container

/-!
# Policies that answer

A policy may fail to compare two signatures.  The policies that a configuration can name
fail only when a signature is absent, and those of held containers and of requests never
are; so among the fleet's own policies a comparison is a yes or a no (`Matcher.serves`).
-/

namespace TaskFleet

namespace Matcher

/-- The policy compares any two signatures that are there. -/
def Answers (m : Matcher) : Prop :=
  ∀ s t : Signature, (∃ answer, m.superset (some s) (some t) = .ok answer) ∧
    ∃ answer, m.exact (some s) (some t) = .ok answer

/-- The policy lets a held container run a request. -/
def serves (m : Matcher) (h : Holding) (request : TaskRequest) : Bool :=
  decide ((m.superset (some h.signature) (some request.signature)).toOption = some true)

/-- A held container is as good as made for a request. -/
def suits (m : Matcher) (h : Holding) (request : TaskRequest) : Bool :=
  decide ((m.exact (some h.signature) (some request.signature)).toOption = some true)

variable {m : Matcher} {h : Holding} {request : TaskRequest}

theorem serves_iff :
    m.serves h request = true ↔
      m.superset (some h.signature) (some request.signature) = .ok true := by
  rw [serves, decide_eq_true_iff]
  cases m.superset (some h.signature) (some request.signature) <;> simp [Except.toOption]

theorem Answers.superset (hm : m.Answers) (h : Holding) (request : TaskRequest) :
    m.superset (some h.signature) (some request.signature) = .ok (m.serves h request) := by
  obtain ⟨answer, hanswer⟩ := (hm h.signature request.signature).1
  cases answer <;> simp [serves, hanswer, Except.toOption]

theorem Answers.exact (hm : m.Answers) (h : Holding) (request : TaskRequest) :
    m.exact (some h.signature) (some request.signature) = .ok (m.suits h request) := by
  obtain ⟨answer, hanswer⟩ := (hm h.signature request.signature).2
  cases answer <;> simp [suits, hanswer, Except.toOption]

end Matcher

/-- Every policy that has a name answers. -/
theorem MatcherKind.answers (kind : MatcherKind) : kind.matcher.Answers := by
  intro s t
  cases kind <;> exact ⟨⟨_, rfl⟩, _, rfl⟩

end TaskFleet
