import TaskFleet.Proofs.Ledger.Raw

/-!
# When an operation is refused, and why

`Admits` says of each operation what it takes to go through, and `Obstacle` for which cause it
is refused; both read nothing but the state and the container of a request and the use of a
container.  An obstacle further down the list of checks counts only where those before it are
cleared, so an operation meets at most one.  The two are exhaustive (`admits_or_obstacle`), and
what the operations answer is one or the other.

Two of the operations do not check what they are meant to check.  An idle container is handed
to any request that has no container, whatever its state; and after the same check a granted
container asks for the state once more, which can only agree (`Phase.isOutstanding_iff`).
-/

namespace TaskFleet

/-- The cause for which something is refused. -/
def causeOf {ε α : Type} : Except ε α → Option ε
  | .ok _ => none
  | .error cause => some cause

@[simp] theorem causeOf_ok {ε α : Type} (a : α) : causeOf (.ok a : Except ε α) = none := rfl

@[simp] theorem causeOf_error {ε α : Type} (cause : ε) :
    causeOf (.error cause : Except ε α) = some cause := rfl

namespace Ledger

/-- The cause for which an operation is refused. -/
def refusal? (l : Ledger) (op : Operation) : Option LedgerError :=
  causeOf (l.answer op)

/-- The request waits for a container. -/
def Waits (l : Ledger) (cookie : Cookie) : Prop :=
  l.state? cookie = some .pending ∨ l.state? cookie = some .requested

/-- What it takes for an operation to go through. -/
def Admits (l : Ledger) : Operation → Prop
  | .add _ => True
  | .markRequested cookie _ => l.state? cookie = some .pending
  | .remove _ cookie => l.state? cookie ≠ none
  | .allocate _ cookie container => l.Waits cookie ∧ l.holding? container.id = none
  | .assignIdle _ cookie id => (∃ since, l.assignment? id = some (.idle since)) ∧ l.Waits cookie
  | .beginRelease id => ∃ c, l.assignment? id = some (.active c)
  | .release id => l.assignment? id ≠ none ∧ ∀ task, l.assignment? id ≠ some (.released task)
  | .complete id => l.holding? id ≠ none

/-- Why an operation cannot go through: the first of its checks that fails. -/
inductive Obstacle (l : Ledger) : Operation → LedgerError → Prop
  | markUnknown {cookie asked} : l.state? cookie = none →
      Obstacle l (.markRequested cookie asked) (.unknownCookie cookie)
  | markNotPending {cookie asked state} : l.state? cookie = some state → state ≠ .pending →
      Obstacle l (.markRequested cookie asked) (.invalidTransition cookie state .requested)
  | removeUnknown {now cookie} : l.state? cookie = none →
      Obstacle l (.remove now cookie) (.unknownCookie cookie)
  | allocateHeld {now cookie container} : l.holding? container.id ≠ none →
      Obstacle l (.allocate now cookie container) (.duplicateContainer container.id)
  | allocateUnknown {now cookie container} : l.holding? container.id = none →
      l.state? cookie = none →
      Obstacle l (.allocate now cookie container) (.unknownCookie cookie)
  | allocateServed {now cookie container k} : l.holding? container.id = none →
      l.containerOf? cookie = some k →
      Obstacle l (.allocate now cookie container) (.alreadyAllocated cookie k)
  | assignUnheld {now cookie id} : l.holding? id = none →
      Obstacle l (.assignIdle now cookie id) (.unknownContainer id)
  | assignInUse {now cookie id use} : l.assignment? id = some use → use.isIdle = false →
      Obstacle l (.assignIdle now cookie id) (.notIdle id)
  | assignUnknown {now cookie id use} : l.assignment? id = some use → use.isIdle = true →
      l.state? cookie = none →
      Obstacle l (.assignIdle now cookie id) (.unknownCookie cookie)
  | assignServed {now cookie id use k} : l.assignment? id = some use → use.isIdle = true →
      l.containerOf? cookie = some k →
      Obstacle l (.assignIdle now cookie id) (.alreadyAllocated cookie k)
  | beginUnheld {id} : l.holding? id = none →
      Obstacle l (.beginRelease id) (.unknownContainer id)
  | beginNotActive {id use} : l.assignment? id = some use → (∀ c, use ≠ .active c) →
      Obstacle l (.beginRelease id) (.notActive id)
  | releaseUnheld {id} : l.holding? id = none →
      Obstacle l (.release id) (.unknownContainer id)
  | releaseAgain {id task} : l.assignment? id = some (.released task) →
      Obstacle l (.release id) (.alreadyReleased id)
  | completeUnheld {id} : l.holding? id = none →
      Obstacle l (.complete id) (.unknownContainer id)

variable {l : Ledger} {op : Operation} {cause : LedgerError} {cookie : Cookie}
  {id k : ContainerId} {state : RequestState} {use : Assignment}

/-! ## What the checks read -/

theorem state?_eq_none_iff : l.state? cookie = none ↔ l.entries.get? cookie = none := by
  simp [state?]

theorem state?_eq_some_iff : l.state? cookie = some state ↔
    ∃ entry, l.entries.get? cookie = some entry ∧ entry.phase.state = state := by
  simp [state?]

theorem containerOf?_eq_some_iff : l.containerOf? cookie = some k ↔
    ∃ entry, l.entries.get? cookie = some entry ∧ entry.phase.container? = some k := by
  simp [containerOf?, Option.bind_eq_some_iff]

theorem assignment?_eq_some_iff : l.assignment? id = some use ↔
    ∃ h, l.held.get? id = some h ∧ h.assignment = use := by
  simp [assignment?]

theorem waits_iff : l.Waits cookie ↔
    ∃ entry, l.entries.get? cookie = some entry ∧ entry.phase.container? = none := by
  have hphase : ∀ phase : Phase,
      phase.container? = none ↔ phase.state = .pending ∨ phase.state = .requested := by
    intro phase
    cases phase <;> simp [Phase.container?, Phase.state]
  simp only [Waits, state?_eq_some_iff, hphase, and_or_left, exists_or]

/-- A request is not on record, waits for a container, or has one. -/
theorem unknown_or_waits_or_served (l : Ledger) (cookie : Cookie) :
    l.state? cookie = none ∨ l.Waits cookie ∨ ∃ k, l.containerOf? cookie = some k := by
  rw [state?_eq_none_iff, waits_iff]
  simp only [containerOf?_eq_some_iff]
  cases hentry : l.entries.get? cookie with
  | none => exact .inl rfl
  | some entry =>
      right
      cases hcontainer : entry.phase.container? with
      | none => exact .inl ⟨entry, rfl, hcontainer⟩
      | some k => exact .inr ⟨k, entry, rfl, hcontainer⟩

/-- A container is not held, or it is held for something. -/
theorem unheld_or_used (l : Ledger) (id : ContainerId) :
    l.holding? id = none ∨ ∃ use, l.assignment? id = some use := by
  cases hheld : l.holding? id with
  | none => exact .inl rfl
  | some h => exact .inr ⟨h.assignment, assignment?_of_get? hheld⟩

/-! ## The answers -/

section Reply

variable {α : Type} {f : α → Answer} {result : Except LedgerError α × Ledger}

@[simp] theorem causeOf_reply : causeOf (reply f result).1 = causeOf result.1 := by
  obtain ⟨answer, l'⟩ := result
  cases answer <;> rfl

/-- What is not refused is answered. -/
theorem ok_of_causeOf (h : causeOf (reply f result).1 = none) : ∃ a l', result = (.ok a, l') := by
  obtain ⟨answer, l'⟩ := result
  cases answer with
  | error cause => cases h
  | ok a => exact ⟨a, l', rfl⟩

/-- What is refused changes nothing. -/
theorem eq_of_causeOf (hatomic : Atomic l result) (h : causeOf (reply f result).1 = some cause) :
    result = (.error cause, l) := by
  obtain ⟨answer, l'⟩ := result
  cases answer with
  | error cause' =>
      cases h
      rw [hatomic cause l' rfl]
  | ok a => cases h

end Reply

theorem Admits.refusal?_eq (h : l.Admits op) : l.refusal? op = none := by
  cases op with
  | add request => rfl
  | markRequested cookie asked =>
      obtain ⟨⟨request, phase⟩, hentry, hpending⟩ := state?_eq_some_iff.mp h
      obtain rfl : phase = .pending := by
        cases phase <;> first | rfl | cases hpending
      simp [refusal?, answer, perform, markRequested, hentry]
  | remove now cookie =>
      obtain ⟨entry, hentry⟩ := Option.ne_none_iff_exists'.mp (mt state?_eq_none_iff.mpr h)
      simp [refusal?, answer, perform, remove, hentry]
  | allocate now cookie container =>
      obtain ⟨entry, hentry, hfree⟩ := waits_iff.mp h.1
      have hunheld := l.held.contains_eq_false_iff.mpr h.2
      have houtstanding := entry.phase.isOutstanding_iff.mpr hfree
      simp [refusal?, answer, perform, allocate, hentry, hfree, hunheld, houtstanding]
  | assignIdle now cookie id =>
      obtain ⟨⟨since, huse⟩, hwaits⟩ := h
      obtain ⟨held, hheld, hidle⟩ := assignment?_eq_some_iff.mp huse
      obtain ⟨entry, hentry, hfree⟩ := waits_iff.mp hwaits
      simp [refusal?, answer, perform, assignIdle, hheld, Holding.isIdle, hidle,
        Assignment.isIdle, hentry, hfree]
  | beginRelease id =>
      obtain ⟨c, huse⟩ := h
      obtain ⟨held, hheld, hactive⟩ := assignment?_eq_some_iff.mp huse
      simp [refusal?, answer, perform, beginRelease, hheld, hactive]
  | release id =>
      obtain ⟨hheld, hnew⟩ := h
      obtain ⟨use, huse⟩ := Option.ne_none_iff_exists'.mp hheld
      obtain ⟨held, hheld, rfl⟩ := assignment?_eq_some_iff.mp huse
      cases hassignment : held.assignment with
      | released task => exact absurd (hassignment ▸ huse) (hnew task)
      | active _ | idle _ | beingReleased _ =>
          simp [refusal?, answer, perform, release, hheld, hassignment]
  | complete id =>
      obtain ⟨held, hheld⟩ := Option.ne_none_iff_exists'.mp h
      simp only [refusal?, answer, perform, complete, show l.held.get? id = some held from hheld]
      split <;> rfl

theorem Obstacle.refusal?_eq (h : l.Obstacle op cause) : l.refusal? op = some cause := by
  cases h with
  | markUnknown hnone =>
      rw [state?_eq_none_iff] at hnone
      simp [refusal?, answer, perform, markRequested, hnone]
  | markNotPending hstate hpending =>
      obtain ⟨⟨request, phase⟩, hentry, rfl⟩ := state?_eq_some_iff.mp hstate
      have hphase : phase ≠ .pending := by
        rintro rfl
        exact hpending rfl
      simp [refusal?, answer, perform, markRequested, hentry, hphase]
  | removeUnknown hnone =>
      rw [state?_eq_none_iff] at hnone
      simp [refusal?, answer, perform, remove, hnone]
  | @allocateHeld now cookie container hheld =>
      have hcontains : l.held.contains container.id = true := by
        rw [← Bool.not_eq_false, l.held.contains_eq_false_iff]
        exact hheld
      simp [refusal?, answer, perform, allocate, hcontains]
  | allocateUnknown hnew hnone =>
      rw [state?_eq_none_iff] at hnone
      have hunheld := l.held.contains_eq_false_iff.mpr hnew
      simp [refusal?, answer, perform, allocate, hunheld, hnone]
  | allocateServed hnew hserved =>
      obtain ⟨entry, hentry, hcontainer⟩ := containerOf?_eq_some_iff.mp hserved
      have hunheld := l.held.contains_eq_false_iff.mpr hnew
      simp [refusal?, answer, perform, allocate, hunheld, hentry, hcontainer]
  | @assignUnheld now cookie id hnone =>
      simp [refusal?, answer, perform, assignIdle, show l.held.get? id = none from hnone]
  | assignInUse huse hidle =>
      obtain ⟨held, hheld, rfl⟩ := assignment?_eq_some_iff.mp huse
      simp [refusal?, answer, perform, assignIdle, hheld, Holding.isIdle, hidle]
  | assignUnknown huse hidle hnone =>
      obtain ⟨held, hheld, rfl⟩ := assignment?_eq_some_iff.mp huse
      rw [state?_eq_none_iff] at hnone
      simp [refusal?, answer, perform, assignIdle, hheld, Holding.isIdle, hidle, hnone]
  | assignServed huse hidle hserved =>
      obtain ⟨held, hheld, rfl⟩ := assignment?_eq_some_iff.mp huse
      obtain ⟨entry, hentry, hcontainer⟩ := containerOf?_eq_some_iff.mp hserved
      simp [refusal?, answer, perform, assignIdle, hheld, Holding.isIdle, hidle, hentry, hcontainer]
  | @beginUnheld id hnone =>
      simp [refusal?, answer, perform, beginRelease, show l.held.get? id = none from hnone]
  | beginNotActive huse hactive =>
      obtain ⟨held, hheld, rfl⟩ := assignment?_eq_some_iff.mp huse
      simp [refusal?, answer, perform, beginRelease, hheld]
  | @releaseUnheld id hnone =>
      simp [refusal?, answer, perform, release, show l.held.get? id = none from hnone]
  | releaseAgain huse =>
      obtain ⟨held, hheld, hreleased⟩ := assignment?_eq_some_iff.mp huse
      simp [refusal?, answer, perform, release, hheld, hreleased]
  | @completeUnheld id hnone =>
      simp [refusal?, answer, perform, complete, show l.held.get? id = none from hnone]

theorem admits_or_obstacle (l : Ledger) (op : Operation) :
    l.Admits op ∨ ∃ cause, l.Obstacle op cause := by
  cases op with
  | add request => exact .inl trivial
  | markRequested cookie asked =>
      cases hstate : l.state? cookie with
      | none => exact .inr ⟨_, .markUnknown hstate⟩
      | some state =>
          by_cases hpending : state = .pending
          · subst hpending
            exact .inl hstate
          · exact .inr ⟨_, .markNotPending hstate hpending⟩
  | remove now cookie =>
      by_cases hstate : l.state? cookie = none
      · exact .inr ⟨_, .removeUnknown hstate⟩
      · exact .inl hstate
  | allocate now cookie container =>
      by_cases hheld : l.holding? container.id = none
      · rcases l.unknown_or_waits_or_served cookie with hnone | hwaits | ⟨k, hserved⟩
        · exact .inr ⟨_, .allocateUnknown hheld hnone⟩
        · exact .inl ⟨hwaits, hheld⟩
        · exact .inr ⟨_, .allocateServed hheld hserved⟩
      · exact .inr ⟨_, .allocateHeld hheld⟩
  | assignIdle now cookie id =>
      rcases l.unheld_or_used id with hnone | ⟨use, huse⟩
      · exact .inr ⟨_, .assignUnheld hnone⟩
      · cases hidle : use.isIdle with
        | false => exact .inr ⟨_, .assignInUse huse hidle⟩
        | true =>
            rcases l.unknown_or_waits_or_served cookie with hnone | hwaits | ⟨k, hserved⟩
            · exact .inr ⟨_, .assignUnknown huse hidle hnone⟩
            · refine .inl ⟨?_, hwaits⟩
              cases use with
              | idle since => exact ⟨since, huse⟩
              | active c | beingReleased c | released task => cases hidle
            · exact .inr ⟨_, .assignServed huse hidle hserved⟩
  | beginRelease id =>
      rcases l.unheld_or_used id with hnone | ⟨use, huse⟩
      · exact .inr ⟨_, .beginUnheld hnone⟩
      · by_cases hactive : ∃ c, use = .active c
        · obtain ⟨c, rfl⟩ := hactive
          exact .inl ⟨c, huse⟩
        · exact .inr ⟨_, .beginNotActive huse fun c hc => hactive ⟨c, hc⟩⟩
  | release id =>
      rcases l.unheld_or_used id with hnone | ⟨use, huse⟩
      · exact .inr ⟨_, .releaseUnheld hnone⟩
      · by_cases hreleased : ∃ task, use = .released task
        · obtain ⟨task, rfl⟩ := hreleased
          exact .inr ⟨_, .releaseAgain huse⟩
        · left
          refine ⟨huse ▸ Option.some_ne_none use, fun task htask => hreleased ⟨task, ?_⟩⟩
          exact Option.some.inj (huse.symm.trans htask)
  | complete id =>
      by_cases hheld : l.holding? id = none
      · exact .inr ⟨_, .completeUnheld hheld⟩
      · exact .inl hheld

theorem refusal?_eq_none_iff : l.refusal? op = none ↔ l.Admits op := by
  refine ⟨fun h => ?_, Admits.refusal?_eq⟩
  rcases l.admits_or_obstacle op with hadmits | ⟨cause, hobstacle⟩
  · exact hadmits
  · cases h.symm.trans hobstacle.refusal?_eq

theorem refusal?_eq_some_iff : l.refusal? op = some cause ↔ l.Obstacle op cause := by
  refine ⟨fun h => ?_, Obstacle.refusal?_eq⟩
  rcases l.admits_or_obstacle op with hadmits | ⟨cause', hobstacle⟩
  · cases h.symm.trans hadmits.refusal?_eq
  · have hsame : cause = cause' := Option.some.inj (h.symm.trans hobstacle.refusal?_eq)
    exact hsame ▸ hobstacle

/-- A refused operation leaves everything as it was. -/
theorem after_of_refused (h : l.refusal? op = some cause) : l.after op = l := by
  rcases l.refused_or_goes op with ⟨cause', -, hsame⟩ | hgoes
  · exact hsame
  · obtain ⟨a, hanswer⟩ := hgoes.answer
    rw [refusal?, hanswer] at h
    cases h

/-- Who is said to have a container already has it. -/
theorem Obstacle.containerOf?_eq {c : Cookie} (h : l.Obstacle op (.alreadyAllocated c k)) :
    l.containerOf? c = some k := by
  cases h with
  | allocateServed hnew hserved => exact hserved
  | assignServed huse hidle hserved => exact hserved

/-- An operation goes through exactly when what it takes is there.  Otherwise it answers the
first of its checks that fails, and nothing changes.  A grant is never refused for the state of
its request, and where a request is said to have a container already, the two own each
other.

The same goes for the fields: written one after the other they are left alone by a refusal,
whatever they held, and after any operations the answers to the next one and the fields that it
leaves are those of the ledger. -/
theorem refusals_exact (ops : List Operation) (op : Operation) :
    ((empty.run ops).refusal? op = none ↔ (empty.run ops).Admits op) ∧
    (∀ cause, (empty.run ops).refusal? op = some cause ↔
      (empty.run ops).Obstacle op cause) ∧
    ((empty.run ops).refusal? op ≠ none → (empty.run ops).after op = empty.run ops) ∧
    (∀ now cookie container c source target, op = .allocate now cookie container →
      (empty.run ops).refusal? op ≠ some (.invalidTransition c source target)) ∧
    (ops.countP Operation.isAdd < 2 ^ 64 - 1 → ∀ c k,
      (empty.run ops).refusal? op = some (.alreadyAllocated c k) →
      (empty.run ops).containerOf? c = some k ∧ (empty.run ops).ownerOf? k = some c) ∧
    (∀ (r : RawLedger) cause, (r.perform op).1 = .error cause → (r.perform op).2 = r) ∧
    (ops.countP Operation.isAdd < 2 ^ 64 - 1 → (RawLedger.empty.run ops).perform op =
      ((empty.run ops).answer op, ((empty.run ops).after op).raw)) := by
  refine ⟨refusal?_eq_none_iff, fun cause => refusal?_eq_some_iff, fun h => ?_, ?_, ?_,
    fun r cause h => ?_, fun hadds => ?_⟩
  · obtain ⟨cause, hcause⟩ := Option.ne_none_iff_exists'.mp h
    exact after_of_refused hcause
  · rintro now cookie container c source target rfl hrefused
    cases refusal?_eq_some_iff.mp hrefused
  · intro hadds c k hrefused
    have hserved := (refusal?_eq_some_iff.mp hrefused).containerOf?_eq
    exact ⟨hserved, ((coherent_run ops hadds).containerOf?_eq_iff c k).mp hserved⟩
  · exact r.atomic_perform op cause _ (Prod.ext h rfl)
  · rw [raw_run ops hadds, (coherent_run ops hadds).perform_raw]
    rfl

/-- A request that runs in one container is granted a second one. -/
theorem refusals_exact_served :
    let request : TaskRequest :=
      ⟨⟨7⟩, ⟨1024, 1⟩, ⟨5⟩, ⟨[], [], true⟩, ⟨0, ⟨⟨1024, 1⟩, .empty, .empty⟩⟩⟩
    let container (name : String) : Container :=
      ⟨⟨name⟩, ⟨"host1", 8041⟩, none, ⟨1024, 1⟩, ⟨5⟩, none, none⟩
    let ops : List Operation := [.add request, .markRequested ⟨1⟩ (request.tiers ⟨1⟩),
      .allocate .epoch ⟨1⟩ (container "c_1")]
    let op : Operation := .allocate .epoch ⟨1⟩ (container "c_2")
    (empty.run ops).refusal? op = some (.alreadyAllocated ⟨1⟩ ⟨"c_1"⟩) ∧
      (empty.run ops).after op = empty.run ops ∧
      (empty.run ops).ownerOf? ⟨"c_1"⟩ = some ⟨1⟩ ∧
      (RawLedger.empty.run ops).perform op =
        (.error (.alreadyAllocated ⟨1⟩ ⟨"c_1"⟩), (empty.run ops).raw) := by
  intro request container ops op
  obtain ⟨-, -, hkept, -, howner, -, hfields⟩ := refusals_exact ops op
  have hrefused : (empty.run ops).refusal? op = some (.alreadyAllocated ⟨1⟩ ⟨"c_1"⟩) := by
    decide
  have hadds : ops.countP Operation.isAdd < 2 ^ 64 - 1 := by decide
  have hsame : (empty.run ops).after op = empty.run ops := hkept (hrefused ▸ Option.some_ne_none _)
  refine ⟨hrefused, hsame, (howner hadds _ _ hrefused).2, ?_⟩
  rw [hfields hadds, hsame]
  rfl

end Ledger

end TaskFleet
