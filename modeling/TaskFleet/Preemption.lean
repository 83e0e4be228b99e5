import TaskFleet.Ledger.View

/-!
# Choosing containers for reuse and for preemption

`pickIdle?` chooses the idle container that fits a request best.  `planWithin` chooses
containers to take back so that a request fits into what is available: idle ones first,
then running ones whose request is less important.  Candidates are ranked once and the
plan is the shortest part of the ranking that is enough, or nothing if all of it is not.
-/

namespace TaskFleet

/-- The members that pass a test which may fail to answer; the first failure stands. -/
def keepWhere {ε α : Type} (test : α → Except ε Bool) : List α → Except ε (List α)
  | [] => .ok []
  | a :: as => do
    let keep ← test a
    let rest ← keepWhere test as
    return if keep then a :: rest else rest

/-! ## Reuse -/

/-- How well a container fits a capability: its memory and cores to spare, then its
name.  The least is the best. -/
abbrev Fit := (UInt64 × UInt32) × ContainerId

namespace Fit

/-- How well a holding fits a capability. -/
def of (capability : Resource) (h : Holding) : Fit :=
  (h.container.resource.slackOver capability, h.container.id)

/-- `a` is a strictly better fit than `b`. -/
def better (a b : Fit) : Bool :=
  decide (a.1.1 < b.1.1) ||
    (decide (a.1.1 = b.1.1) &&
      (decide (a.1.2 < b.1.2) || (decide (a.1.2 = b.1.2) && decide (a.2 < b.2))))

end Fit

/-- The better of two fits; of equal ones the first. -/
def betterFit (best : Option Fit) (fit : Fit) : Option Fit :=
  match best with
  | none => some fit
  | some current => if fit.better current then some fit else some current

/-- The idle container among `held` that serves `required` with the least to spare. -/
def pickIdle? (m : Matcher) (required : TaskRequest) (held : List Holding) :
    Except MatchError (Option ContainerId) := do
  let large := held.filter fun h => h.isIdle && h.container.resource.covers required.capability
  let fit ← keepWhere (fun h => m.superset (some h.signature) (some required.signature)) large
  return ((fit.map (Fit.of required.capability)).foldl betterFit none).map Prod.snd

/-! ## Preemption -/

/-- Containers to take back: idle ones, running ones, and the allotment this frees. -/
structure PreemptionPlan where
  releaseIdle : List ContainerId
  preemptActive : List ContainerId
  freed : Resource
deriving DecidableEq, Repr

namespace PreemptionPlan

/-- The plan that takes nothing back. -/
def nothing : PreemptionPlan := ⟨[], [], .zero⟩

/-- The plan takes nothing back. -/
def isEmpty (p : PreemptionPlan) : Bool :=
  p.releaseIdle.isEmpty && p.preemptActive.isEmpty

end PreemptionPlan

/-- A running container that may be taken from its request. -/
structure Victim where
  holding : Holding
  exact : Bool
  priority : Priority

namespace Victim

/-- `v` is taken no later than `w`: one that is not an exact match for its task first,
then the least important task, then the latest assignment, then by name. -/
def takenBefore (v w : Victim) : Bool :=
  if v.exact ≠ w.exact then w.exact
  else if v.priority ≠ w.priority then decide (w.priority.val < v.priority.val)
  else if v.holding.assignedAt ≠ w.holding.assignedAt then
    decide (w.holding.assignedAt.ms < v.holding.assignedAt.ms)
  else decide (¬ w.holding.container.id < v.holding.container.id)

end Victim

/-- The holdings that could be taken back for a request. -/
structure Candidates where
  idle : List Holding
  active : List Victim

namespace Candidates

/-- Whether one holding could be taken back for `pending`, and what as. -/
def consider (m : Matcher) (l : Ledger) (pending : TaskRequest) (h : Holding) :
    Except MatchError (Option (Holding ⊕ Victim)) :=
  match h.assignment with
  | .idle _ => do
    let serves ← m.superset (some h.signature) (some pending.signature)
    return if serves then some (.inl h) else none
  | .active cookie =>
    match l.lookup cookie with
    | .error _ => .ok none
    | .ok running =>
      if pending.priority.outranks running.priority then do
        let serves ← m.superset (some h.signature) (some pending.signature)
        if serves then
          let exact ← m.exact (some h.signature) (some running.signature)
          return some (.inr { holding := h, exact, priority := running.priority })
        else return none
      else .ok none
  | .beingReleased _ | .released _ => .ok none

/-- The holdings that could be taken back for `pending`, in the order of `held`. -/
def collect (m : Matcher) (l : Ledger) (pending : TaskRequest) :
    List Holding → Except MatchError Candidates
  | [] => .ok ⟨[], []⟩
  | h :: held => do
    let candidate ← consider m l pending h
    let rest ← collect m l pending held
    match candidate with
    | some (.inl h) => return { rest with idle := h :: rest.idle }
    | some (.inr v) => return { rest with active := v :: rest.active }
    | none => return rest

/-- The order in which idle containers are given back: the tightest fit first. -/
def idleRanking (capability : Resource) (c : Candidates) : List Holding :=
  c.idle.mergeSort fun a b => !(Fit.of capability b).better (Fit.of capability a)

/-- The order in which running containers are taken back. -/
def activeRanking (c : Candidates) : List Victim :=
  c.active.mergeSort Victim.takenBefore

end Candidates

/-- Take containers in order until what is freed covers the shortfall.  Answers what was
taken and what is then freed. -/
def takeUntilCovered (shortfall : Resource) (freed : Resource) :
    List Container → List ContainerId × Resource
  | [] => ([], freed)
  | c :: rest =>
    if freed.covers shortfall then ([], freed)
    else
      let (taken, total) := takeUntilCovered shortfall (freed + c.resource) rest
      (c.id :: taken, total)

/-- The containers to take back so that `pending` fits into `available` and what is
freed; nothing if it fits already or cannot be made to fit. -/
def planWithin (m : Matcher) (l : Ledger) (pending : TaskRequest) (available : Resource) :
    Except MatchError PreemptionPlan :=
  let shortfall := pending.capability - available
  if shortfall.isZero then .ok .nothing
  else do
    let candidates ← Candidates.collect m l pending l.holdings
    let idle := (candidates.idleRanking pending.capability).map Holding.container
    let active := candidates.activeRanking.map fun v => v.holding.container
    let (releaseIdle, freed) := takeUntilCovered shortfall .zero idle
    let (preemptActive, freed) := takeUntilCovered shortfall freed active
    return if freed.covers shortfall then ⟨releaseIdle, preemptActive, freed⟩ else .nothing

/-- The plan for `pending` when the cluster reports `headroom`: what is already on its
way back counts as available. -/
def planPreemption (m : Matcher) (l : Ledger) (pending : TaskRequest) (headroom : Resource) :
    Except MatchError PreemptionPlan :=
  planWithin m l pending (headroom + l.releasingResources)

end TaskFleet
