import Mathlib.Logic.Relation
import TaskFleet.Scheduler.Delivery
import TaskFleet.Proofs.Ledger.Operations
import TaskFleet.Proofs.Reuse

/-!
# One decision at a time

An operation of the scheduler may decide many things: a walk that takes containers back
decides once for each container, a list of grants once for each grant.  A `Decision` is
one of them, a single operation on the ledger together with the effects and the records
that come with it; its `Outcome` is all that changes.

Every operation but the issue of a cookie is a sequence of decisions (`Decisions`), so
what holds of each decision holds of every operation, and whatever a later proof needs to
know about a decision is a guard of its constructor.  An operation does not decide anything
whatever: `DecisionsAmong` names the kinds of its decisions by what they are recorded as.
-/

namespace TaskFleet

/-- All that a decision changes: the ledger, the completions that are awaited, and the
effects and records that it adds. -/
structure Outcome where
  ledger : Ledger
  awaiting : SortedMap ContainerId Instant
  effects : List Effect
  records : List AuditRecord

/-- What a decision is recorded as, if it is recorded. -/
def Outcome.action? (o : Outcome) : Option AuditAction :=
  o.records.head?.map AuditRecord.action

/-- The container that a decision is recorded for. -/
def Outcome.container? (o : Outcome) : Option ContainerId :=
  o.records.head?.bind AuditRecord.container

/-- The withdrawal of what the cluster was asked for, if it was asked. -/
def withdrawal (previous : RequestState) (cookie : Cookie) : List Effect :=
  if previous = .requested then [.call (.withdraw cookie)] else []

namespace Scheduler

/-- The scheduler after a decision. -/
def adopt (s : Scheduler) (o : Outcome) : Scheduler :=
  { s with
    ledger := o.ledger
    awaiting := o.awaiting
    pending := s.pending ++ o.effects
    trail := s.trail ++ o.records }

/-- The decisions that a scheduler can take. -/
inductive Decision (policy : Policy) (s : Scheduler) : Outcome → Prop
  /-- Ask the cluster on behalf of a recorded request. -/
  | ask {cookie : Cookie} {request : TaskRequest} {ledger : Ledger} (now : Instant)
      (hpending : s.ledger.entries.get? cookie = some ⟨request, .pending⟩)
      (hledger : s.ledger.markRequested cookie (request.tiers cookie) = (.ok (), ledger)) :
      Decision policy s {
        ledger
        awaiting := s.awaiting
        effects := (request.tiers cookie).map fun r => .call (.submit r)
        records := [⟨.requested, some cookie, some request.task, none,
          some s!"{(request.tiers cookie).length} tiers", now⟩] }
  /-- Hand an idle container to a waiting request that it serves. -/
  | hand {cookie : Cookie} {id : ContainerId} {request : TaskRequest} {h : Holding}
      {ledger : Ledger} {container : Container} {previous : RequestState} (now : Instant)
      (hrequest : s.ledger.lookup cookie = .ok request)
      (hheld : s.ledger.held.get? id = some h)
      (hlarge : h.container.resource.covers request.capability = true)
      (hserves : policy.matcher.superset (some h.signature) (some request.signature) = .ok true)
      (hledger : s.ledger.assignIdle now cookie id = (.ok (container, previous), ledger)) :
      Decision policy s {
        ledger
        awaiting := s.awaiting
        effects := withdrawal previous cookie ++
          [.notify (.taskAllocated request.task cookie container)]
        records := [⟨.reused, some cookie, some request.task, some container.id, none, now⟩] }
  /-- Give a granted container to the waiting request that it names or is meant for. -/
  | grant {cookie : Cookie} {container : Container} {request : TaskRequest} {h : Holding}
      {ledger : Ledger} {previous : RequestState} (now : Instant)
      (hwanted : (container.cookie <|> s.ledger.matchOutstanding container) = some cookie)
      (hrequest : s.ledger.lookup cookie = .ok request)
      (hledger : s.ledger.allocate now cookie container = (.ok previous, ledger))
      (hheld : ledger.holding? container.id = some h) :
      Decision policy s {
        ledger
        awaiting := s.awaiting
        effects := withdrawal previous cookie ++
          [.notify (.taskAllocated request.task cookie h.container)]
        records := [⟨.allocated, some cookie, some request.task, some container.id, none,
          now⟩] }
  /-- Withdraw a waiting request. -/
  | withdraw {cookie : Cookie} {ledger : Ledger} {removed : RemovedRequest} (now : Instant)
      (hwaiting : removed.previousState.isOutstanding = true)
      (hledger : s.ledger.remove now cookie = (.ok removed, ledger)) :
      Decision policy s {
        ledger
        awaiting := s.awaiting
        effects := withdrawal removed.previousState cookie
        records := [⟨.withdrawn, some cookie, some removed.request.task, none, none, now⟩] }
  /-- Keep the container of a finished task. -/
  | retire {cookie : Cookie} {id : ContainerId} {ledger : Ledger} {removed : RemovedRequest}
      (now : Instant) (hrunning : s.ledger.phase? cookie = some (.allocated id))
      (hledger : s.ledger.remove now cookie = (.ok removed, ledger)) :
      Decision policy s {
        ledger
        awaiting := s.awaiting
        effects := []
        records := [⟨.idled, some cookie, some removed.request.task, some id, none, now⟩] }
  /-- Give back a granted container that is not held. -/
  | turnAway {id : ContainerId} {action : AuditAction} (now : Instant)
      (cookie : Option Cookie) (detail : Option String)
      (hnew : s.ledger.held.get? id = none)
      (haction : action = .unsolicited ∨ action = .lateAllocation) :
      Decision policy s {
        ledger := s.ledger
        awaiting := s.awaiting.insert id now
        effects := [.call (.giveBack id)]
        records := [⟨action, cookie, none, some id, detail, now⟩] }
  /-- Announce to a running task that its container is taken away. -/
  | announce {id : ContainerId} {ledger : Ledger} {victim : Cookie} (now : Instant)
      (detail : Option String)
      (hledger : s.ledger.beginRelease id = (.ok victim, ledger)) :
      Decision policy s {
        ledger
        awaiting := s.awaiting
        effects := [.notify (.containerBeingReleased id)]
        records := [⟨.preempted, some victim,
          (ledger.lookup victim).toOption.map TaskRequest.task, some id, detail, now⟩] }
  /-- Give a held container back. -/
  | giveBack {id : ContainerId} {ledger : Ledger} {task : Option TaskId} (now : Instant)
      (reason : String) (hledger : s.ledger.release id = (.ok task, ledger)) :
      Decision policy s {
        ledger
        awaiting := s.awaiting
        effects := [.call (.giveBack id)]
        records := [⟨.released, none, task, some id, some reason, now⟩] }
  /-- A held container has finished. -/
  | complete {status : ContainerStatus} {ledger : Ledger} {done : CompletedContainer}
      (now : Instant) (hledger : s.ledger.complete status.container = (.ok done, ledger)) :
      Decision policy s {
        ledger
        awaiting := s.awaiting
        effects := [.notify (.containerCompleted done.task status)]
        records := [⟨.completed, done.cookie, done.task, some status.container,
          some s!"exit {status.exitStatus.toInt}", now⟩] }
  /-- A container that is not held has finished. -/
  | unawait {id : ContainerId} (hnew : s.ledger.held.get? id = none) :
      Decision policy s {
        ledger := s.ledger
        awaiting := s.awaiting.erase id
        effects := []
        records := [] }
  /-- Await old completions no longer. -/
  | forget (asOf : Instant) :
      Decision policy s {
        ledger := s.ledger
        awaiting := s.awaiting.filter fun _ at_ =>
          decide (asOf.since at_ < policy.config.releaseCompletionTimeoutMs.toNat)
        effects := []
        records := [] }
  /-- Pass on news that are about no container. -/
  | news (notice : Notice) (hnews : notice.container? = none) :
      Decision policy s {
        ledger := s.ledger
        awaiting := s.awaiting
        effects := [.notify notice]
        records := [] }

/-- From `s` the scheduler comes to `t` by decisions. -/
def Decisions (policy : Policy) (s t : Scheduler) : Prop :=
  Relation.ReflTransGen (fun s t => ∃ o, Decision policy s o ∧ t = s.adopt o) s t

namespace Decisions

variable {policy : Policy} {s t u : Scheduler}

theorem refl (s : Scheduler) : Decisions policy s s :=
  Relation.ReflTransGen.refl

theorem trans (h : Decisions policy s t) (h' : Decisions policy t u) : Decisions policy s u :=
  Relation.ReflTransGen.trans h h'

theorem of_decision {o : Outcome} (h : Decision policy s o) (ht : t = s.adopt o) :
    Decisions policy s t :=
  .single ⟨o, h, ht⟩

/-- What every decision keeps, decisions keep. -/
theorem keeps {P : Scheduler → Prop} (h : Decisions policy s t)
    (hstep : ∀ s o, Decision policy s o → P s → P (s.adopt o)) (hs : P s) : P t := by
  induction h with
  | refl => exact hs
  | tail _ hlast ih =>
      obtain ⟨o, ho, rfl⟩ := hlast
      exact hstep _ o ho ih

end Decisions

/-! ## Decisions of some kinds -/

/-- From `s` the scheduler comes to `t` by decisions that are recorded under `actions`;
`none` stands for decisions that leave no record. -/
def DecisionsAmong (policy : Policy) (actions : List (Option AuditAction)) (s t : Scheduler) :
    Prop :=
  Relation.ReflTransGen
    (fun s t => ∃ o, Decision policy s o ∧ o.action? ∈ actions ∧ t = s.adopt o) s t

namespace DecisionsAmong

variable {policy : Policy} {actions wider : List (Option AuditAction)} {s t u : Scheduler}

theorem refl (s : Scheduler) : DecisionsAmong policy actions s s :=
  Relation.ReflTransGen.refl

theorem trans (h : DecisionsAmong policy actions s t) (h' : DecisionsAmong policy actions t u) :
    DecisionsAmong policy actions s u :=
  Relation.ReflTransGen.trans h h'

theorem of_decision {o : Outcome} (h : Decision policy s o) (haction : o.action? ∈ actions)
    (ht : t = s.adopt o) : DecisionsAmong policy actions s t :=
  .single ⟨o, h, haction, ht⟩

/-- What every decision of these kinds keeps, the decisions keep. -/
theorem keeps {P : Scheduler → Prop} (h : DecisionsAmong policy actions s t)
    (hstep : ∀ s o, Decision policy s o → o.action? ∈ actions → P s → P (s.adopt o))
    (hs : P s) : P t := by
  induction h with
  | refl => exact hs
  | tail _ hlast ih =>
      obtain ⟨o, ho, haction, rfl⟩ := hlast
      exact hstep _ o ho haction ih

theorem mono (h : DecisionsAmong policy actions s t) (hsub : actions ⊆ wider) :
    DecisionsAmong policy wider s t :=
  h.keeps (fun _ _ ho haction hs => hs.trans (of_decision ho (hsub haction) rfl)) (refl s)

theorem decisions (h : DecisionsAmong policy actions s t) : Decisions policy s t :=
  h.keeps (fun _ _ ho _ hs => hs.trans (.of_decision ho rfl)) (.refl s)

/-- A walk that decides for one thing after another decides. -/
theorem foldl {α : Type} {f : Scheduler → α → Scheduler}
    (hstep : ∀ s a, DecisionsAmong policy actions s (f s a)) (as : List α) (s : Scheduler) :
    DecisionsAmong policy actions s (as.foldl f s) := by
  induction as generalizing s with
  | nil => exact refl s
  | cons a as ih => exact (hstep s a).trans (ih (f s a))

end DecisionsAmong

end Scheduler

end TaskFleet
