import TaskFleet.Proofs.Fit
import TaskFleet.Proofs.Ledger.Refusals
import TaskFleet.Proofs.Scheduler.Draining
import TaskFleet.Proofs.Scheduler.Offer
import TaskFleet.Proofs.Scheduler.Stopped

/-!
# Operations that fail

Three operations of the application can fail: a request for a container, the word that a task
is done, and the return of a container.  Each fails for one cause, which is read off before
anything is written, and a scheduler whose operation fails is the scheduler that it was
(`Scheduler.FailsOnly`).

Two of them could also fail later, when a request is recorded already or has left the ledger.
`CarriesThrough` lists every answer that they wait for from there on, and says that none of them
is an error.  Some hold because of what was just written; that a container which was picked can
be handed over needs the tables of the ledger to agree, and that the matching policy answers
needs that it is only asked about signatures that are there.
-/

namespace TaskFleet

namespace Scheduler

variable {s : Scheduler} {cx : Context} {m : Matcher} {c : Cookie} {k : ContainerId}
  {α : Type} {answer : Except SchedulerError α × Scheduler} {why : SchedulerError → Prop}
  {cause : SchedulerError}

/-- An operation fails for these causes and no others, and then nothing has changed. -/
structure FailsOnly (s : Scheduler) (answer : Except SchedulerError α × Scheduler)
    (why : SchedulerError → Prop) : Prop where
  exact : ∀ cause, answer.1 = .error cause ↔ why cause
  clean : ∀ cause, answer.1 = .error cause → answer.2 = s

theorem FailsOnly.of_ok {a : α} (hanswer : answer.1 = .ok a) (hwhy : ∀ cause, ¬ why cause) :
    s.FailsOnly answer why := by
  refine ⟨fun cause => iff_of_false ?_ (hwhy cause), fun cause hcause => ?_⟩
  · rw [hanswer]
    exact nofun
  · cases hanswer.symm.trans hcause

theorem FailsOnly.of_error (hanswer : answer = (.error cause, s))
    (hwhy : ∀ cause', why cause' ↔ cause' = cause) : s.FailsOnly answer why := by
  subst hanswer
  refine ⟨fun cause' => ?_, fun _ _ => rfl⟩
  rw [hwhy, Except.error.injEq, eq_comm]

/-! ## Why an operation fails -/

/-- The request asks for more than the cluster can ever grant. -/
def AsksTooMuch (s : Scheduler) (request : TaskRequest) (cause : SchedulerError) : Prop :=
  ∃ max, s.maxCapability = some max ∧ max.covers request.capability = false ∧
    cause = .capabilityExceeded request.capability max

/-- There is no live request under the cookie. -/
def NamesNoTask (s : Scheduler) (c : Cookie) (cause : SchedulerError) : Prop :=
  s.ledger.state? c = none ∧ cause = .ledger (.unknownCookie c)

/-- The container is not held. -/
def NamesNoContainer (s : Scheduler) (k : ContainerId) (cause : SchedulerError) : Prop :=
  s.ledger.holding? k = none ∧ cause = .ledger (.unknownContainer k)

/-! ## What happens once the ledger has changed -/

/-- What was begun is carried through: every answer on which the rest of a request, or of the
end of a task, depends is there. -/
structure CarriesThrough (s : Scheduler) (cx : Context) : Prop where
  /-- A request that was just recorded is found, and can be submitted. -/
  found : ∀ request,
    (s.enter request).ledger.lookup ⟨s.ledger.nextCookie⟩ = .ok request
  submitted : ∀ request, ∃ l, (s.enter request).ledger.markRequested ⟨s.ledger.nextCookie⟩
    (request.tiers ⟨s.ledger.nextCookie⟩) = (.ok (), l)
  /-- Wherever the request leads, the walk that follows it ends well. -/
  walked : ∀ t : Scheduler, (t.preempt cx).1 = .ok ()
  /-- The idle container that was picked before can be handed to it. -/
  reused : ∀ request id, s.reusable? cx request = .ok (some id) →
    ∃ answer l, (s.enter request).ledger.assignIdle cx.now ⟨s.ledger.nextCookie⟩ id =
      (.ok answer, l)
  /-- A live request can be removed. -/
  removed : ∀ c, s.ledger.state? c ≠ none →
    ∃ answer l, s.ledger.remove cx.now c = (.ok answer, l)
  /-- A container that a task has left can be offered. -/
  offered : ∀ (t : Scheduler) id, (t.offerIdle cx id).1 = .ok ()
  /-- If somebody is found for it, it can be handed over. -/
  handed : ∀ c k l removed h row, s.ledger.phase? c = some (.allocated k) →
    s.ledger.remove cx.now c = (.ok removed, l) → l.holding? k = some h →
    firstServed? cx.policy.matcher h l.outstanding = .ok (some row) →
    ∃ answer l', l.assignIdle cx.now row.1 k = (.ok answer, l')

/-- A policy that answers lets every walk end well. -/
theorem claim_answers (hm : cx.policy.matcher.Answers) (s : Scheduler) (budget : Resource)
    (waiting : List (Cookie × TaskRequest)) : (s.claim cx budget waiting).1 = .ok () := by
  induction waiting generalizing s budget with
  | nil => rfl
  | cons row waiting ih =>
      obtain ⟨cookie, request⟩ := row
      cases hcovers : budget.covers request.capability with
      | true =>
          simp only [claim, hcovers, if_true]
          exact ih s _
      | false =>
          obtain ⟨plan, hplan⟩ :
              ∃ plan, planWithin cx.policy.matcher s.ledger request budget = .ok plan := by
            obtain ⟨_, _, _, _, _, _, _, _, _, hplan⟩ := planWithin_cut hm s.ledger hcovers
            exact ⟨_, hplan⟩
          simp only [claim, hcovers, Bool.false_eq_true, if_false, hplan]
          split
          · rfl
          · exact ih _ _

theorem preempt_answers (hm : cx.policy.matcher.Answers) (s : Scheduler) :
    (s.preempt cx).1 = .ok () := by
  unfold preempt
  split
  · rfl
  · exact claim_answers hm s _ _

theorem offerIdle_answers (hm : cx.policy.matcher.Answers) (s : Scheduler) (id : ContainerId) :
    (s.offerIdle cx id).1 = .ok () := by
  unfold offerIdle
  split
  · rfl
  · rw [firstServed?_eq_find? hm]
    split
    · next hfail => cases hfail
    · rfl
    · rfl

theorem reusable?_answers (hm : cx.policy.matcher.Answers) (s : Scheduler)
    (request : TaskRequest) : ∃ reusable, s.reusable? cx request = .ok reusable := by
  unfold reusable?
  split
  · exact ⟨_, pickIdle?_eq hm request s.ledger.holdings⟩
  · exact ⟨none, rfl⟩

theorem remove_answers (s : Scheduler) (now : Instant) (hlive : s.ledger.state? c ≠ none) :
    ∃ answer l, s.ledger.remove now c = (.ok answer, l) := by
  have hadmitted : s.ledger.refusal? (.remove now c) = none := Ledger.Admits.refusal?_eq hlive
  exact Ledger.ok_of_causeOf hadmitted

theorem carriesThrough (hm : cx.policy.matcher.Answers) (hl : s.ledger.Coherent) :
    s.CarriesThrough cx where
  found request := s.lookup_enter request
  submitted request := by
    have hpending : (s.enter request).ledger.state? ⟨s.ledger.nextCookie⟩ = some .pending := by
      simp [Ledger.state?, s.get?_enter request, Phase.state]
    have hadmitted : (s.enter request).ledger.refusal? (.markRequested ⟨s.ledger.nextCookie⟩
        (request.tiers ⟨s.ledger.nextCookie⟩)) = none :=
      Ledger.Admits.refusal?_eq hpending
    obtain ⟨_, l, hmarked⟩ := Ledger.ok_of_causeOf hadmitted
    exact ⟨l, hmarked⟩
  walked t := preempt_answers hm t
  reused request id hreuse := by
    obtain ⟨_, ledger, container, -, -, -, -, hledger, -⟩ :=
      place_some hl (pickIdle?_of_reusable? hreuse)
    exact ⟨_, ledger, hledger⟩
  removed c hlive := s.remove_answers cx.now hlive
  offered t id := offerIdle_answers hm t id
  handed c k l removed h row hrunning hremove hheld hfirst := by
    -- the container is idle because the task that ran in it has left
    obtain ⟨h', l', removed', -, hremove', -, -, hidle, -⟩ := hl.remove_running cx.now hrunning
    rw [hremove] at hremove'
    cases hremove'
    rw [Ledger.holding?, hidle] at hheld
    cases hheld
    exact assignIdle_of_waiting cx.now hidle rfl (firstServed?_sound hfirst).1

/-! ## The three operations -/

theorem request_failsOnly (hm : cx.policy.matcher.Answers) (hl : s.ledger.Coherent)
    (request : TaskRequest) : s.FailsOnly (s.request cx request) (s.AsksTooMuch request) := by
  cases hfilter : s.maxCapability.filter fun max => !max.covers request.capability with
  | some max =>
      obtain ⟨hmax, hcovers⟩ := Option.filter_eq_some_iff.mp hfilter
      rw [Bool.not_eq_true'] at hcovers
      have hfails : s.request cx request =
          (.error (.capabilityExceeded request.capability max), s) := by
        simp only [Scheduler.request, hfilter]
      refine .of_error hfails fun cause => ?_
      simp [AsksTooMuch, hmax, hcovers]
  | none =>
      have hfits : ∀ cause, ¬ s.AsksTooMuch request cause := by
        rintro cause ⟨max, hmax, hcovers, -⟩
        rw [Option.filter_eq_none_iff] at hfilter
        apply hfilter max hmax
        rw [hcovers]
        rfl
      obtain ⟨reusable, hreuse⟩ := reusable?_answers hm s request
      have hplace : s.request cx request =
          (s.enter request).place cx ⟨s.ledger.nextCookie⟩ request reusable := by
        simp only [Scheduler.request, hfilter, hreuse]
        rfl
      rw [hplace]
      cases reusable with
      | none => exact .of_ok (takenUp_place_none s cx request).cookie hfits
      | some id =>
          have htaken := takenUp_place_some hl (pickIdle?_of_reusable? hreuse)
          exact .of_ok htaken.cookie hfits

/-- The task of a live request can always be done. -/
theorem deallocateTask_live (hm : cx.policy.matcher.Answers) (succeeded : Bool)
    (hlive : s.ledger.state? c ≠ none) :
    ∃ container?, (s.deallocateTask cx c succeeded).1 = .ok container? := by
  obtain ⟨removed, l, hremove⟩ := s.remove_answers cx.now hlive
  have hwithdraw : (s.withdraw cx c).1 = .ok none := by
    simp only [withdraw, hremove]
  have hretain : ∀ id, (s.retain cx c id).1 = .ok (some id) := by
    intro id
    have hoffer := offerIdle_answers hm ({ s with ledger := l }.note cx.now .idled (some c)
      (some removed.request.task) (some id) none) id
    simp only [retain, hremove]
    split
    · next hanswer =>
      rw [hanswer] at hoffer
      cases hoffer
    · rfl
  obtain ⟨entry, hentry⟩ := Option.ne_none_iff_exists'.mp (mt Ledger.state?_eq_none_iff.mpr hlive)
  simp only [Scheduler.deallocateTask, hentry]
  split
  · exact ⟨_, hwithdraw⟩
  · exact ⟨_, hwithdraw⟩
  · next id _ =>
    split
    · exact ⟨_, hretain id⟩
    · exact ⟨_, rfl⟩
  · exact ⟨_, rfl⟩

theorem deallocateTask_failsOnly (hm : cx.policy.matcher.Answers) (c : Cookie)
    (succeeded : Bool) :
    s.FailsOnly (s.deallocateTask cx c succeeded) (s.NamesNoTask c) := by
  by_cases hlive : s.ledger.state? c = none
  · have hentry : s.ledger.entries.get? c = none := Ledger.state?_eq_none_iff.mp hlive
    have hfails : s.deallocateTask cx c succeeded =
        (.error (.ledger (.unknownCookie c)), s) := by
      simp only [Scheduler.deallocateTask, hentry]
    refine .of_error hfails fun cause => ?_
    simp [NamesNoTask, hlive]
  · obtain ⟨container?, hanswer⟩ := deallocateTask_live hm succeeded hlive
    exact .of_ok hanswer fun cause hcause => hlive hcause.1

theorem deallocateContainer_released {task : Option TaskId}
    (hreleased : s.ledger.assignment? k = some (.released task)) :
    s.deallocateContainer cx k = (.ok (), s) := by
  have hagain : s.ledger.release k = (.error (.alreadyReleased k), s.ledger) :=
    Ledger.eq_of_causeOf Ledger.atomic_release
      (Ledger.Obstacle.releaseAgain hreleased).refusal?_eq
  simp only [Scheduler.deallocateContainer, hagain]

/-- Giving a container back is refused if it is not held, and that is a failure, or if it was
given back before, and that is none. -/
theorem deallocateContainer_failsOnly (k : ContainerId) :
    s.FailsOnly (s.deallocateContainer cx k) (s.NamesNoContainer k) := by
  have hheld : s.ledger.assignment? k ≠ none → ∀ cause, ¬ s.NamesNoContainer k cause := by
    rintro huse cause ⟨hnone, -⟩
    exact huse (Option.map_eq_none_iff.mpr hnone)
  rcases s.ledger.admits_or_obstacle (.release k) with hadmits | ⟨cause, hobstacle⟩
  · obtain ⟨task, l, hrelease⟩ := Ledger.ok_of_causeOf hadmits.refusal?_eq
    have hanswer : (s.deallocateContainer cx k).1 = .ok () := by
      simp only [Scheduler.deallocateContainer, hrelease]
    exact .of_ok hanswer (hheld hadmits.1)
  · have hrelease := Ledger.eq_of_causeOf Ledger.atomic_release hobstacle.refusal?_eq
    cases hobstacle with
    | releaseUnheld hnone =>
        have hfails : s.deallocateContainer cx k =
            (.error (.ledger (.unknownContainer k)), s) := by
          simp only [Scheduler.deallocateContainer, hrelease]
        refine .of_error hfails fun cause => ?_
        simp [NamesNoContainer, hnone]
    | releaseAgain hreleased =>
        have hanswer : (s.deallocateContainer cx k).1 = .ok () := by
          rw [deallocateContainer_released hreleased]
        exact .of_ok hanswer (hheld (hreleased ▸ Option.some_ne_none _))

end Scheduler

/-! ## In the surroundings -/

namespace Surroundings

variable {σ : Type} {here : Surroundings σ} {policy : Policy} {w : Scheduler × σ} {α : Type}
  {decision : Scheduler → Context → Except SchedulerError α × Scheduler}
  {why : SchedulerError → Prop}

/-- An operation fails for these causes and no others, and then nothing was decided: all that
is carried out afterwards is what had been pending before. -/
structure FailsOnly (here : Surroundings σ) (policy : Policy) (w : Scheduler × σ)
    (decision : Scheduler → Context → Except SchedulerError α × Scheduler)
    (answer : Except SchedulerError α × Scheduler × σ) (why : SchedulerError → Prop) : Prop where
  exact : ∀ cause, answer.1 = .error cause ↔ why cause
  undecided : ∀ cause, answer.1 = .error cause →
    (decision w.1 (here.context policy w.2)).2 = w.1
  clean : ∀ cause, answer.1 = .error cause → answer.2 = here.flush w

theorem failsOnly_perform
    (h : w.1.FailsOnly (decision w.1 (here.context policy w.2)) why) :
    here.FailsOnly policy w decision (here.perform policy decision w) why where
  exact := h.exact
  undecided := h.clean
  clean cause hcause := by
    show here.flush ((decision w.1 (here.context policy w.2)).2, w.2) = here.flush w
    rw [h.clean cause hcause]

theorem requestTask_eq_perform (hrunning : w.1.stopped = false) (request : TaskRequest) :
    here.requestTask policy request w =
      here.perform policy (fun s cx => s.request cx request) w := by
  rw [requestTask, if_neg (by simp [hrunning])]

end Surroundings

/-! ## Runs -/

namespace Fleet

variable {w : Fleet} {config : SchedulerConfig} {kind : MatcherKind}

/-- With a policy that has a name, in whatever surroundings and after whatever run, a request
fails if it asks for more than the cluster can ever grant, the end of a task if its request is
not live, the return of a container if it is not held, and none of them for another cause.
One that fails decides on nothing and changes nothing.  Once an operation has changed the
ledger, it does not fail any more.  A scheduler that was stopped refuses requests without
looking at them, and a container that was given back may be given back again. -/
theorem failures_clean (hw : w.Reachable ⟨config, kind.matcher⟩) {σ : Type}
    (here : Surroundings σ) (x : σ) :
    (w.1.stopped = false → ∀ request,
      here.FailsOnly ⟨config, kind.matcher⟩ (w.1, x) (fun s cx => s.request cx request)
        (here.requestTask ⟨config, kind.matcher⟩ request (w.1, x)) (w.1.AsksTooMuch request)) ∧
    (w.1.stopped = true → ∀ request,
      here.requestTask ⟨config, kind.matcher⟩ request (w.1, x) = (.error .stopped, w.1, x)) ∧
    (∀ c succeeded,
      here.FailsOnly ⟨config, kind.matcher⟩ (w.1, x)
        (fun s cx => s.deallocateTask cx c succeeded)
        (here.deallocateTask ⟨config, kind.matcher⟩ c succeeded (w.1, x))
        (w.1.NamesNoTask c)) ∧
    (∀ k,
      here.FailsOnly ⟨config, kind.matcher⟩ (w.1, x) (fun s cx => s.deallocateContainer cx k)
        (here.deallocateContainer ⟨config, kind.matcher⟩ k (w.1, x))
        (w.1.NamesNoContainer k)) ∧
    (∀ k task, w.1.ledger.assignment? k = some (.released task) →
      w.1.deallocateContainer (here.context ⟨config, kind.matcher⟩ x) k = (.ok (), w.1)) ∧
    w.1.CarriesThrough (here.context ⟨config, kind.matcher⟩ x) ∧
    (w.1.pending = [] → w.1.reports = [] → here.flush (w.1, x) = (w.1, x)) := by
  have hl : w.1.ledger.Coherent := hw.underway.coherent
  have hm : kind.matcher.Answers := kind.answers
  refine ⟨fun hrunning request => ?_, fun hstopped request => ?_, fun c succeeded => ?_,
    fun k => ?_, fun k task hreleased => ?_, ?_, fun hpending hreports => ?_⟩
  · rw [Surroundings.requestTask_eq_perform (w := (w.1, x)) hrunning]
    exact Surroundings.failsOnly_perform (Scheduler.request_failsOnly hm hl request)
  · exact Surroundings.requestTask_of_stopped (w := (w.1, x)) hstopped request
  · exact Surroundings.failsOnly_perform (Scheduler.deallocateTask_failsOnly hm c succeeded)
  · exact Surroundings.failsOnly_perform (Scheduler.deallocateContainer_failsOnly k)
  · exact Scheduler.deallocateContainer_released hreleased
  · exact Scheduler.carriesThrough hm hl
  · exact Surroundings.flush_of_nothing hpending hreports

/-- The cluster grants two gigabytes at most.  A request runs, and its container is given back,
which ends it.  Then more is asked for, the task is said to be done, and the container is given
back again. -/
theorem failures_clean_registered :
    let cx : Context := ⟨⟨.standard, MatcherKind.launchContext.matcher⟩, .epoch, none⟩
    let request (task memory : UInt64) : TaskRequest :=
      ⟨⟨task⟩, ⟨memory, 1⟩, ⟨5⟩, ⟨[], [], true⟩, ⟨0, ⟨⟨1024, 1⟩, .empty, .empty⟩⟩⟩
    let container : Container :=
      ⟨⟨"c_1"⟩, ⟨"host1", 8041⟩, none, ⟨1024, 1⟩, ⟨5⟩, some ⟨1⟩, none⟩
    let ops : List Scheduler.Operation := [.request (request 7 1024),
      .hear (.allocated [container]), .deallocateContainer ⟨"c_1"⟩]
    let registered : Scheduler :=
      { Scheduler.fresh with maxCapability := some ⟨2048, 2⟩, registered := true }
    let s := ops.foldl (fun s op => s.after cx op) registered
    let x : Prompter := ⟨.connect .zero, [], []⟩
    (prompted.requestTask cx.policy (request 8 4096) (s, x)).1 =
        .error (.capabilityExceeded ⟨4096, 1⟩ ⟨2048, 2⟩) ∧
      (prompted.requestTask cx.policy (request 8 4096) (s, x)).2 = prompted.flush (s, x) ∧
      (prompted.deallocateTask cx.policy ⟨1⟩ true (s, x)).1 =
        .error (.ledger (.unknownCookie ⟨1⟩)) ∧
      s.deallocateContainer cx ⟨"c_1"⟩ = (.ok (), s) := by
  intro cx request container ops registered s x
  have hregistered : Reachable cx.policy (registered, .connect .zero) :=
    (Reachable.start .zero).run
      (.of_step (.aside (some ⟨2048, 2⟩) [] .zero true false false))
  have hw : Reachable cx.policy (s, .connect .zero) := by
    apply hregistered.operations
    decide
  have hrunning : s.stopped = false := by decide +kernel
  have hmax : s.maxCapability = some ⟨2048, 2⟩ := by decide +kernel
  have hgone : s.ledger.state? ⟨1⟩ = none := by decide +kernel
  have hreleased : s.ledger.assignment? ⟨"c_1"⟩ = some (.released (some ⟨7⟩)) := by
    decide +kernel
  clear_value s
  obtain ⟨hrequest, -, htask, -, hagain, -⟩ := failures_clean hw prompted x
  have hmuch := ((hrequest hrunning (request 8 4096)).exact _).mpr
    ⟨⟨2048, 2⟩, hmax, by decide, rfl⟩
  have hclean := (hrequest hrunning (request 8 4096)).clean _ hmuch
  exact ⟨hmuch, hclean, ((htask ⟨1⟩ true).exact _).mpr ⟨hgone, rfl⟩, hagain _ _ hreleased⟩

end Fleet

end TaskFleet
