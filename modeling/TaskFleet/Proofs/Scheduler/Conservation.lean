import TaskFleet.Proofs.Ledger.Shedding
import TaskFleet.Proofs.Scheduler.Walk

/-!
# No idle container could run a request that waits

Two places look whether an idle container and a waiting request fit each other: a new
request looks through the idle containers, and a container that is left idle is offered to
the waiting requests.  Everything else that is decided only makes idle containers and
waiting requests fewer (`Decision.sheds`).  So between operations nothing idle could be in
use (`Fleet.reuse_conserves`).

If containers are not reused nobody looks, but then none is ever left idle.
-/

namespace TaskFleet

/-- The same, but the cluster does not say what it can grant. -/
def Context.silent (cx : Context) : Context := { cx with headroom := none }

namespace Scheduler

variable {policy : Policy} {s t : Scheduler} {cx : Context}

/-- Nothing idle could be in use, and nothing is idle unless containers are reused. -/
structure WorkConserving (policy : Policy) (s : Scheduler) : Prop where
  conserving : s.ledger.Conserving policy.matcher
  reused : policy.config.reuseEnabled = false →
    ∀ k h, s.ledger.held.get? k = some h → h.isIdle = false

theorem workConserving_fresh : WorkConserving policy .fresh where
  conserving k h hget := by cases hget
  reused _ k h hget := by cases hget

theorem WorkConserving.sheds (hs : WorkConserving policy s) (h : s.ledger.Sheds t.ledger) :
    WorkConserving policy t where
  conserving := h.conserving hs.conserving
  reused hoff k held hget := by
    cases hidle : held.isIdle with
    | false => rfl
    | true => exact hidle.symm.trans (hs.reused hoff k held (h.idle k held hget hidle))

/-! ## Decisions -/

/-- Every decision but to keep the container of a finished task sheds. -/
theorem Decision.sheds {o : Outcome} (h : Decision policy s o)
    (hkind : o.action? ≠ some .idled) : s.ledger.Sheds o.ledger := by
  cases h with
  | ask now hpending hledger => exact Ledger.sheds_markRequested hledger
  | hand now hrequest hheld hlarge hserves hledger => exact Ledger.sheds_assignIdle hledger
  | grant now hwanted hrequest hledger hheld => exact Ledger.sheds_allocate hledger
  | withdraw now hwaiting hledger => exact Ledger.sheds_remove hledger hwaiting
  | retire now hrunning hledger => exact absurd rfl hkind
  | turnAway => exact .refl _
  | announce now detail hledger => exact Ledger.sheds_beginRelease hledger
  | giveBack now reason hledger => exact Ledger.sheds_release hledger
  | complete now hledger => exact Ledger.sheds_complete hledger
  | unawait => exact .refl _
  | forget => exact .refl _
  | news => exact .refl _

theorem DecisionsAmong.sheds {actions : List (Option AuditAction)}
    (h : DecisionsAmong policy actions s t) (hkinds : some .idled ∉ actions) :
    s.ledger.Sheds t.ledger := by
  refine h.keeps (P := fun t => s.ledger.Sheds t.ledger) (fun t o ho haction hsheds => ?_)
    (.refl _)
  exact hsheds.trans (ho.sheds fun hidled => hkinds (hidled ▸ haction))

theorem WorkConserving.decisions (hs : WorkConserving policy s)
    {actions : List (Option AuditAction)} (h : DecisionsAmong policy actions s t)
    (hkinds : some .idled ∉ actions) : WorkConserving policy t :=
  hs.sheds (h.sheds hkinds)

/-! ## New requests -/

/-- A request that could run in no idle container may wait. -/
theorem WorkConserving.enter (hs : WorkConserving policy s) {request : TaskRequest}
    (hnone : ∀ k h, s.ledger.held.get? k = some h → h.isIdle = true →
      ¬ policy.matcher.CanRun h request) : WorkConserving policy (s.enter request) where
  conserving k h hget hidle row hrow := by
    rcases Ledger.waiting_add hrow with rfl | hrow
    · exact hnone k h hget hidle
    · exact hs.conserving k h hget hidle row hrow
  reused := hs.reused

/-- A request for which nothing is picked could run in no idle container. -/
theorem WorkConserving.none_of_reusable? (hs : WorkConserving cx.policy s)
    {request : TaskRequest} (hreuse : s.reusable? cx request = .ok none) {k : ContainerId} {h : Holding}
    (hget : s.ledger.held.get? k = some h) (hidle : h.isIdle = true) :
    ¬ cx.policy.matcher.CanRun h request := by
  unfold reusable? at hreuse
  split at hreuse
  · exact pickIdle?_complete hreuse (s.ledger.held.mem_values_iff.mpr ⟨k, hget⟩) hidle
  · next hoff =>
    have hbusy := hs.reused (Bool.not_eq_true _ ▸ hoff) k h hget
    rw [hidle] at hbusy
    cases hbusy

theorem WorkConserving.request (hs : WorkConserving cx.policy s) (hl : s.ledger.Coherent)
    (request : TaskRequest) : WorkConserving cx.policy (s.request cx request).2 := by
  rcases s.request_cases cx request with ⟨cause, hrefused⟩ | ⟨reusable, hreuse, hplace⟩
  · rw [hrefused]
    exact hs
  · rw [hplace]
    cases reusable with
    | none =>
        have hentered : WorkConserving cx.policy (s.enter request) :=
          hs.enter fun k h hget hidle => hs.none_of_reusable? hreuse hget hidle
        obtain ⟨o, ho, hkind, -, hrest⟩ := (takenUp_place_none s cx request).settled
        have hfirst : (s.enter request).ledger.Sheds o.ledger :=
          ho.sheds fun hidled => by simp [hidled] at hkind
        exact hentered.sheds (hfirst.trans (hrest.sheds (by simp [walkActions])))
    | some id =>
        obtain ⟨h, ledger, container, -, -, -, -, hledger, hanswer⟩ :=
          place_some hl (pickIdle?_of_reusable? hreuse)
        rw [hanswer]
        -- the new request is served at once, so who waits waited before it came
        refine hs.sheds ⟨(Ledger.sheds_assignIdle hledger).idle, fun row hrow => ?_⟩
        obtain ⟨hother, hentered⟩ := Ledger.waiting_assignIdle hledger hrow
        rcases Ledger.waiting_add hentered with rfl | hwaited
        · exact absurd rfl hother
        · exact hwaited

/-! ## Containers that a task leaves -/

/-- A policy that answers is asked about one waiting request after the other, and the first
that can run in the container is found. -/
theorem firstServed?_eq_find? {m : Matcher} (hm : m.Answers) (h : Holding)
    (waiting : List (Cookie × TaskRequest)) :
    firstServed? m h waiting = .ok (waiting.find? fun row =>
      m.serves h row.2 && h.container.resource.covers row.2.capability) := by
  induction waiting with
  | nil => rfl
  | cons row waiting ih =>
      rw [firstServed?, hm.superset, List.find?_cons]
      dsimp only
      cases m.serves h row.2 && h.container.resource.covers row.2.capability with
      | true => rfl
      | false => exact ih

/-- An idle container can be handed to any request that waits. -/
theorem assignIdle_of_waiting {l : Ledger} (now : Instant) {cookie : Cookie} {id : ContainerId}
    {request : TaskRequest} {h : Holding} (hheld : l.held.get? id = some h)
    (hidle : h.isIdle = true) (hwaiting : (cookie, request) ∈ l.outstanding) :
    ∃ answer l', l.assignIdle now cookie id = (.ok answer, l') := by
  obtain ⟨phase, hentry, hphase⟩ := Ledger.mem_outstanding_iff.mp hwaiting
  have hfree : phase.container? = none := by
    cases phase with
    | pending => rfl
    | requested asked => rfl
    | allocated id => cases hphase
    | releasing id => cases hphase
  simp [Ledger.assignIdle, hheld, hidle, hentry, hfree]

/-- Once a container was offered, nothing idle could be in use, if only it was in doubt. -/
theorem conserving_offerIdle (hm : cx.policy.matcher.Answers) (id : ContainerId)
    (hothers : ∀ k h, s.ledger.held.get? k = some h → h.isIdle = true → k ≠ id →
      ∀ row ∈ s.ledger.outstanding, ¬ cx.policy.matcher.CanRun h row.2) :
    (s.offerIdle cx id).2.ledger.Conserving cx.policy.matcher := by
  unfold offerIdle
  cases hheld : s.ledger.holding? id with
  | none =>
      intro k h hget hidle
      refine hothers k h hget hidle ?_
      rintro rfl
      rw [Ledger.holding?, hget] at hheld
      cases hheld
  | some h =>
      obtain ⟨first, hfirst⟩ :
          ∃ first, firstServed? cx.policy.matcher h s.ledger.outstanding = .ok first :=
        ⟨_, firstServed?_eq_find? hm h _⟩
      simp only [hfirst]
      cases first with
      | none =>
          intro k h' hget hidle row hrow
          by_cases hk : k = id
          · subst hk
            rw [Ledger.holding?, hget] at hheld
            cases hheld
            exact firstServed?_complete hfirst hrow
          · exact hothers k h' hget hidle hk row hrow
      | some served =>
          obtain ⟨cookie, request⟩ := served
          simp only [handOver]
          split
          · next hrefused =>
            obtain rfl := Ledger.atomic_assignIdle _ _ hrefused
            -- only a container that is not idle is refused to a request that waits
            intro k h' hget hidle
            refine hothers k h' hget hidle ?_
            rintro rfl
            obtain ⟨hmem, -, -⟩ := firstServed?_sound hfirst
            obtain ⟨answer, ledger, hresult⟩ := assignIdle_of_waiting cx.now hget hidle hmem
            rw [hresult] at hrefused
            cases hrefused
          · next container previous ledger hledger =>
            have hsame : (({ s with ledger }.withdrawAfter previous cookie).reuse cx.now
                request.task cookie container).ledger = ledger := by
              rw [withdrawAfter_eq]
              rfl
            rw [hsame]
            intro k h' hget hidle row hrow
            obtain ⟨hk, hbefore⟩ := Ledger.idle_assignIdle hledger hget hidle
            obtain ⟨-, hwaited⟩ := Ledger.waiting_assignIdle hledger hrow
            exact hothers k h' hbefore hidle hk row hwaited

theorem WorkConserving.retain (hm : cx.policy.matcher.Answers)
    (hs : WorkConserving cx.policy s) (hon : cx.policy.config.reuseEnabled = true)
    {cookie : Cookie} {id : ContainerId}
    (hrunning : s.ledger.phase? cookie = some (.allocated id)) :
    WorkConserving cx.policy (s.retain cx cookie id).2 := by
  refine ⟨?_, fun hoff => absurd hoff (by rw [hon]; decide)⟩
  unfold Scheduler.retain
  split
  · next hledger =>
    obtain rfl := Ledger.atomic_remove _ _ hledger
    exact hs.conserving
  · next removed ledger hledger =>
    obtain ⟨hidle, hwaiting⟩ := Ledger.idle_remove hledger hrunning
    have hoffered := conserving_offerIdle (s := { s with ledger }.note cx.now .idled (some cookie)
      (some removed.request.task) (some id) none) hm id fun k h hget hfree hk row hrow =>
        hs.conserving k h (hidle k h hget hk) hfree row (hwaiting row hrow)
    dsimp only
    split
    · next hanswer =>
      rw [hanswer] at hoffered
      exact hoffered
    · next hanswer =>
      rw [hanswer] at hoffered
      exact hoffered

theorem WorkConserving.deallocateTask (hm : cx.policy.matcher.Answers)
    (hs : WorkConserving cx.policy s) (cookie : Cookie) (succeeded : Bool) :
    WorkConserving cx.policy (s.deallocateTask cx cookie succeeded).2 := by
  unfold Scheduler.deallocateTask
  split
  · exact hs
  · next entry hentry =>
    have hphase := Ledger.phase?_of_get? hentry
    split
    · next h => exact hs.decisions (decisions_withdraw s cx hphase (h ▸ rfl)) (by simp)
    · next h => exact hs.decisions (decisions_withdraw s cx hphase (h ▸ rfl)) (by simp)
    · next id h =>
      split
      · next hkept =>
        rw [Bool.and_eq_true] at hkept
        exact hs.retain hm hkept.2 (h ▸ hphase)
      · exact hs.decisions (decisions_releaseHeld s cx.now id _) (by simp)
    · next id _ => exact hs.decisions (decisions_releaseHeld s cx.now id _) (by simp)

/-! ## Where a walk starts -/

theorem preemptQuietly_cases (s : Scheduler) (cx : Context) :
    s.preemptQuietly cx = s ∨ s.preemptQuietly cx = (s.preempt cx).2 := by
  unfold preemptQuietly
  split
  · exact .inr rfl
  · exact .inl rfl

@[simp] theorem preemptQuietly_silent (s : Scheduler) (cx : Context) :
    s.preemptQuietly cx.silent = s := by
  unfold preemptQuietly
  split <;> rfl

/-- An operation walks at most once, after all else that it decides. -/
theorem after_cases (s : Scheduler) (cx : Context) (op : Operation) :
    s.after cx op = s.after cx.silent op ∨
      s.after cx op = ((s.after cx.silent op).preempt cx).2 := by
  cases op with
  | request request =>
      have hreuse : s.reusable? cx.silent request = s.reusable? cx request := rfl
      simp only [after, Scheduler.request, hreuse]
      split
      · exact .inl rfl
      · split
        · exact .inl rfl
        · next reusable _ =>
          cases reusable with
          | some id => exact .inl rfl
          | none =>
              have htime : cx.silent.now = cx.now := rfl
              simp only [place, htime]
              split
              · exact .inl rfl
              · simpa using preemptQuietly_cases _ cx
  | deallocateTask cookie succeeded => exact .inl rfl
  | deallocateContainer id => exact .inl rfl
  | preempt => exact .inr rfl
  | releaseExpired timeout asOf => exact .inl rfl
  | housekeep asOf =>
      have hforget : s.forgetReturned cx.silent asOf = s.forgetReturned cx asOf := rfl
      simp only [after, hforget]
      split
      · exact .inl rfl
      · simpa using preemptQuietly_cases (s.forgetReturned cx asOf) cx
  | hear event =>
      cases event with
      | allocated containers =>
          have htime : cx.silent.now = cx.now := rfl
          simp only [after, hear, receiveAll, htime]
          split
          · exact .inl rfl
          · simpa using preemptQuietly_cases _ cx
      | completed statuses => exact .inl rfl
      | nodesUpdated reports => exact .inl rfl
      | shutdownRequested => exact .inl rfl
      | failure cause => exact .inl rfl

/-! ## Operations -/

theorem WorkConserving.after (cx : Context) (hm : cx.policy.matcher.Answers) (hl : s.ledger.Coherent)
    (hs : WorkConserving cx.policy s) (op : Operation) :
    WorkConserving cx.policy (s.after cx op) := by
  have hothers : op.isRequest = false → some .idled ∉ op.actions →
      WorkConserving cx.policy (s.after cx op) := fun hop hkinds =>
    hs.decisions (decisions_after s cx hop) hkinds
  cases op with
  | request request => exact hs.request hl request
  | deallocateTask cookie succeeded => exact hs.deallocateTask hm cookie succeeded
  | deallocateContainer id => exact hothers rfl (by simp [Operation.actions])
  | preempt => exact hothers rfl (by simp [Operation.actions, walkActions])
  | releaseExpired timeout asOf => exact hothers rfl (by simp [Operation.actions])
  | housekeep asOf => exact hothers rfl (by simp [Operation.actions, walkActions])
  | hear event =>
      refine hothers rfl ?_
      cases event <;> simp [Operation.actions, walkActions, grantActions]

/-- A walk leaves a waiting request where it stands. -/
theorem phase?_preemptQuietly (hm : cx.policy.matcher.Answers) (hl : s.ledger.Coherent)
    {cookie : Cookie} {phase : Phase} (hphase : s.ledger.phase? cookie = some phase)
    (hwaiting : phase.isOutstanding = true) :
    (s.preemptQuietly cx).ledger.phase? cookie = some phase := by
  rcases s.preemptQuietly_cases cx with hnone | hwalk
  · rw [hnone, hphase]
  · rw [hwalk]
    obtain ⟨ts, htaken⟩ := takesBack_preempt hm hl
    obtain ⟨entry, hentry, rfl⟩ := Option.map_eq_some_iff.mp hphase
    exact Ledger.phase?_of_get? ((htaken.ledger.waiting hl cookie hwaiting).mpr hentry)

/-- A new request that is answered with a container was handed an idle one that it fits. -/
theorem handed_request (hm : cx.policy.matcher.Answers) (hl : s.ledger.Coherent)
    (hnext : s.ledger.HasCookies) {request : TaskRequest} {cookie : Cookie} {k : ContainerId}
    (hanswer : (s.request cx request).1 = .ok cookie)
    (hgiven : (s.request cx request).2.ledger.containerOf? cookie = some k) :
    ∃ h, s.ledger.held.get? k = some h ∧ h.isIdle = true ∧
      cx.policy.matcher.CanRun h request := by
  rcases s.request_cases cx request with ⟨cause, hrefused⟩ | ⟨reusable, hreuse, hplace⟩
  · rw [hrefused] at hanswer
    cases hanswer
  · rw [hplace] at hanswer hgiven
    cases reusable with
    | none =>
        obtain ⟨o, ho, -, hledger, hasked⟩ := s.place_none cx request
        rw [hasked] at hanswer hgiven
        cases hanswer
        -- the request waits, and a walk leaves it waiting
        have hwaits : o.ledger.phase? ⟨s.ledger.nextCookie⟩ =
            some (.requested (request.tiers ⟨s.ledger.nextCookie⟩)) := by
          rw [Ledger.phase?_markRequested hledger, if_pos rfl]
        have hcoherent : o.ledger.Coherent := ho.coherent (hl.add hnext request)
        have hstill := phase?_preemptQuietly (s := (s.enter request).adopt o) hm hcoherent hwaits rfl
        rw [Ledger.containerOf?_eq, hstill] at hgiven
        cases hgiven
    | some id =>
        obtain ⟨h, ledger, container, hheld, hidle, hlarge, hserves, hledger, hhanded⟩ :=
          place_some hl (pickIdle?_of_reusable? hreuse)
        rw [hhanded] at hanswer hgiven
        cases hanswer
        have hphase := Ledger.phase?_assignIdle hledger ⟨s.ledger.nextCookie⟩
        rw [if_pos rfl] at hphase
        have hid : ledger.containerOf? ⟨s.ledger.nextCookie⟩ = some id := by
          rw [Ledger.containerOf?_eq, hphase]
          rfl
        have hk : k = id := Option.some.inj (hgiven.symm.trans hid)
        exact hk ▸ ⟨h, hheld, hidle, hlarge, hserves⟩

end Scheduler

namespace Fleet

open Scheduler

variable {config : SchedulerConfig} {kind : MatcherKind} {w : Fleet}

theorem Reachable.workConserving (hw : w.Reachable ⟨config, kind.matcher⟩) :
    WorkConserving ⟨config, kind.matcher⟩ w.1 := by
  refine hw.induct (P := fun w => WorkConserving ⟨config, kind.matcher⟩ w.1)
    (fun _ => workConserving_fresh) fun w w' hreached hstep hs => ?_
  cases hstep with
  | operate op now headroom hnext =>
      exact WorkConserving.after ⟨⟨config, kind.matcher⟩, now, headroom⟩ kind.answers
        hreached.underway.coherent hs op
  | call h =>
      have hsame := ledger_takeUp? h
      exact hs.sheds (hsame ▸ .refl _)
  | deliver h =>
      have hsame := ledger_takeUp? h
      exact hs.sheds (hsame ▸ .refl _)
  | @refuse s _ now notice cause =>
      obtain ⟨t, reports, ht, hrefused⟩ :=
        refused_eq ⟨config, kind.matcher⟩ s now notice cause
      have hafter := hs.decisions ht (by simp)
      rw [hrefused]
      exact ⟨hafter.conserving, hafter.reused⟩
  | aside => exact ⟨hs.conserving, hs.reused⟩
  | client => exact hs

/-- Between operations no idle container could run a request that waits.  So what a new
request is handed could have run none of those that wait longer or matter more, and when an
operation ends with a walk, the idle containers that go back could have run none of the
requests that wait. -/
theorem reuse_conserves (hw : w.Reachable ⟨config, kind.matcher⟩) :
    w.1.ledger.Conserving kind.matcher ∧
    (∀ (now : Instant) (headroom : Option Resource) (request : TaskRequest) (cookie : Cookie)
      (k : ContainerId), w.1.ledger.HasCookies →
      (w.1.request ⟨⟨config, kind.matcher⟩, now, headroom⟩ request).1 = .ok cookie →
      (w.1.request ⟨⟨config, kind.matcher⟩, now, headroom⟩ request).2.ledger.containerOf? cookie =
        some k →
      ∃ h, w.1.ledger.holding? k = some h ∧ h.isIdle = true ∧ kind.matcher.CanRun h request ∧
        ∀ row ∈ w.1.ledger.outstanding, ¬ kind.matcher.CanRun h row.2) ∧
    ∀ (cx : Context) (op : Operation), cx.policy = ⟨config, kind.matcher⟩ →
      (op.isRequest = true → w.1.ledger.HasCookies) →
      ∃ u takings, Reachable ⟨config, kind.matcher⟩ (u, w.2) ∧
        (w.1.after cx op = u ∨ w.1.after cx op = (u.preempt cx).2) ∧
        TakesBack kind.matcher u takings (u.preempt cx).2 ∧
        ∀ taking ∈ takings, taking.holding.isIdle = true →
          ∀ row ∈ u.ledger.outstanding, ¬ kind.matcher.CanRun taking.holding row.2 := by
  have hl : w.1.ledger.Coherent := hw.underway.coherent
  have hconserving := hw.workConserving.conserving
  refine ⟨hconserving, fun now headroom request cookie k hnext hanswer hgiven => ?_,
    fun cx op hpolicy hnext => ?_⟩
  · have hm : (Policy.mk config kind.matcher).matcher.Answers := kind.answers
    obtain ⟨h, hheld, hidle, hfits⟩ := handed_request hm hl hnext hanswer hgiven
    exact ⟨h, hheld, hidle, hfits, hconserving k h hheld hidle⟩
  · -- the walk starts where the operation ends that hears of no headroom
    have hu : Reachable ⟨config, kind.matcher⟩ (w.1.after cx.silent op, w.2) :=
      hw.run (.of_step (hpolicy ▸ .operate op cx.now none hnext))
    have hm : cx.policy.matcher.Answers := hpolicy ▸ kind.answers
    obtain ⟨takings, htaken⟩ := takesBack_preempt hm hu.underway.coherent
    rw [hpolicy] at htaken
    refine ⟨_, takings, hu, after_cases w.1 cx op, htaken, fun taking hmem hidle row hrow => ?_⟩
    obtain ⟨hheld, -, -⟩ := htaken.ledger.of_mem hu.underway.coherent hmem
    exact hu.workConserving.conserving taking.id taking.holding hheld hidle row hrow

/-- A small request is handed the idle container that a larger one, which waits, could not
run in. -/
theorem reuse_conserves_small :
    let cx : Context := ⟨⟨.standard, MatcherKind.launchContext.matcher⟩, .epoch, none⟩
    let request (task mb : UInt64) : TaskRequest :=
      ⟨⟨task⟩, ⟨mb, 1⟩, ⟨5⟩, ⟨[], [], true⟩, ⟨0, ⟨⟨1024, 1⟩, .empty, .empty⟩⟩⟩
    let container : Container := ⟨⟨"c_1"⟩, ⟨"host1", 8041⟩, none, ⟨1024, 1⟩, ⟨5⟩, some ⟨1⟩, none⟩
    let ops : List Operation := [.request (request 7 1024), .hear (.allocated [container]),
      .deallocateTask ⟨1⟩ true, .request (request 8 2048)]
    let w : Fleet := (ops.foldl (fun s op => s.after cx op) .fresh, .connect .zero)
    w.1.ledger.Conserving cx.policy.matcher ∧
      w.1.ledger.outstanding = [(⟨2⟩, request 8 2048)] ∧
      ∃ h, w.1.ledger.holding? ⟨"c_1"⟩ = some h ∧ h.isIdle = true ∧
        cx.policy.matcher.CanRun h (request 9 512) ∧
        ∀ row ∈ w.1.ledger.outstanding, ¬ cx.policy.matcher.CanRun h row.2 := by
  intro cx request container ops w
  have hw : w.Reachable cx.policy := by
    apply (Reachable.start .zero).operations
    decide
  obtain ⟨hconserving, hhanded, -⟩ := reuse_conserves hw
  have hanswer : (w.1.request cx (request 9 512)).1 = .ok ⟨3⟩ := by
    have hcookie : (w.1.request cx (request 9 512)).1.toOption = some ⟨3⟩ := by decide +kernel
    revert hcookie
    cases (w.1.request cx (request 9 512)).1 <;> simp [Except.toOption]
  refine ⟨hconserving, ?_, hhanded .epoch none (request 9 512) ⟨3⟩ ⟨"c_1"⟩ ?_ hanswer ?_⟩
  · decide +kernel
  · decide +kernel
  · decide +kernel

end Fleet

end TaskFleet
