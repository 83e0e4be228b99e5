import TaskFleet.Proofs.Ledger.Ownership
import TaskFleet.Proofs.Scheduler.Decision

/-!
# Operations are sequences of decisions

Each function of the scheduler is cut into the decisions that it takes, and of which kinds
they are, from the ones that act on a single container up to the operations.  A walk over a
list (what is released,
what is taken back, what was granted, what has finished) is cut by induction on the list,
every other function by the branches of its definition.

Only a new request is more than its decisions: it first issues a cookie (`enter`), and
`Decisions` start from there.  That the cookie does not stay behind without an answer is
`request_settles`.
-/

namespace TaskFleet.Scheduler

variable {policy : Policy}

/-! ## Effects in a row -/

theorem withdrawAfter_eq (s : Scheduler) (previous : RequestState) (cookie : Cookie) :
    s.withdrawAfter previous cookie =
      { s with pending := s.pending ++ withdrawal previous cookie } := by
  unfold withdrawAfter withdrawal
  split
  · rfl
  · simp

theorem foldl_queue {α : Type} (f : α → Effect) (as : List α) (s : Scheduler) :
    as.foldl (fun s a => s.queue (f a)) s = { s with pending := s.pending ++ as.map f } := by
  induction as generalizing s with
  | nil => simp
  | cons a as ih =>
      rw [List.foldl_cons, ih]
      simp [queue]

/-! ## Giving containers back -/

/-- A container is sent back, or the ledger refuses to release it and nothing changes. -/
theorem releaseHeld_cases (s : Scheduler) (now : Instant) (id : ContainerId) (reason : String) :
    (s.releaseHeld now id reason).2 = s ∨ ∃ task ledger,
      s.ledger.release id = (.ok task, ledger) ∧
      (s.releaseHeld now id reason).2 = { s with ledger }.sendBack now id task reason := by
  unfold releaseHeld
  split
  · next task ledger h => exact .inr ⟨task, ledger, h, rfl⟩
  · next h =>
    obtain rfl := Ledger.atomic_release _ _ h
    exact .inl rfl

/-- At the application's word it is the same, whatever is answered. -/
theorem deallocateContainer_eq_releaseHeld (s : Scheduler) (cx : Context) (id : ContainerId) :
    (s.deallocateContainer cx id).2 = (s.releaseHeld cx.now id "deallocated").2 := by
  unfold deallocateContainer releaseHeld
  split <;> simp_all only

theorem decisions_releaseHeld (s : Scheduler) (now : Instant) (id : ContainerId)
    (reason : String) :
    DecisionsAmong policy [some .released] s (s.releaseHeld now id reason).2 := by
  rcases s.releaseHeld_cases now id reason with hsame | ⟨task, ledger, h, hback⟩
  · rw [hsame]
    exact .refl s
  · exact .of_decision (.giveBack now reason h) (.head _) hback

theorem decisions_deallocateContainer (s : Scheduler) (cx : Context) (id : ContainerId) :
    DecisionsAmong policy [some .released] s (s.deallocateContainer cx id).2 := by
  rw [deallocateContainer_eq_releaseHeld]
  exact decisions_releaseHeld ..

theorem decisions_releaseEach (s : Scheduler) (now : Instant) (reason : String)
    (ids : List ContainerId) :
    DecisionsAmong policy [some .released] s (s.releaseEach now reason ids).2 := by
  induction ids generalizing s with
  | nil => exact .refl s
  | cons id ids ih => exact (decisions_releaseHeld s now id reason).trans (ih _)

theorem decisions_forgetReturned (s : Scheduler) (cx : Context) (asOf : Instant) :
    DecisionsAmong cx.policy [none] s (s.forgetReturned cx asOf) :=
  .of_decision (.forget asOf) (.head _) (by simp [forgetReturned, adopt])

/-! ## Taking containers back -/

/-- What a walk that takes containers back is recorded as. -/
def walkActions : List (Option AuditAction) := [some .released, some .preempted]

theorem decisions_takeRunning (s : Scheduler) (now : Instant) (beneficiary : Cookie)
    (id : ContainerId) :
    DecisionsAmong policy [some .preempted] s (s.takeRunning now beneficiary id) := by
  unfold takeRunning
  split
  · next h =>
    obtain rfl := Ledger.atomic_beginRelease _ _ h
    exact .refl s
  · next h =>
    exact .of_decision (.announce now (some s!"for {beneficiary.display}") h) (.head _) rfl

theorem decisions_takeBack (s : Scheduler) (now : Instant) (beneficiary : Cookie)
    (plan : PreemptionPlan) : DecisionsAmong policy walkActions s
      (s.takeBack now beneficiary plan) :=
  ((decisions_releaseEach s now _ plan.releaseIdle).mono (by simp [walkActions])).trans
    (.foldl (fun s id => (decisions_takeRunning s now beneficiary id).mono
      (by simp [walkActions])) _ _)

theorem decisions_claim (s : Scheduler) (cx : Context) (budget : Resource)
    (waiting : List (Cookie × TaskRequest)) :
    DecisionsAmong policy walkActions s (s.claim cx budget waiting).2 := by
  induction waiting generalizing s budget with
  | nil => exact .refl s
  | cons row rest ih =>
      obtain ⟨cookie, request⟩ := row
      rw [claim]
      split
      · exact ih s _
      · split
        · exact .refl s
        · next plan _ =>
          split
          · exact .refl s
          · exact (decisions_takeBack s cx.now cookie plan).trans (ih _ _)

theorem decisions_preempt (s : Scheduler) (cx : Context) :
    DecisionsAmong policy walkActions s (s.preempt cx).2 := by
  unfold preempt
  split
  · exact .refl s
  · exact decisions_claim s cx _ _

theorem decisions_preemptQuietly (s : Scheduler) (cx : Context) :
    DecisionsAmong policy walkActions s (s.preemptQuietly cx) := by
  unfold preemptQuietly
  split
  · exact decisions_preempt s cx
  · exact .refl s

/-! ## Containers that a task leaves -/

/-- An idle container that is offered is handed to a waiting request, or it stays. -/
theorem offerIdle_cases (s : Scheduler) (cx : Context) (id : ContainerId) :
    (s.offerIdle cx id).2 = s ∨
      ∃ o h, Decision cx.policy s o ∧ o.action? = some .reused ∧
        s.ledger.held.get? id = some h ∧ o.container? = some h.container.id ∧
        (s.offerIdle cx id).2 = s.adopt o := by
  unfold offerIdle
  split
  · exact .inl rfl
  · next h hheld =>
    split
    · exact .inl rfl
    · exact .inl rfl
    · next cookie request hfirst =>
      -- who is chosen waits, so the ledger has its request under its cookie
      obtain ⟨hmem, hlarge, hserves⟩ := firstServed?_sound hfirst
      obtain ⟨phase, hentry, -⟩ := Ledger.mem_outstanding_iff.mp hmem
      have hrequest : s.ledger.lookup cookie = .ok request := by
        simp [Ledger.lookup, hentry]
      show s.handOver cx.now cookie request.task id = s ∨ ∃ o h, _ ∧ _ ∧ _ ∧ _ ∧
        s.handOver cx.now cookie request.task id = s.adopt o
      unfold handOver
      split
      · next hledger =>
        obtain rfl := Ledger.atomic_assignIdle _ _ hledger
        exact .inl rfl
      · next container previous ledger hledger =>
        obtain ⟨entry, held, -, -, hheld', -, -, rfl, -⟩ := Ledger.assignIdle_ok hledger
        refine .inr ⟨_, held, .hand cx.now hrequest hheld hlarge hserves hledger, rfl, hheld',
          rfl, ?_⟩
        simp [reuse, withdrawAfter_eq, note, queue, adopt]

theorem decisions_offerIdle (s : Scheduler) (cx : Context) (id : ContainerId) :
    DecisionsAmong cx.policy [some .reused] s (s.offerIdle cx id).2 := by
  rcases s.offerIdle_cases cx id with hstays | ⟨o, h, ho, haction, -, -, heq⟩
  · rw [hstays]
    exact .refl s
  · exact .of_decision ho (haction ▸ .head _) heq

/-- The container of a finished task is idle, and then it is offered. -/
theorem decisions_retain (s : Scheduler) (cx : Context) {cookie : Cookie} {id : ContainerId}
    (hrunning : s.ledger.phase? cookie = some (.allocated id)) :
    ∃ t, DecisionsAmong cx.policy [some .idled] s t ∧
      DecisionsAmong cx.policy [some .reused] t (s.retain cx cookie id).2 := by
  unfold retain
  split
  · next hledger =>
    obtain rfl := Ledger.atomic_remove _ _ hledger
    exact ⟨s, .refl s, .refl s⟩
  · next removed ledger hledger =>
    refine ⟨_, .of_decision (.retire cx.now hrunning hledger) (.head _) rfl, ?_⟩
    -- an offer that fails leaves the container idle
    have hoffer := decisions_offerIdle ({ s with ledger }.note cx.now .idled (some cookie)
      (some removed.request.task) (some id) none) cx id
    simp only [adopt, List.append_nil]
    split
    · next hanswer =>
      rw [hanswer] at hoffer
      exact hoffer
    · next hanswer =>
      rw [hanswer] at hoffer
      exact hoffer

theorem decisions_withdraw (s : Scheduler) (cx : Context) {cookie : Cookie} {phase : Phase}
    (hphase : s.ledger.phase? cookie = some phase) (hwaiting : phase.isOutstanding = true) :
    DecisionsAmong policy [some .withdrawn] s (s.withdraw cx cookie).2 := by
  unfold withdraw
  split
  · next hledger =>
    obtain rfl := Ledger.atomic_remove _ _ hledger
    exact .refl s
  · next removed ledger hledger =>
    obtain ⟨entry, hentry, -, hprevious, -, -, -⟩ := Ledger.remove_ok hledger
    -- the ledger removes the entry whose phase was looked at before
    have hentry := Ledger.phase?_of_get? hentry
    rw [hphase] at hentry
    cases hentry
    refine .of_decision (.withdraw cx.now (hprevious ▸ hwaiting) hledger) (.head _) ?_
    simp [withdrawAfter_eq, note, adopt]

/-- A container is handed on only after a task that succeeded, where containers are reused. -/
theorem deallocateTask_cases (s : Scheduler) (cx : Context) (cookie : Cookie)
    (succeeded : Bool) :
    DecisionsAmong cx.policy [some .withdrawn, some .released] s
        (s.deallocateTask cx cookie succeeded).2 ∨
      (succeeded = true ∧ cx.policy.config.reuseEnabled = true) ∧
        ∃ t, DecisionsAmong cx.policy [some .idled] s t ∧
          DecisionsAmong cx.policy [some .reused] t (s.deallocateTask cx cookie succeeded).2 := by
  unfold deallocateTask
  split
  · exact .inl (.refl s)
  · next entry hentry =>
    have hphase := Ledger.phase?_of_get? hentry
    split
    · next h => exact .inl ((decisions_withdraw s cx hphase (h ▸ rfl)).mono (by simp))
    · next h => exact .inl ((decisions_withdraw s cx hphase (h ▸ rfl)).mono (by simp))
    · next id h =>
      split
      · next hkept =>
        rw [Bool.and_eq_true] at hkept
        exact .inr ⟨hkept, decisions_retain s cx (h ▸ hphase)⟩
      · exact .inl ((decisions_releaseHeld s cx.now id _).mono (by simp))
    · next id _ => exact .inl ((decisions_releaseHeld s cx.now id _).mono (by simp))

theorem decisions_deallocateTask (s : Scheduler) (cx : Context) (cookie : Cookie)
    (succeeded : Bool) : DecisionsAmong cx.policy
      [some .withdrawn, some .idled, some .reused, some .released] s
      (s.deallocateTask cx cookie succeeded).2 := by
  rcases s.deallocateTask_cases cx cookie succeeded with hgone | ⟨-, t, hidled, hreused⟩
  · exact hgone.mono (by simp)
  · exact (hidled.mono (by simp)).trans (hreused.mono (by simp))

/-! ## Granted containers -/

/-- What the receipt of a container is recorded as. -/
def grantActions : List (Option AuditAction) :=
  [some .allocated, some .unsolicited, some .lateAllocation]

/-- A granted container is wanted: the request that it names, or the one that it is meant
for, waits. -/
def wants (s : Scheduler) (container : Container) : Bool :=
  ((container.cookie <|> s.ledger.matchOutstanding container).bind s.ledger.phase?).any
    Phase.isOutstanding

/-- A container that is held already is ignored. -/
theorem receive_held {s : Scheduler} {container : Container}
    (hheld : s.ledger.held.contains container.id = true) (now : Instant) :
    s.receive now container = s := by
  rw [receive, if_pos hheld]

theorem wants_iff {s : Scheduler} {container : Container} :
    s.wants container = true ↔ ∃ cookie entry,
      (container.cookie <|> s.ledger.matchOutstanding container) = some cookie ∧
        s.ledger.entries.get? cookie = some entry ∧ entry.phase.isOutstanding = true := by
  constructor
  · intro h
    obtain ⟨phase, hphase, hwaiting⟩ := (Option.any_eq_true _ _).mp h
    obtain ⟨cookie, hwanted, hphase⟩ := Option.bind_eq_some_iff.mp hphase
    obtain ⟨entry, hentry, rfl⟩ := Option.map_eq_some_iff.mp hphase
    exact ⟨cookie, entry, hwanted, hentry, hwaiting⟩
  · rintro ⟨cookie, entry, hwanted, hentry, hwaiting⟩
    rw [wants, hwanted, Option.bind_some, Ledger.phase?_of_get? hentry]
    exact hwaiting

/-- A grant for a waiting request is never refused by the ledger, and both the request and
the container are then found. -/
theorem assign_eq (s : Scheduler) (now : Instant) {cookie : Cookie} {entry : Entry}
    {container : Container} (hnew : s.ledger.held.get? container.id = none)
    (hentry : s.ledger.entries.get? cookie = some entry)
    (hwaiting : entry.phase.isOutstanding = true) :
    ∃ ledger h, s.ledger.allocate now cookie container = (.ok entry.phase.state, ledger) ∧
      ledger.holding? container.id = some h ∧
      s.assign now cookie container = s.adopt {
        ledger
        awaiting := s.awaiting
        effects := withdrawal entry.phase.state cookie ++
          [.notify (.taskAllocated entry.request.task cookie h.container)]
        records := [⟨.allocated, some cookie, some entry.request.task, some container.id, none,
          now⟩] } := by
  have hfree : entry.phase.container? = none := entry.phase.isOutstanding_iff.mp hwaiting
  unfold assign
  rcases hledger : s.ledger.allocate now cookie container with ⟨cause | previous, ledger⟩
  · -- the container is new and the request waits, so there is no reason to refuse
    simp [Ledger.allocate, SortedMap.contains, hnew, hentry, hfree, hwaiting] at hledger
  · obtain ⟨entry', -, hentry', -, rfl, hafter⟩ := Ledger.allocate_ok hledger
    rw [hentry] at hentry'
    cases hentry'
    have hheld : ∃ h, ledger.holding? container.id = some h :=
      ⟨_, by rw [hafter, Ledger.holding?, SortedMap.get?_insert_self]⟩
    have hstill : ledger.lookup cookie = .ok entry.request := by
      simp [hafter, Ledger.lookup]
    obtain ⟨h, hheld⟩ := hheld
    refine ⟨ledger, h, rfl, hheld, ?_⟩
    simp [hstill, hheld, withdrawAfter_eq, note, queue, adopt]

/-- A container that is not held is assigned to the waiting request that it names or is
meant for. -/
theorem receive_eq_assign {s : Scheduler} {container : Container} {cookie : Cookie}
    {entry : Entry} (hnew : s.ledger.held.get? container.id = none)
    (hwanted : (container.cookie <|> s.ledger.matchOutstanding container) = some cookie)
    (hentry : s.ledger.entries.get? cookie = some entry)
    (hwaiting : entry.phase.isOutstanding = true) (now : Instant) :
    s.receive now container = s.assign now cookie container := by
  have hunheld : s.ledger.held.contains container.id = false :=
    s.ledger.held.contains_eq_false_iff.mpr hnew
  have hstate : entry.phase.state.isOutstanding = true := hwaiting
  simp [receive, hunheld, hwanted, Ledger.classify, hentry, hstate]

/-- A container that is wanted is granted. -/
theorem receive_wanted (policy : Policy) {s : Scheduler} {container : Container}
    (hnew : s.ledger.held.get? container.id = none) (hwants : s.wants container = true)
    (now : Instant) : ∃ o, Decision policy s o ∧ o.action? = some .allocated ∧
      o.container? = some container.id ∧ s.receive now container = s.adopt o := by
  obtain ⟨cookie, entry, hwanted, hentry, hwaiting⟩ := wants_iff.mp hwants
  obtain ⟨ledger, h, hledger, hheld, hassign⟩ := assign_eq s now hnew hentry hwaiting
  have hrequest : s.ledger.lookup cookie = .ok entry.request := by
    simp [Ledger.lookup, hentry]
  refine ⟨_, .grant now hwanted hrequest hledger hheld, rfl, rfl, ?_⟩
  rw [receive_eq_assign hnew hwanted hentry hwaiting, hassign]

/-- A container that is neither held nor wanted is turned away. -/
theorem receive_eq_turnAway {s : Scheduler} {container : Container}
    (hnew : s.ledger.held.get? container.id = none) (hwants : s.wants container = false)
    (now : Instant) : ∃ action cookie detail,
      (action = .unsolicited ∨ action = .lateAllocation) ∧
        s.receive now container = s.turnAway now action cookie container.id detail := by
  have hunheld : s.ledger.held.contains container.id = false :=
    s.ledger.held.contains_eq_false_iff.mpr hnew
  unfold receive
  rw [if_neg (by simp [hunheld])]
  split
  · exact ⟨.unsolicited, none, none, .inl rfl, rfl⟩
  · next cookie hwanted =>
    split
    · next state hlive =>
      split
      · next hwaiting =>
        -- the request that waits would want the container
        unfold Ledger.classify at hlive
        split at hlive
        · next entry hentry =>
          cases hlive
          rw [wants, hwanted, Option.bind_some, Ledger.phase?_of_get? hentry] at hwants
          exact absurd (hwaiting.symm.trans hwants) (by simp)
        · split at hlive <;> cases hlive
      · exact ⟨.unsolicited, some cookie, some "surplus", .inl rfl, rfl⟩
    · exact ⟨.lateAllocation, some cookie, none, .inr rfl, rfl⟩
    · exact ⟨.unsolicited, some cookie, none, .inl rfl, rfl⟩

theorem receive_unwanted (policy : Policy) {s : Scheduler} {container : Container}
    (hnew : s.ledger.held.get? container.id = none) (hwants : s.wants container = false)
    (now : Instant) : ∃ o, Decision policy s o ∧
      o.action? ∈ [some .unsolicited, some .lateAllocation] ∧
      o.container? = some container.id ∧ s.receive now container = s.adopt o := by
  obtain ⟨action, cookie, detail, haction, heq⟩ := receive_eq_turnAway hnew hwants now
  refine ⟨_, .turnAway now cookie detail hnew haction, ?_, rfl, heq⟩
  rcases haction with rfl | rfl
  · exact .head _
  · exact .tail _ (.head _)

theorem decisions_receive (s : Scheduler) (now : Instant) (container : Container) :
    DecisionsAmong policy grantActions s (s.receive now container) := by
  cases hheld : s.ledger.held.contains container.id with
  | true =>
      rw [receive_held hheld]
      exact .refl s
  | false =>
      have hnew := s.ledger.held.contains_eq_false_iff.mp hheld
      cases hwants : s.wants container with
      | true =>
          obtain ⟨o, ho, haction, -, heq⟩ := receive_wanted policy hnew hwants now
          exact .of_decision ho (haction ▸ .head _) heq
      | false =>
          obtain ⟨o, ho, haction, -, heq⟩ := receive_unwanted policy hnew hwants now
          exact .of_decision ho (.tail _ haction) heq

theorem decisions_receiveEach (s : Scheduler) (now : Instant) (containers : List Container) :
    DecisionsAmong policy grantActions s (containers.foldl (fun s c => s.receive now c) s) :=
  .foldl (fun s c => decisions_receive s now c) containers s

/-- What was granted is received, and then there is a walk at most. -/
theorem decisions_walkAfter (s : Scheduler) (cx : Context) (containers : List Container) :
    DecisionsAmong policy walkActions (containers.foldl (fun s c => s.receive cx.now c) s)
      (s.receiveAll cx containers) := by
  simp only [receiveAll]
  split
  · exact .refl _
  · exact decisions_preemptQuietly _ cx

theorem decisions_receiveAll (s : Scheduler) (cx : Context) (containers : List Container) :
    DecisionsAmong policy (grantActions ++ walkActions) s (s.receiveAll cx containers) :=
  ((decisions_receiveEach s cx.now containers).mono (List.subset_append_left ..)).trans
    ((decisions_walkAfter s cx containers).mono (List.subset_append_right ..))

/-! ## Completed containers -/

theorem decisions_complete (s : Scheduler) (now : Instant) (status : ContainerStatus) :
    DecisionsAmong policy [none, some .completed] s (s.complete now status) := by
  unfold complete
  split
  · next h =>
    have hunheld := Ledger.complete_error h
    obtain rfl := Ledger.atomic_complete _ _ h
    exact .of_decision (.unawait hunheld) (.head _) (by simp [adopt])
  · next h => exact .of_decision (.complete now h) (.tail _ (.head _)) rfl

/-! ## Notices that are refused -/

theorem decisions_giveUpUnheard (s : Scheduler) (now : Instant) (notice : Notice) :
    DecisionsAmong policy [some .released] s (s.giveUpUnheard now notice) := by
  unfold giveUpUnheard
  split
  · split
    · exact decisions_releaseHeld s now _ _
    · exact .refl s
  · split
    · exact decisions_releaseHeld s now _ _
    · exact .refl s
  · exact .refl s

/-! ## New requests -/

/-- Record a request under the next cookie. -/
def enter (s : Scheduler) (request : TaskRequest) : Scheduler :=
  { s with ledger := (s.ledger.add request).2 }

theorem get?_enter (s : Scheduler) (request : TaskRequest) :
    (s.enter request).ledger.entries.get? ⟨s.ledger.nextCookie⟩ = some ⟨request, .pending⟩ :=
  SortedMap.get?_insert_self ..

theorem lookup_enter (s : Scheduler) (request : TaskRequest) :
    (s.enter request).ledger.lookup ⟨s.ledger.nextCookie⟩ = .ok request := by
  simp [Ledger.lookup, s.get?_enter request]

/-- The cookie is the next one, and its request was handed a container or submitted by a
first decision. -/
structure TakenUp (cx : Context) (s : Scheduler) (request : TaskRequest)
    (answer : Except SchedulerError Cookie × Scheduler) : Prop where
  cookie : answer.1 = .ok ⟨s.ledger.nextCookie⟩
  settled : ∃ o, Decision cx.policy (s.enter request) o ∧
    o.action? ∈ [some .requested, some .reused] ∧
    o.ledger.phase? ⟨s.ledger.nextCookie⟩ ≠ some .pending ∧
    DecisionsAmong cx.policy walkActions ((s.enter request).adopt o) answer.2

/-- The cluster is asked on behalf of a new request, and then containers are taken back. -/
theorem place_none (s : Scheduler) (cx : Context) (request : TaskRequest) :
    ∃ o, Decision cx.policy (s.enter request) o ∧ o.action? = some .requested ∧
      (s.enter request).ledger.markRequested ⟨s.ledger.nextCookie⟩
        (request.tiers ⟨s.ledger.nextCookie⟩) = (.ok (), o.ledger) ∧
      (s.enter request).place cx ⟨s.ledger.nextCookie⟩ request none =
        (.ok ⟨s.ledger.nextCookie⟩, ((s.enter request).adopt o).preemptQuietly cx) := by
  have hpending := s.get?_enter request
  obtain ⟨ledger, hledger⟩ : ∃ ledger, (s.enter request).ledger.markRequested
      ⟨s.ledger.nextCookie⟩ (request.tiers ⟨s.ledger.nextCookie⟩) = (.ok (), ledger) := by
    simp [Ledger.markRequested, hpending]
  refine ⟨_, .ask cx.now hpending hledger, rfl, hledger, ?_⟩
  simp only [place, askCluster, s.lookup_enter request, hledger, foldl_queue]
  rfl

theorem decisions_place_none (s : Scheduler) (cx : Context) (request : TaskRequest) :
    DecisionsAmong cx.policy (some .requested :: walkActions) (s.enter request)
      ((s.enter request).place cx ⟨s.ledger.nextCookie⟩ request none).2 := by
  obtain ⟨o, ho, hkind, -, hplace⟩ := s.place_none cx request
  have hasked : DecisionsAmong cx.policy (some .requested :: walkActions) (s.enter request)
      ((s.enter request).adopt o) := .of_decision ho (hkind ▸ .head _) rfl
  rw [hplace]
  exact hasked.trans ((decisions_preemptQuietly _ cx).mono (List.subset_cons_self ..))

theorem takenUp_place_none (s : Scheduler) (cx : Context) (request : TaskRequest) :
    TakenUp cx s request
      ((s.enter request).place cx ⟨s.ledger.nextCookie⟩ request none) := by
  obtain ⟨o, ho, hkind, hledger, hplace⟩ := s.place_none cx request
  have hasked : o.ledger.phase? ⟨s.ledger.nextCookie⟩ ≠ some .pending := by
    rw [Ledger.phase?_markRequested hledger, if_pos rfl]
    simp
  rw [hplace]
  exact ⟨rfl, o, ho, by simp [hkind], hasked, decisions_preemptQuietly _ cx⟩

/-- The container that is picked for a new request is handed to it. -/
theorem place_some {s : Scheduler} {cx : Context} (hl : s.ledger.Coherent)
    {request : TaskRequest} {id : ContainerId}
    (hpick : pickIdle? cx.policy.matcher request s.ledger.holdings = .ok (some id)) :
    ∃ h ledger container, s.ledger.held.get? id = some h ∧ h.isIdle = true ∧
      h.container.resource.covers request.capability = true ∧
      cx.policy.matcher.superset (some h.signature) (some request.signature) = .ok true ∧
      (s.enter request).ledger.assignIdle cx.now ⟨s.ledger.nextCookie⟩ id =
        (.ok (container, .pending), ledger) ∧
      (s.enter request).place cx ⟨s.ledger.nextCookie⟩ request (some id) =
        (.ok ⟨s.ledger.nextCookie⟩, { s.enter request with ledger }.reuse cx.now request.task
          ⟨s.ledger.nextCookie⟩ container) := by
  have hpending := s.get?_enter request
  obtain ⟨h, hmem, hid, hidle, hlarge, hserves⟩ := pickIdle?_sound hpick
  have hheld : s.ledger.held.get? id = some h := by
    -- the holding was found among the values, and it lies under its own name
    obtain ⟨k, hk⟩ := s.ledger.held.mem_values_iff.mp hmem
    have hkey : id = k := hid ▸ hl.keyed k h hk
    exact hkey ▸ hk
  have hstill : (s.enter request).ledger.held.get? id = some h := hheld
  obtain ⟨container, previous, ledger, hledger⟩ : ∃ container previous ledger,
      (s.enter request).ledger.assignIdle cx.now ⟨s.ledger.nextCookie⟩ id =
        (.ok (container, previous), ledger) := by
    simp [Ledger.assignIdle, hstill, hidle, hpending, Phase.container?]
  have hprevious : previous = .pending := by
    obtain ⟨entry, held, hentry, -, -, -, hstate, -, -⟩ := Ledger.assignIdle_ok hledger
    rw [hpending] at hentry
    cases hentry
    exact hstate
  subst hprevious
  exact ⟨h, ledger, container, hheld, hidle, hlarge, hserves, hledger,
    by simp only [place, hledger]⟩

theorem decisions_place_some {s : Scheduler} {cx : Context} (hl : s.ledger.Coherent)
    {request : TaskRequest} {id : ContainerId}
    (hpick : pickIdle? cx.policy.matcher request s.ledger.holdings = .ok (some id)) :
    DecisionsAmong cx.policy [some .reused] (s.enter request)
      ((s.enter request).place cx ⟨s.ledger.nextCookie⟩ request (some id)).2 := by
  obtain ⟨h, ledger, container, hheld, -, hlarge, hserves, hledger, hplace⟩ := place_some hl hpick
  rw [hplace]
  exact .of_decision (.hand cx.now (s.lookup_enter request) hheld hlarge hserves hledger)
    (.head _) rfl

theorem takenUp_place_some {s : Scheduler} {cx : Context} (hl : s.ledger.Coherent)
    {request : TaskRequest} {id : ContainerId}
    (hpick : pickIdle? cx.policy.matcher request s.ledger.holdings = .ok (some id)) :
    TakenUp cx s request
      ((s.enter request).place cx ⟨s.ledger.nextCookie⟩ request (some id)) := by
  obtain ⟨h, ledger, container, hheld, -, hlarge, hserves, hledger, hplace⟩ :=
    place_some hl hpick
  have hdecision : Decision cx.policy _ _ :=
    .hand cx.now (s.lookup_enter request) hheld hlarge hserves hledger
  have hgiven : ledger.phase? ⟨s.ledger.nextCookie⟩ ≠ some .pending := by
    rw [Ledger.phase?_assignIdle hledger, if_pos rfl]
    simp
  -- the cluster was never asked for a request this young, so nothing is withdrawn
  rw [hplace]
  exact ⟨rfl, _, hdecision, .tail _ (.head _), hgiven, .refl _⟩

/-- A request is refused, and nothing changes, or it is recorded and a container for it is
looked for. -/
theorem request_cases (s : Scheduler) (cx : Context) (request : TaskRequest) :
    (∃ cause, s.request cx request = (.error cause, s)) ∨
      ∃ reusable, s.reusable? cx request = .ok reusable ∧ s.request cx request =
        (s.enter request).place cx ⟨s.ledger.nextCookie⟩ request reusable := by
  cases hmax : s.maxCapability.filter fun max => !max.covers request.capability with
  | some max => exact .inl ⟨_, by simp only [Scheduler.request, hmax]; rfl⟩
  | none =>
      cases hreuse : s.reusable? cx request with
      | error cause => exact .inl ⟨_, by simp only [Scheduler.request, hmax, hreuse]; rfl⟩
      | ok reusable =>
          refine .inr ⟨reusable, rfl, ?_⟩
          simp only [Scheduler.request, hmax, hreuse]
          rfl

/-- A container that is looked up for reuse was picked, and reuse is enabled. -/
theorem pickIdle?_of_reusable? {s : Scheduler} {cx : Context} {request : TaskRequest}
    {id : ContainerId} (h : s.reusable? cx request = .ok (some id)) :
    pickIdle? cx.policy.matcher request s.ledger.holdings = .ok (some id) := by
  unfold reusable? at h
  split at h
  · exact h
  · cases h

/-- A request is refused, and nothing changes, or it is taken up. -/
theorem request_spec {s : Scheduler} (cx : Context) (hl : s.ledger.Coherent)
    (request : TaskRequest) :
    (∃ cause, s.request cx request = (.error cause, s)) ∨
      TakenUp cx s request (s.request cx request) := by
  refine (s.request_cases cx request).imp_right fun ⟨reusable, hreuse, hplace⟩ => ?_
  rw [hplace]
  -- from here on the cookie is issued, and some branch must answer for it
  cases reusable with
  | none => exact takenUp_place_none s cx request
  | some id => exact takenUp_place_some hl (pickIdle?_of_reusable? hreuse)

end TaskFleet.Scheduler
