import TaskFleet.Proofs.Scheduler.Expiry
import TaskFleet.Proofs.Scheduler.Stopped

/-!
# What a stopped scheduler spares

Containers are taken back for waiting requests by the walk, and four operations can enter it.
A request is refused once the scheduler was stopped, and what was granted and the housekeeping
do without the walk then.  `preemptIfNeeded` does not look whether the scheduler was stopped
(`preempted_after_stop`).  Everything else spares whoever runs.

The argument is about two things that a decision says of itself: the container that it is
recorded for, and whether it is recorded as taking that container from a running task.  A
decision leaves every other container as it is held (`Decision.holding_of_ne`), and only one that
takes away makes a container leave (`Decision.leaving_of_untaken`).  So for each operation it is
enough to say whom it may free of a container (`Operation.Frees`): the task that is done, whoever
has the container that the application names or that has completed, and what has been idle for too
long.  A container that is not held is nobody's, and may be received.

What is said of a container afterwards, while effects are carried out, is said because a notice
about it is refused, and a notice is about a container that was at risk (`Flushes.spared`).
-/

namespace TaskFleet

/-- A decision is about a container in `P`, if it is about one, and takes none from a task. -/
structure Outcome.Spares (P : ContainerId → Prop) (o : Outcome) : Prop where
  within : ∀ k, o.container? = some k → P k
  untaken : o.action? ≠ some .preempted

namespace Scheduler

variable {policy : Policy} {s t u : Scheduler} {o : Outcome} {k : ContainerId} {c : Cookie}
  {P Q : ContainerId → Prop}

/-! ## What one decision does to the other containers -/

/-- A decision changes only the holding of the container that it is recorded for. -/
theorem Decision.holding_of_ne (h : Decision policy s o) (hs : s.ledger.Coherent)
    (hk : o.container? ≠ some k) : o.ledger.held.get? k = s.ledger.held.get? k := by
  cases h with
  | ask now hpending hledger => rw [Ledger.held_markRequested hledger]
  | hand now hrequest hheld hlarge hserves hledger =>
      obtain ⟨entry, held, -, -, hheld, -, -, rfl, rfl⟩ := Ledger.assignIdle_ok hledger
      have hne : held.container.id ≠ k := fun heq => hk (congrArg some heq)
      rw [hs.keyed _ held hheld] at hne
      exact SortedMap.get?_insert_ne _ _ (Ne.symm hne)
  | grant now hwanted hrequest hledger hheld =>
      obtain ⟨entry, -, -, -, -, rfl⟩ := Ledger.allocate_ok hledger
      exact SortedMap.get?_insert_ne _ _ fun heq => hk (congrArg some heq.symm)
  | withdraw now hwaiting hledger =>
      -- a waiting request has no container to vacate
      obtain ⟨entry, -, -, hprevious, -, -, hheld⟩ := Ledger.remove_ok hledger
      have hfree : entry.phase.container? = none :=
        entry.phase.isOutstanding_iff.mp (by rw [hprevious] at hwaiting; exact hwaiting)
      rw [hheld, if_neg (by simp [hfree])]
  | retire now hrunning hledger =>
      obtain ⟨entry, hentry, -, -, -, -, hheld⟩ := Ledger.remove_ok hledger
      rw [Ledger.phase?_of_get? hentry, Option.some.injEq] at hrunning
      have hother : (Phase.allocated _).container? ≠ some k := hk
      rw [hheld, hrunning, if_neg hother]
  | turnAway => rfl
  | announce now detail hledger =>
      obtain ⟨held, -, -, rfl⟩ := Ledger.beginRelease_ok hledger
      exact SortedMap.get?_insert_ne _ _ fun heq => hk (congrArg some heq.symm)
  | giveBack now reason hledger =>
      obtain ⟨held, -, -, -, -, hafter, -⟩ := Ledger.release_ok hledger
      rw [hafter]
      exact SortedMap.get?_insert_ne _ _ fun heq => hk (congrArg some heq.symm)
  | complete now hledger =>
      obtain ⟨held, -, -, -, -, hafter, -⟩ := Ledger.complete_ok hledger
      rw [hafter, SortedMap.get?_erase, if_neg fun heq => hk (congrArg some heq.symm)]
  | unawait => rfl
  | forget => rfl
  | news => rfl

/-- Only to take a container from a task makes it leave. -/
theorem Decision.leaving_of_untaken (h : Decision policy s o) (hs : s.ledger.Coherent)
    (hspared : o.action? ≠ some .preempted)
    (hleaving : o.ledger.assignment? k = some (.beingReleased c)) :
    s.ledger.assignment? k = some (.beingReleased c) := by
  by_cases hk : o.container? = some k
  · -- what the decision is about runs, is idle, has gone back or has gone
    cases h with
    | ask | withdraw | unawait | forget | news => cases hk
    | hand now hrequest hheld hlarge hserves hledger =>
        obtain ⟨entry, held, -, -, hheld, -, -, hcontainer, -⟩ := Ledger.assignIdle_ok hledger
        have hid := hs.keyed _ held hheld
        rw [Ledger.assignment?_assignIdle hledger, if_pos] at hleaving
        · cases hleaving
        · rw [← hid]
          subst hcontainer
          exact (Option.some.inj hk).symm
    | grant now hwanted hrequest hledger hheld =>
        rw [Ledger.assignment?_allocate hledger, if_pos (Option.some.inj hk).symm] at hleaving
        cases hleaving
    | @retire cookie id ledger removed now hrunning hledger =>
        cases Option.some.inj hk
        have howned : s.ledger.containerOf? cookie = some k := by
          rw [Ledger.containerOf?_eq, hrunning]
          rfl
        rw [Ledger.assignment?_remove hledger, if_pos howned,
          (hs.active cookie k).mp hrunning] at hleaving
        cases hleaving
    | turnAway => exact hleaving
    | announce => exact absurd rfl hspared
    | giveBack now reason hledger =>
        rw [Ledger.assignment?_release hledger, if_pos (Option.some.inj hk).symm] at hleaving
        cases hleaving
    | complete now hledger =>
        rw [Ledger.assignment?_complete hledger, if_pos (Option.some.inj hk).symm] at hleaving
        cases hleaving
  · have hsame := h.holding_of_ne hs hk
    rw [Ledger.assignment?, hsame] at hleaving
    exact hleaving

/-- What a decision is recorded as is the action of its record. -/
theorem Decision.action_of_mem (h : Decision policy s o) {r : AuditRecord}
    (hr : r ∈ o.records) : o.action? = some r.action := by
  cases h with
  | unawait | forget | news => cases hr
  | _ =>
      cases List.mem_singleton.mp hr
      rfl

/-! ## What is kept -/

/-- From `s` to `t` nothing is done to a container outside of `P`, and no container is taken
from a running task. -/
structure Spared (P : ContainerId → Prop) (s t : Scheduler) : Prop where
  /-- Other containers are held as before. -/
  holding : ∀ k, ¬ P k → t.ledger.held.get? k = s.ledger.held.get? k
  /-- What is on its way out was so before. -/
  leaving : ∀ k c, t.ledger.assignment? k = some (.beingReleased c) →
    s.ledger.assignment? k = some (.beingReleased c)
  records : ∃ rs, t.trail = s.trail ++ rs ∧ ∀ r ∈ rs, r.action ≠ .preempted
  effects : ∃ es, t.journal = s.journal ++ es ∧ (∀ k, ¬ P k → words k es = []) ∧
    ∀ k, .beingReleased ∉ words k es

namespace Spared

theorem of_eq (hledger : t.ledger = s.ledger) (htrail : t.trail = s.trail)
    (hjournal : t.journal = s.journal) : Spared P s t where
  holding k _ := by rw [hledger]
  leaving k c h := hledger ▸ h
  records := ⟨[], by rw [htrail, List.append_nil], nofun⟩
  effects := ⟨[], by rw [hjournal, List.append_nil], fun _ _ => rfl, fun _ => nofun⟩

theorem refl (s : Scheduler) : Spared P s s :=
  of_eq rfl rfl rfl

theorem takeUp {e : Effect} (h : s.takeUp? = some (e, t)) : Spared P s t :=
  of_eq (ledger_takeUp? h) (trail_takeUp? h) (journal_takeUp? h)

theorem trans (h : Spared P s t) (h' : Spared P t u) : Spared P s u where
  holding k hk := (h'.holding k hk).trans (h.holding k hk)
  leaving k c hleaving := h.leaving k c (h'.leaving k c hleaving)
  records := by
    obtain ⟨rs, htrail, hrs⟩ := h.records
    obtain ⟨rs', htrail', hrs'⟩ := h'.records
    refine ⟨rs ++ rs', by rw [htrail', htrail, List.append_assoc], fun r hr => ?_⟩
    exact (List.mem_append.mp hr).elim (hrs r) (hrs' r)
  effects := by
    obtain ⟨es, hjournal, houtside, hquiet⟩ := h.effects
    obtain ⟨es', hjournal', houtside', hquiet'⟩ := h'.effects
    refine ⟨es ++ es', by rw [hjournal', hjournal, List.append_assoc], fun k hk => ?_,
      fun k hmem => ?_⟩
    · rw [words_append, houtside k hk, houtside' k hk, List.append_nil]
    · rw [words_append] at hmem
      exact (List.mem_append.mp hmem).elim (hquiet k) (hquiet' k)

theorem mono (h : Spared P s t) (hsub : ∀ k, P k → Q k) : Spared Q s t where
  holding k hk := h.holding k fun hP => hk (hsub k hP)
  leaving := h.leaving
  records := h.records
  effects := by
    obtain ⟨es, hjournal, houtside, hquiet⟩ := h.effects
    exact ⟨es, hjournal, fun k hk => houtside k fun hP => hk (hsub k hP), hquiet⟩

theorem mem_recordsSince (h : Spared P s t) {r : AuditRecord} (hr : r ∈ t.recordsSince s) :
    r.action ≠ .preempted := by
  obtain ⟨rs, htrail, hrs⟩ := h.records
  rw [recordsSince, htrail, List.drop_left] at hr
  exact hrs r hr

end Spared

theorem Decision.spared (h : Decision policy s o) (hs : s.ledger.Coherent) (ho : o.Spares P) :
    Spared P s (s.adopt o) where
  holding k hk := h.holding_of_ne hs fun hcontainer => hk (ho.within k hcontainer)
  leaving k c hleaving := h.leaving_of_untaken hs ho.untaken hleaving
  records := by
    refine ⟨o.records, rfl, fun r hr haction => ho.untaken ?_⟩
    rw [h.action_of_mem hr, haction]
  effects := by
    refine ⟨o.effects, by simp [Scheduler.journal, adopt], fun k hk => ?_, fun k hword => ?_⟩
    · rw [h.words_eq hs, if_neg fun hcontainer => hk (ho.within k hcontainer)]
    · obtain ⟨-, hsaid⟩ := (h.mem_words_iff hs).mp hword
      obtain ⟨action, haction, hsaid⟩ := Option.bind_eq_some_iff.mp hsaid
      have htaken : action = .preempted := by
        cases action <;> simp [AuditAction.word?] at hsaid ⊢
      exact ho.untaken (htaken ▸ haction)

/-- From `s` the scheduler comes to `t` by decisions that spare what is outside of `P`. -/
def DecisionsSparing (policy : Policy) (P : ContainerId → Prop) (s t : Scheduler) : Prop :=
  Relation.ReflTransGen (fun s t => ∃ o, Decision policy s o ∧ o.Spares P ∧ t = s.adopt o) s t

namespace DecisionsSparing

theorem refl (s : Scheduler) : DecisionsSparing policy P s s :=
  Relation.ReflTransGen.refl

theorem trans (h : DecisionsSparing policy P s t) (h' : DecisionsSparing policy P t u) :
    DecisionsSparing policy P s u :=
  Relation.ReflTransGen.trans h h'

theorem of_decision (h : Decision policy s o) (ho : o.Spares P) (ht : t = s.adopt o) :
    DecisionsSparing policy P s t :=
  .single ⟨o, h, ho, ht⟩

theorem mono (h : DecisionsSparing policy P s t) (hsub : ∀ k, P k → Q k) :
    DecisionsSparing policy Q s t := by
  induction h with
  | refl => exact refl s
  | tail _ hlast ih =>
      obtain ⟨o, ho, hspares, ht⟩ := hlast
      exact ih.trans
        (of_decision ho ⟨fun k hk => hsub k (hspares.within k hk), hspares.untaken⟩ ht)

/-- To ask the cluster, to withdraw what it was asked for, and what leaves no record is about no
container. -/
theorem of_decisions
    (h : DecisionsAmong policy [none, some .requested, some .withdrawn] s t) :
    DecisionsSparing policy P s t := by
  refine h.keeps (P := DecisionsSparing policy P s) (fun t o ho haction hst => ?_) (refl s)
  have hnowhere : o.container? = none ∧ o.action? ≠ some .preempted := by
    cases ho with
    | ask | withdraw | unawait | forget | news => exact ⟨rfl, nofun⟩
    | turnAway now cookie detail hnew hkind =>
        rcases hkind with rfl | rfl <;> simp [Outcome.action?] at haction
    | _ => simp [Outcome.action?] at haction
  refine hst.trans (of_decision ho ⟨fun k hk => ?_, hnowhere.2⟩ rfl)
  rw [hnowhere.1] at hk
  cases hk

theorem coherent_spared (h : DecisionsSparing policy P s t) (hs : s.ledger.Coherent) :
    t.ledger.Coherent ∧ Spared P s t := by
  induction h with
  | refl => exact ⟨hs, .refl s⟩
  | tail _ hlast ih =>
      obtain ⟨o, ho, hspares, rfl⟩ := hlast
      exact ⟨ho.coherent ih.1, ih.2.trans (ho.spared ih.1 hspares)⟩

theorem spared (h : DecisionsSparing policy P s t) (hs : s.ledger.Coherent) : Spared P s t :=
  (h.coherent_spared hs).2

end DecisionsSparing

/-! ## Who can lose a container -/

/-- Somebody who has the container `k`, as it is assigned, may lose it by the operation: the task
is done, the container is given back or has completed, or it has been idle for too long. -/
inductive Operation.Frees (k : ContainerId) (a : Assignment) : Operation → Prop
  | task {cookie : Cookie} (succeeded : Bool) (h : a.owner? = some cookie) :
      Frees k a (.deallocateTask cookie succeeded)
  | container : Frees k a (.deallocateContainer k)
  | completion {statuses : List ContainerStatus}
      (h : k ∈ statuses.map ContainerStatus.container) : Frees k a (.hear (.completed statuses))
  | expiry {timeout : UInt64} {asOf since : Instant} (h : a = .idle since)
      (hlong : timeout.toNat ≤ asOf.ms - since.ms) : Frees k a (.releaseExpired timeout asOf)

/-- If anybody has the container, one of the operations may free it. -/
def AtRisk (ops : List Operation) (s : Scheduler) (k : ContainerId) : Prop :=
  ∀ a, s.ledger.assignment? k = some a → ∃ op ∈ ops, op.Frees k a

theorem atRisk_of_frees {op : Operation}
    (h : ∀ a, s.ledger.assignment? k = some a → op.Frees k a) : AtRisk [op] s k :=
  fun a ha => ⟨op, .head _, h a ha⟩

theorem atRisk_of_absent {ops : List Operation} (h : s.ledger.held.get? k = none) :
    AtRisk ops s k := by
  intro a ha
  rw [Ledger.assignment?, h] at ha
  cases ha

/-- What was spared at first is at risk by the operations that follow. -/
theorem Spared.append {ops ops' : List Operation} (h : Spared (AtRisk ops s) s t)
    (h' : Spared (AtRisk ops' t) t u) : Spared (AtRisk (ops ++ ops') s) s u := by
  have hfirst : ∀ k, AtRisk ops s k → AtRisk (ops ++ ops') s k := fun k hk a ha => by
    obtain ⟨op, hmem, hfrees⟩ := hk a ha
    exact ⟨op, List.mem_append_left _ hmem, hfrees⟩
  refine (h.mono hfirst).trans (h'.mono fun k hk => ?_)
  by_cases hbefore : AtRisk ops s k
  · exact hfirst k hbefore
  · intro a ha
    rw [Ledger.assignment?, ← h.holding k hbefore] at ha
    obtain ⟨op, hmem, hfrees⟩ := hk a ha
    exact ⟨op, List.mem_append_right _ hmem, hfrees⟩

/-! ## What the functions of the scheduler spare -/

namespace DecisionsSparing

theorem releaseHeld (s : Scheduler) (now : Instant) (reason : String) (hk : P k) :
    DecisionsSparing policy P s (s.releaseHeld now k reason).2 := by
  rcases s.releaseHeld_cases now k reason with hsame | ⟨task, ledger, h, hback⟩
  · rw [hsame]
    exact .refl s
  · refine .of_decision (.giveBack now reason h) ⟨fun _ heq => ?_, nofun⟩ hback
    exact Option.some.inj heq ▸ hk

theorem deallocateContainer (s : Scheduler) (cx : Context) (hk : P k) :
    DecisionsSparing policy P s (s.deallocateContainer cx k).2 := by
  rw [deallocateContainer_eq_releaseHeld]
  exact releaseHeld s cx.now _ hk

theorem releaseEach (s : Scheduler) (now : Instant) (reason : String) {ids : List ContainerId}
    (hids : ∀ k ∈ ids, P k) : DecisionsSparing policy P s (s.releaseEach now reason ids).2 := by
  induction ids generalizing s with
  | nil => exact .refl s
  | cons id ids ih =>
      exact (releaseHeld s now reason (hids id (.head _))).trans
        (ih _ fun k hk => hids k (.tail _ hk))

/-- What is handed to another request is the container that is offered. -/
theorem offerIdle (hs : s.ledger.Coherent) (cx : Context) (hk : P k) :
    DecisionsSparing cx.policy P s (s.offerIdle cx k).2 := by
  rcases s.offerIdle_cases cx k with hstays | ⟨o, h, ho, haction, hheld, hcontainer, heq⟩
  · rw [hstays]
    exact .refl s
  · refine .of_decision ho ⟨fun id hid => ?_, by simp [haction]⟩ heq
    rw [hcontainer, hs.keyed k h hheld] at hid
    exact Option.some.inj hid ▸ hk

theorem retain (hs : s.ledger.Coherent) (cx : Context)
    (hrunning : s.ledger.phase? c = some (.allocated k)) (hk : P k) :
    DecisionsSparing cx.policy P s (s.retain cx c k).2 := by
  unfold Scheduler.retain
  split
  · next hledger =>
    obtain rfl := Ledger.atomic_remove _ _ hledger
    exact .refl s
  · next removed ledger hledger =>
    have hretire : Decision cx.policy s _ := .retire cx.now hrunning hledger
    have hkept : ledger.Coherent := hretire.coherent hs
    have hoffer := offerIdle (s := { s with ledger }.note cx.now .idled (some c)
      (some removed.request.task) (some k) none) hkept cx hk
    refine (of_decision hretire ⟨fun _ heq => Option.some.inj heq ▸ hk, nofun⟩ rfl).trans ?_
    -- an offer that fails leaves the container idle
    simp only [adopt, List.append_nil]
    split
    · next hanswer =>
      rw [hanswer] at hoffer
      exact hoffer
    · next hanswer =>
      rw [hanswer] at hoffer
      exact hoffer

theorem deallocateTask (hs : s.ledger.Coherent) (cx : Context) (succeeded : Bool)
    (hk : ∀ k, s.ledger.containerOf? c = some k → P k) :
    DecisionsSparing cx.policy P s (s.deallocateTask cx c succeeded).2 := by
  unfold Scheduler.deallocateTask
  split
  · exact .refl s
  · next entry hentry =>
    have hphase := Ledger.phase?_of_get? hentry
    have hwithdrawn : ∀ phase : Phase, entry.phase = phase → phase.isOutstanding = true →
        DecisionsSparing cx.policy P s (s.withdraw cx c).2 := fun phase h hwaiting =>
      of_decisions ((decisions_withdraw s cx (h ▸ hphase) hwaiting).mono (by simp))
    split
    · next h => exact hwithdrawn _ h rfl
    · next h => exact hwithdrawn _ h rfl
    · next id h =>
      have howned : P id := hk id (by rw [Ledger.containerOf?_eq, hphase, h]; rfl)
      split
      · exact retain hs cx (h ▸ hphase) howned
      · exact releaseHeld s cx.now _ howned
    · next id h =>
      exact releaseHeld s cx.now _ (hk id (by rw [Ledger.containerOf?_eq, hphase, h]; rfl))

theorem receive (s : Scheduler) (now : Instant) {container : Container}
    (hk : s.ledger.held.get? container.id = none → P container.id) :
    DecisionsSparing policy P s (s.receive now container) := by
  cases hheld : s.ledger.held.contains container.id with
  | true =>
      rw [receive_held hheld]
      exact .refl s
  | false =>
      have hnew := s.ledger.held.contains_eq_false_iff.mp hheld
      have hspares : ∀ o : Outcome, o.container? = some container.id →
          o.action? ≠ some .preempted → o.Spares P := fun o hcontainer htaken =>
        ⟨fun id hid => Option.some.inj (hcontainer.symm.trans hid) ▸ hk hnew, htaken⟩
      cases hwants : s.wants container with
      | true =>
          obtain ⟨o, ho, haction, hcontainer, heq⟩ := receive_wanted policy hnew hwants now
          exact .of_decision ho (hspares o hcontainer (by simp [haction])) heq
      | false =>
          obtain ⟨o, ho, haction, hcontainer, heq⟩ := receive_unwanted policy hnew hwants now
          refine .of_decision ho (hspares o hcontainer fun htaken => ?_) heq
          simp [htaken] at haction

/-- Only containers that are new are received. -/
theorem receiveEach (hs : s.ledger.Coherent) (now : Instant) {containers : List Container}
    (hnew : ∀ k, s.ledger.held.get? k = none → P k) :
    DecisionsSparing policy P s (containers.foldl (fun s c => s.receive now c) s) := by
  induction containers generalizing s with
  | nil => exact .refl s
  | cons container rest ih =>
      have hfirst : DecisionsSparing policy P s (s.receive now container) :=
        receive s now (hnew container.id)
      obtain ⟨hcoherent, hspared⟩ := hfirst.coherent_spared hs
      refine hfirst.trans (ih hcoherent fun k hk => ?_)
      -- what is not held now was not held before, or it is one of those anyway
      by_cases hP : P k
      · exact hP
      · exact hnew k ((hspared.holding k hP).symm.trans hk)

theorem complete (s : Scheduler) (now : Instant) {status : ContainerStatus}
    (hk : P status.container) : DecisionsSparing policy P s (s.complete now status) := by
  unfold Scheduler.complete
  split
  · next h =>
    have hunheld := Ledger.complete_error h
    obtain rfl := Ledger.atomic_complete _ _ h
    exact .of_decision (.unawait hunheld)
      ⟨by rintro _ ⟨⟩, by rintro ⟨⟩⟩ (by simp [adopt])
  · next h =>
    exact .of_decision (.complete now h)
      ⟨fun _ heq => Option.some.inj heq ▸ hk, by rintro ⟨⟩⟩ rfl

theorem completeEach (s : Scheduler) (now : Instant) {statuses : List ContainerStatus}
    (hk : ∀ status ∈ statuses, P status.container) :
    DecisionsSparing policy P s (statuses.foldl (fun s status => s.complete now status) s) := by
  induction statuses generalizing s with
  | nil => exact .refl s
  | cons status rest ih =>
      exact (complete s now (hk status (.head _))).trans
        (ih _ fun status' h => hk status' (.tail _ h))

/-- What a refusal gives back is the container that the notice was about. -/
theorem giveUpUnheard (s : Scheduler) (now : Instant) {notice : Notice}
    (hk : ∀ k, notice.container? = some k → P k) :
    DecisionsSparing policy P s (s.giveUpUnheard now notice) := by
  unfold Scheduler.giveUpUnheard
  split
  · split
    · exact releaseHeld s now _ (hk _ rfl)
    · exact .refl s
  · split
    · exact releaseHeld s now _ (hk _ rfl)
    · exact .refl s
  · exact .refl s

end DecisionsSparing

/-- An operation of a stopped scheduler that is not asked to take containers back spares
everybody who is not at risk by it. -/
theorem sparing_after (hs : s.ledger.Coherent) (hstopped : s.stopped = true) (cx : Context)
    {op : Operation} (hrequest : op.isRequest = false) (hop : op ≠ .preempt) :
    DecisionsSparing cx.policy (AtRisk [op] s) s (s.after cx op) := by
  cases op with
  | request => cases hrequest
  | preempt => exact absurd rfl hop
  | deallocateTask cookie succeeded =>
      refine .deallocateTask hs cx succeeded fun k hk => atRisk_of_frees fun a ha => ?_
      have howner := (hs.containerOf?_eq_iff cookie k).mp hk
      rw [Ledger.ownerOf?, ha] at howner
      exact .task succeeded howner
  | deallocateContainer id =>
      exact .deallocateContainer s cx (atRisk_of_frees fun a _ => .container)
  | releaseExpired timeout asOf =>
      refine .releaseEach s cx.now _ fun k hk => atRisk_of_frees fun a ha => ?_
      obtain ⟨h, since, hheld, hidle, hlong⟩ :=
        (Ledger.Keyed.mem_expiredIdle_iff hs.keyed).mp hk
      rw [Ledger.assignment?_of_get? hheld, hidle] at ha
      exact .expiry (Option.some.inj ha).symm hlong
  | housekeep asOf =>
      have hstill : (s.forgetReturned cx asOf).stopped = true := hstopped
      rw [after, if_pos hstill]
      exact .of_decisions ((decisions_forgetReturned s cx asOf).mono (by simp))
  | hear event =>
      cases event with
      | allocated containers =>
          have hstill : (containers.foldl (fun s c => s.receive cx.now c) s).stopped = true := by
            have hreceived : DecisionsAmong cx.policy grantActions s _ :=
              decisions_receiveEach s cx.now containers
            exact hreceived.keeps (P := fun t => t.stopped = true) (fun _ _ _ _ h => h) hstopped
          show DecisionsSparing cx.policy _ s (s.receiveAll cx containers)
          rw [receiveAll, if_pos hstill]
          exact .receiveEach hs cx.now fun k hk => atRisk_of_absent hk
      | completed statuses =>
          refine .completeEach s cx.now fun status hmem => atRisk_of_frees fun a _ => ?_
          exact .completion (List.mem_map.mpr ⟨status, hmem, rfl⟩)
      | nodesUpdated reports =>
          exact .of_decisions ((decisions_news s rfl).mono (by simp))
      | shutdownRequested => exact .of_decisions ((decisions_news s rfl).mono (by simp))
      | failure cause => exact .of_decisions ((decisions_news s rfl).mono (by simp))

end Scheduler

/-! ## While effects are carried out -/

namespace Courier

open Scheduler

variable {policy : Policy} {d d₁ d' : Courier} {P : ContainerId → Prop} {k : ContainerId}

/-- A notice about a container says a word about it. -/
theorem container?_ne_of_words {notice : Notice} (h : words k [.notify notice] = []) :
    notice.container? ≠ some k := by
  intro hk
  cases notice <;> simp_all [words, Effect.word?, Notice.container?]

/-- What was spared when effects begin to be carried out is spared when they are: what is refused
then is a notice that has come since, and so it is about a container in `P`. -/
theorem Flushes.spared (hd : d.Reachable policy) (hrest : d.AtRest) (hbegin : d₁.Reachable policy)
    (hlog : d.log <+: d₁.log) (hspared : Spared P d.scheduler d₁.scheduler)
    (h : d₁.Flushes d') : Spared P d.scheduler d'.scheduler := by
  have hall : d'.Reachable policy ∧ d.log <+: d'.log ∧ Spared P d.scheduler d'.scheduler := by
    induction h with
    | refl => exact ⟨hbegin, hlog, hspared⟩
    | @tail e e' _ hlast ih =>
        obtain ⟨he, hlog, hspared⟩ := ih
        refine ⟨he.step (.carry hlast), hlog.trans hlast.log, hspared.trans ?_⟩
        cases hlast with
        | call hfree h => exact .takeUp h
        | handOver hfree h => exact .takeUp h
        | accept h => exact .refl _
        | @refuse notice hhand now cause =>
            obtain ⟨rows, hrows⟩ := hlog
            obtain ⟨es, hjournal, houtside, -⟩ := hspared.effects
            have hsince := hd.effectsSince hrest he hrows.symm
            rw [effectsSince_of_journal hjournal, hhand] at hsince
            have habout : ∀ k, notice.container? = some k → P k := by
              intro k hk
              refine Classical.byContradiction fun hP => ?_
              have hsilent := houtside k hP
              rw [hsince, words_append, words_append, List.append_eq_nil_iff,
                List.append_eq_nil_iff] at hsilent
              exact container?_ne_of_words hsilent.2.1 hk
            have hgiven : DecisionsSparing policy P e.scheduler
                (e.scheduler.giveUpUnheard now notice) := .giveUpUnheard _ now habout
            obtain ⟨reports, hkept⟩ :=
              (e.scheduler.giveUpUnheard now notice).keepReport_eq cause (undelivered notice cause)
            refine (hgiven.spared he.underway.coherent).trans ?_
            show Spared P _ (e.scheduler.refused now notice cause)
            rw [refused, hkept]
            exact .of_eq rfl rfl rfl
        | aside => exact .of_eq rfl rfl rfl
        | client => exact .refl _
  exact hall.2.2

end Courier

/-! ## Uses of a stopped scheduler -/

namespace Surroundings

variable {σ α : Type} {b : Books σ} {pool : σ → Pool α} {policy : Policy}
  {here : Surroundings σ} {w w' : Scheduler × σ}

/-- What goes on at a scheduler from `w` on, with all the uses that are made of it.  In between
whatever happens in its surroundings, where the cluster may say what it can still grant. -/
inductive Uses (here : Surroundings σ) (b : Books σ) (policy : Policy) (w : Scheduler × σ) :
    List Use → Scheduler × σ → Prop
  | refl : Uses here b policy w [] w
  | use {us : List Use} {w' : Scheduler × σ} (h : Uses here b policy w us w') (u : Use) :
      Uses here b policy w (us ++ [u]) (here.used policy u w')
  | meanwhile {us : List Use} {s : Scheduler} {x y : σ} (h : Uses here b policy w us (s, x))
      (hclient : (b.client y).outstanding = (b.client x).outstanding)
      (hlog : b.log y = b.log x) : Uses here b policy w us (s, y)

open Scheduler

theorem Stopped.uses (hhere : here.KeepsBooks b) (hw : Stopped b policy w) {us : List Use}
    (h : here.Uses b policy w us w') : Stopped b policy w' := by
  induction h with
  | refl => exact hw
  | use _ u ih => exact ih.used hhere u
  | meanwhile _ hclient hlog ih =>
      exact ⟨resting_of_eq ih.toResting ⟨_, _, _, _, _, rfl⟩ hclient hlog, ih.stopped⟩

theorem Stopped.spared_operate (hhere : here.KeepsBooks b) (hw : Stopped b policy w)
    {op : Scheduler.Operation} (hrequest : op.isRequest = false) (hop : op ≠ .preempt) :
    Spared (AtRisk [op] w.1) w.1 (here.operate policy op w).1 := by
  have hs : w.1.ledger.Coherent := hw.reachable.underway.coherent
  have hnext : op.isRequest = true → w.1.ledger.HasCookies := by simp [hrequest]
  obtain ⟨hflushes, -⟩ := hhere.operate hw.toResting op hnext
  have hdecided := sparing_after hs hw.stopped (here.context policy w.2) hrequest hop
  exact hflushes.spared hw.reachable hw.atRest (hw.reachable.use rfl hnext) (List.prefix_refl _)
    (hdecided.spared hs)

theorem Stopped.spared_operations (hhere : here.KeepsBooks b) (hw : Stopped b policy w)
    {ops : List Scheduler.Operation} (hrequest : ∀ op ∈ ops, op.isRequest = false)
    (hops : .preempt ∉ ops) :
    Spared (AtRisk ops w.1) w.1 (ops.foldl (fun w op => here.operate policy op w) w).1 := by
  induction ops generalizing w with
  | nil => exact .refl _
  | cons op ops ih =>
      have hop : op ≠ .preempt := fun heq => hops (heq ▸ .head _)
      have hfirst := hw.spared_operate hhere (hrequest op (.head _)) hop
      have hrest := ih (hw.operate hhere (hrequest op (.head _)))
        (fun op' h => hrequest op' (.tail _ h)) fun h => hops (.tail _ h)
      exact hfirst.append hrest

theorem Stopped.spared_used (hhere : here.KeepsBooks b) (hw : Stopped b policy w) {u : Use}
    (hu : .preempt ∉ u.operations policy) :
    Spared (AtRisk (u.operations policy) w.1) w.1 (here.used policy u w).1 := by
  rw [used_of_stopped hw.stopped]
  exact hw.spared_operations hhere (fun op h => Use.isRequest_operations h) hu

theorem Stopped.spared_uses (hhere : here.KeepsBooks b) (hw : Stopped b policy w)
    {us : List Use} (h : here.Uses b policy w us w')
    (hus : ∀ u ∈ us, .preempt ∉ u.operations policy) :
    Spared (AtRisk (us.flatMap (Use.operations policy)) w.1) w.1 w'.1 := by
  induction h with
  | refl => exact .refl _
  | use h u ih =>
      have hlast := (hw.uses hhere h).spared_used hhere (hus u (by simp))
      rw [List.flatMap_append, List.flatMap_singleton]
      exact (ih fun u' hmem => hus u' (List.mem_append_left _ hmem)).append hlast
  | meanwhile _ _ _ ih => exact ih hus

/-- What was done by then stays in the log. -/
theorem Stopped.log_used (hhere : here.KeepsBooks b) (hw : Stopped b policy w) (u : Use) :
    b.log w.2 <+: b.log (here.used policy u w).2 := by
  refine (used_keeps (P := Stopped b policy) (R := fun w w' => b.log w.2 <+: b.log w'.2)
    (fun w => List.prefix_refl _) (fun w w' w'' h h' => h.trans h') (fun w op hw hop => ?_)
    hw hw.stopped u).2
  obtain ⟨hflushes, -⟩ := hhere.operate hw.toResting op (by simp [hop])
  exact ⟨hw.operate hhere hop, hflushes.log⟩

theorem Stopped.log_uses (hhere : here.KeepsBooks b) (hw : Stopped b policy w)
    {us : List Use} (h : here.Uses b policy w us w') : b.log w.2 <+: b.log w'.2 := by
  induction h with
  | refl => exact List.prefix_refl _
  | use h u ih => exact ih.trans ((hw.uses hhere h).log_used hhere u)
  | meanwhile _ _ hlog ih => exact hlog ▸ ih

/-- What a stopped scheduler decides is what is entered in the log. -/
theorem Stopped.effects_uses (hhere : here.KeepsBooks b) (hw : Stopped b policy w)
    {us : List Use} (h : here.Uses b policy w us w') :
    ∃ rows, b.log w'.2 = b.log w.2 ++ rows ∧
      w'.1.journal = w.1.journal ++ rows.map Attempt.effect := by
  obtain ⟨rows, hrows⟩ := hw.log_uses hhere h
  have hw' := hw.uses hhere h
  have hbefore : w.1.journal = (b.log w.2).map Attempt.effect :=
    hw.reachable.journal_of_atRest hw.atRest
  have hafter : w'.1.journal = (b.log w'.2).map Attempt.effect :=
    hw'.reachable.journal_of_atRest hw'.atRest
  exact ⟨rows, hrows.symm, by rw [hafter, hbefore, ← hrows, List.map_append]⟩

/-- A stopped scheduler takes no container from a task, unless it is asked to by
`preemptIfNeeded`.  After any other uses nothing is recorded as taken, nobody was told that a
container is taken away, and none is on its way out that was not before.  Whoever had a container
has it still, and it was not given back, unless one of the uses freed it: the application gave it
back or said that the task is done, it has completed, or it was idle for too long. -/
theorem stopped_preempts_only_if_asked (hhere : here.Staffed b pool policy) :
    (∀ w, b.Resting policy w → w.1.stopped = false →
      Stopped b policy (here.stop policy w).2) ∧
    (∀ s : Scheduler, s.Underway policy → s.stopped = true → ∀ cx, cx.policy = policy →
      ∀ op, op.isRequest = false → op ≠ .preempt → Spared (AtRisk [op] s) s (s.after cx op)) ∧
    ∀ w, Stopped b policy w → ∀ us w', here.Uses b policy w us w' →
      (∀ u ∈ us, .preempt ∉ u.operations policy) →
      Stopped b policy w' ∧
      (∀ r ∈ w'.1.recordsSince w.1, r.action ≠ .preempted) ∧
      (∀ k c, w'.1.ledger.assignment? k = some (.beingReleased c) →
        w.1.ledger.assignment? k = some (.beingReleased c)) ∧
      ∃ rows, b.log w'.2 = b.log w.2 ++ rows ∧
        (∀ k, .notify (.containerBeingReleased k) ∉ rows.map Attempt.effect) ∧
        ∀ k a, w.1.ledger.assignment? k = some a →
          (w'.1.ledger.assignment? k = some a ∧ .made (.giveBack k) ∉ rows) ∨
            ∃ op ∈ us.flatMap (Use.operations policy), op.Frees k a := by
  refine ⟨fun w hw hrunning => (hhere.stop hw hrunning).toStopped,
    fun s hs hstopped cx hcx op hrequest hop => ?_, fun w hw us w' h hus => ?_⟩
  · exact (sparing_after hs.coherent hstopped cx hrequest hop).spared hs.coherent
  have hbooks := hhere.toKeepsBooks
  have hspared := hw.spared_uses hbooks h hus
  obtain ⟨rows, hlog, hjournal⟩ := hw.effects_uses hbooks h
  obtain ⟨es, hdecided, houtside, hquiet⟩ := hspared.effects
  obtain rfl : es = rows.map Attempt.effect :=
    List.append_cancel_left (hdecided.symm.trans hjournal)
  refine ⟨hw.uses hbooks h, fun r hr => hspared.mem_recordsSince hr, hspared.leaving, rows, hlog,
    fun k hmem => ?_, fun k a ha => ?_⟩
  · exact hquiet k (List.mem_filterMap.mpr ⟨_, hmem, if_pos rfl⟩)
  · by_cases hrisk : AtRisk (us.flatMap (Use.operations policy)) w.1 k
    · exact .inr (hrisk a ha)
    · refine .inl ⟨?_, fun hmade => ?_⟩
      · rw [Ledger.assignment?, hspared.holding k hrisk]
        exact ha
      · rw [Courier.made_giveBack_iff, houtside k hrisk] at hmade
        cases hmade

end Surroundings

/-! ## A crowded cluster -/

namespace Desk

/-- The policy of a scheduler that takes containers back. -/
def strict : Policy := ⟨.standard, .alwaysMatch⟩

/-- A request is granted the container `c_1`, and another one that comes before it waits. -/
def rush : List Scheduler.Operation :=
  let request (task : UInt64) (priority : UInt32) : TaskRequest :=
    ⟨⟨task⟩, ⟨1024, 1⟩, ⟨priority⟩, ⟨[], [], true⟩, ⟨0, ⟨⟨1024, 1⟩, .empty, .empty⟩⟩⟩
  let granted : Container := ⟨⟨"c_1"⟩, ⟨"host1", 8041⟩, none, ⟨1024, 1⟩, ⟨10⟩, some ⟨1⟩, none⟩
  [.request (request 7 10), .hear (.allocated [granted]), .request (request 8 1)]

/-- After the rush the cluster has nothing left. -/
def crowded : Scheduler × Desk :=
  let (s, x) := rush.foldl (fun w op => manned.operate strict op w)
    (.fresh, ⟨.connect .zero, .idle .standard, []⟩)
  (s, { x with client := { x.client with headroom := some .zero } })

theorem resting_crowded : books.Resting strict crowded := by
  have hrush := (staffed strict).toKeepsBooks.operations (resting_start strict .standard) rush
    (by decide +kernel)
  exact Surroundings.resting_of_eq hrush ⟨_, _, _, _, _, rfl⟩ rfl rfl

end Desk

/-- The housekeeping of a stopped scheduler leaves the container to its task. -/
theorem stopped_preempts_only_if_asked_tick :
    let w := (manned.stop Desk.strict Desk.crowded).2
    let w' := manned.used Desk.strict (.tick .epoch) w
    Surroundings.Stopped Desk.books Desk.strict w ∧
      w'.1.ledger.assignment? ⟨"c_1"⟩ = some (.active ⟨1⟩) ∧
      ∀ r ∈ w'.1.recordsSince w.1, r.action ≠ .preempted := by
  intro w w'
  obtain ⟨hstop, -, hafterwards⟩ :=
    Surroundings.stopped_preempts_only_if_asked (Desk.staffed Desk.strict)
  have hw := hstop Desk.crowded Desk.resting_crowded (by decide +kernel)
  have hops : (Use.tick .epoch).operations Desk.strict = [.housekeep .epoch] := rfl
  obtain ⟨-, hrecords, -, rows, -, -, hkept⟩ := hafterwards w hw [.tick .epoch] w'
    (.use .refl (.tick .epoch)) (by simp [hops])
  refine ⟨hw, ?_, hrecords⟩
  rcases hkept ⟨"c_1"⟩ (.active ⟨1⟩) (by decide +kernel) with ⟨hactive, -⟩ | ⟨op, hmem, hfrees⟩
  · exact hactive
  · rw [List.flatMap_singleton, hops, List.mem_singleton] at hmem
    cases hmem
    cases hfrees

/-- The scheduler is stopped and then asked whether containers have to be taken back.  It takes
one from a running task, and as nobody can be told, the container goes back at once. -/
theorem preempted_after_stop :
    let w := (manned.stop Desk.strict Desk.crowded).2
    let w' := manned.used Desk.strict .preemptIfNeeded w
    w.1.stopped = true ∧ w.1.ledger.assignment? ⟨"c_1"⟩ = some (.active ⟨1⟩) ∧
      (w'.1.recordsSince w.1).map AuditRecord.action = [.preempted, .released] ∧
      w'.2.log.drop w.2.log.length = [.refused (.containerBeingReleased ⟨"c_1"⟩) .shutdown,
        .made (.giveBack ⟨"c_1"⟩)] ∧
      w'.1.ledger.assignment? ⟨"c_1"⟩ = some (.released (some ⟨7⟩)) := by
  decide +kernel

end TaskFleet
