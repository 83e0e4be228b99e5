import TaskFleet.Proofs.Scheduler.Away
import TaskFleet.Proofs.Scheduler.Events

/-!
# Containers that were given back

Nothing hands out a container that is away, with one exception.  The receipt of a container
only asks whether the container is held.  If one that was turned away is delivered again
and a request waits for it by then, it is granted as if it were new: the receipt `readmits`
it.  Afterwards it is held although its completion is still awaited as that of a container
that is not.

So the main result is relative to this exception, and it says that there is no other.  An
event that does not readmit a container hands it out only before it gives it back, and
from then on no event does that neither readmits the container nor ends its absence.
-/

namespace TaskFleet

namespace Scheduler

variable {policy : Policy} {s t u : Scheduler} {k : ContainerId}

theorem staysAway_preemptQuietly (hs : s.ledger.Coherent) (cx : Context) :
    StaysAway k s (s.preemptQuietly cx) := by
  have hwalk : DecisionsAmong cx.policy walkActions s (s.preemptQuietly cx) :=
    decisions_preemptQuietly s cx
  exact hwalk.staysAway hs (by decide)

/-! ## Receipts -/

/-- A container that was turned away is received again, and a request waits for it. -/
def readmits (s : Scheduler) (container : Container) : Bool :=
  !s.ledger.held.contains container.id && s.awaiting.contains container.id &&
    s.wants container

/-- Among granted containers, received one after another, the container is readmitted. -/
def readmitsAmong (k : ContainerId) (now : Instant) : Scheduler → List Container → Bool
  | _, [] => false
  | s, c :: cs =>
    (decide (c.id = k) && s.readmits c) || readmitsAmong k now (s.receive now c) cs

theorem staysAway_receive (hs : s.ledger.Coherent) (cx : Context) {container : Container}
    (hnot : (decide (container.id = k) && s.readmits container) = false) :
    StaysAway k s (s.receive cx.now container) := by
  cases hheld : s.ledger.held.contains container.id with
  | true =>
      rw [receive_held hheld]
      exact .refl s
  | false =>
      have hnew := s.ledger.held.contains_eq_false_iff.mp hheld
      cases hwants : s.wants container with
      | true =>
          obtain ⟨o, ho, haction, hcontainer, heq⟩ := receive_wanted cx.policy hnew hwants cx.now
          rw [heq]
          refine ho.staysAway_of_action hs (by simp [haction]) (by simp [haction]) fun _ hk => ?_
          -- the container is granted, so this is not the one whose completion is awaited
          rw [hcontainer, Option.some.injEq] at hk
          subst hk
          rw [← SortedMap.contains_eq_false_iff]
          simpa [readmits, hheld, hwants] using hnot
      | false =>
          obtain ⟨o, ho, haction, -, heq⟩ := receive_unwanted cx.policy hnew hwants cx.now
          exact (DecisionsAmong.of_decision ho haction heq).staysAway hs (by decide)

theorem staysAway_receiveEach (hs : s.ledger.Coherent) (cx : Context)
    {containers : List Container} (hnot : readmitsAmong k cx.now s containers = false) :
    StaysAway k s (containers.foldl (fun s c => s.receive cx.now c) s) := by
  induction containers generalizing s with
  | nil => exact .refl s
  | cons c cs ih =>
      obtain ⟨hfirst, hrest⟩ := Bool.or_eq_false_iff.mp hnot
      have hreceipt : DecisionsAmong cx.policy grantActions s (s.receive cx.now c) :=
        decisions_receive s cx.now c
      exact (staysAway_receive hs cx hfirst).trans (ih (hreceipt.coherent hs) hrest)

theorem staysAway_receiveAll (hs : s.ledger.Coherent) (cx : Context)
    {containers : List Container} (hnot : readmitsAmong k cx.now s containers = false) :
    StaysAway k s (s.receiveAll cx containers) := by
  have hgrants : DecisionsAmong cx.policy grantActions s _ :=
    decisions_receiveEach s cx.now containers
  have hwalk : DecisionsAmong cx.policy walkActions _ (s.receiveAll cx containers) :=
    decisions_walkAfter s cx containers
  exact (staysAway_receiveEach hs cx hnot).trans (hwalk.staysAway (hgrants.coherent hs) (by decide))

/-! ## Operations -/

theorem staysAway_request (hs : s.ledger.Coherent) (cx : Context) (request : TaskRequest)
    (hnext : s.ledger.HasCookies) : StaysAway k s (s.request cx request).2 := by
  rcases request_spec cx hs request with ⟨cause, hrefused⟩ | htaken
  · rw [hrefused]
    exact .refl s
  · obtain ⟨o, ho, haction, -, hrest⟩ := htaken.settled
    have henter : StaysAway k s (s.enter request) := .of_eq rfl rfl rfl
    have hentered : (s.enter request).ledger.Coherent := hs.add hnext request
    have hfirst : StaysAway k (s.enter request) ((s.enter request).adopt o) :=
      (DecisionsAmong.of_decision ho haction rfl).staysAway hentered (by decide)
    exact (henter.trans hfirst).trans (hrest.staysAway (ho.coherent hentered) (by decide))

/-- The completion of another container is none of this one's concern. -/
theorem staysAway_complete (hs : s.ledger.Coherent) (cx : Context) {status : ContainerStatus}
    (hother : status.container ≠ k) : StaysAway k s (s.complete cx.now status) := by
  unfold complete
  split
  · next h =>
    obtain rfl := Ledger.atomic_complete _ _ h
    refine .of_eq rfl rfl ?_
    rw [SortedMap.get?_erase, if_neg (Ne.symm hother)]
  · next h =>
    have hdecision : Decision cx.policy s _ := .complete cx.now h
    have hsilent : ∀ w, w ∉ words k _ := fun w hword =>
      hother (Option.some.inj ((hdecision.mem_words_iff hs).mp hword).1)
    exact hdecision.staysAway hs (fun _ _ => hsilent _) (hsilent _) fun _ hawaited => hawaited

theorem staysAway_completeEach (hs : s.ledger.Coherent) (cx : Context)
    {statuses : List ContainerStatus} (hother : ∀ status ∈ statuses, status.container ≠ k) :
    StaysAway k s (statuses.foldl (fun s status => s.complete cx.now status) s) := by
  induction statuses generalizing s with
  | nil => exact .refl s
  | cons status rest ih =>
      obtain ⟨hfirst, hrest⟩ := List.forall_mem_cons.mp hother
      have hdecided : DecisionsAmong cx.policy [none, some .completed] s _ :=
        decisions_complete s cx.now status
      exact (staysAway_complete hs cx hfirst).trans (ih (hdecided.coherent hs) hrest)

/-- By completions no container is handed out or given back. -/
theorem returns_completeEach (hs : s.ledger.Coherent) (cx : Context)
    (statuses : List ContainerStatus) :
    Returns k s (statuses.foldl (fun s status => s.complete cx.now status) s) := by
  have hdecided : DecisionsAmong cx.policy [none, some .completed] s
      (statuses.foldl (fun s status => s.complete cx.now status) s) :=
    .foldl (fun s status => decisions_complete s cx.now status) _ s
  have hall := hdecided.keeps
    (P := fun t => t.ledger.Coherent ∧ Returns k s t ∧ .givenBack ∉ words k (t.effectsSince s))
    ?_ ⟨hs, (StaysAway.refl s).toReturns, by simp [effectsSince, words]⟩
  · exact hall.2.1
  · rintro t o ho haction ⟨ht, hreturns, hkept⟩
    have hsaid : ∀ w ∈ words k o.effects, w = .completed := fun w hword => by
      obtain ⟨-, hsaid⟩ := (ho.mem_words_iff ht).mp hword
      simp only [List.mem_cons, List.not_mem_nil, or_false] at haction
      rcases haction with hnone | hcompleted
      · simp [hnone] at hsaid
      · simpa [hcompleted, AuditAction.word?, eq_comm] using hsaid
    have hstep : Returns k t (t.adopt o) :=
      ho.returns ht fun _ _ hword => Word.noConfusion (hsaid _ hword)
    refine ⟨ho.coherent ht, hreturns.trans_of_notMem hkept hstep, ?_⟩
    rw [effectsSince_trans hreturns.journal hstep.journal, words_append, List.mem_append, not_or,
      effectsSince_adopt]
    exact ⟨hkept, fun hword => Word.noConfusion (hsaid _ hword)⟩

theorem forgetReturned_eq (s : Scheduler) (cx : Context) (asOf : Instant) :
    ∃ o, Decision cx.policy s o ∧ o.effects = [] ∧ s.forgetReturned cx asOf = s.adopt o ∧
      o.awaiting = s.awaiting.filter fun _ at_ =>
        decide (asOf.since at_ < cx.policy.config.releaseCompletionTimeoutMs.toNat) :=
  ⟨_, .forget asOf, rfl, by simp [forgetReturned, adopt], rfl⟩

/-- After late completions are forgotten, housekeeping goes on with a walk at most. -/
theorem staysAway_housekeep (hs : s.ledger.Coherent) (cx : Context) (asOf : Instant) :
    StaysAway k (s.forgetReturned cx asOf) (s.after cx (.housekeep asOf)) := by
  simp only [after]
  split
  · exact .refl _
  · exact staysAway_preemptQuietly (s := s.forgetReturned cx asOf) hs cx

theorem returns_forgetReturned (hs : s.ledger.Coherent) (cx : Context) (asOf : Instant) :
    Returns k s (s.forgetReturned cx asOf) := by
  obtain ⟨o, ho, hsilent, heq, -⟩ := s.forgetReturned_eq cx asOf
  rw [heq]
  exact ho.returns hs (by simp [hsilent, words])

theorem staysAway_forgetReturned (hs : s.ledger.Coherent) (cx : Context) {asOf : Instant}
    (hintime : s.ledger.stage k = .absent → ∀ at_, s.awaiting.get? k = some at_ →
      asOf.since at_ < cx.policy.config.releaseCompletionTimeoutMs.toNat) :
    StaysAway k s (s.forgetReturned cx asOf) := by
  obtain ⟨o, ho, hsilent, heq, hawaiting⟩ := s.forgetReturned_eq cx asOf
  rw [heq]
  refine ho.staysAway hs (by simp [hsilent, words]) (by simp [hsilent, words])
    fun habsent hawaited => ?_
  obtain ⟨at_, hat⟩ := Option.ne_none_iff_exists'.mp hawaited
  have hkept : o.awaiting.get? k = some at_ := by
    rw [hawaiting, SortedMap.get?_filter_eq_some_iff]
    exact ⟨hat, decide_eq_true (hintime habsent at_ hat)⟩
  simp [hkept]

/-- In the course of the operation the container is readmitted. -/
def Operation.readmits (k : ContainerId) (now : Instant) (s : Scheduler) : Operation → Bool
  | .hear (.allocated containers) => readmitsAmong k now s containers
  | _ => false

/-- The operation ends the absence of the container: it has completed, or its completion is
late and is awaited no longer. -/
def Operation.ends (k : ContainerId) (policy : Policy) (s : Scheduler) : Operation → Bool
  | .hear (.completed statuses) => statuses.any fun status => decide (status.container = k)
  | .housekeep asOf => !s.ledger.held.contains k &&
      (s.awaiting.get? k).any fun at_ =>
        decide (policy.config.releaseCompletionTimeoutMs.toNat ≤ asOf.since at_)
  | _ => false

theorem staysAway_news (hs : s.ledger.Coherent) {notice : Notice}
    (hnews : notice.container? = none) : StaysAway k s (s.queue (.notify notice)) := by
  have hdecision : Decision ⟨.standard, .alwaysMatch⟩ s _ := .news notice hnews
  have hsilent : words k [.notify notice] = [] := words_news k hnews
  have hstays := hdecision.staysAway (k := k) hs (by simp [hsilent]) (by simp [hsilent])
    fun _ hawaited => hawaited
  simpa [adopt, queue] using hstays

/-- An operation leaves a container away, unless it readmits it or ends its absence. -/
theorem staysAway_after (hs : s.ledger.Coherent) (cx : Context) {op : Operation}
    (hnext : op.isRequest = true → s.ledger.HasCookies)
    (hreadmits : op.readmits k cx.now s = false) (hends : op.ends k cx.policy s = false) :
    StaysAway k s (s.after cx op) := by
  cases op with
  | request request => exact staysAway_request hs cx request (hnext rfl)
  | deallocateTask | deallocateContainer | preempt | releaseExpired =>
      exact (decisions_after s cx rfl).staysAway hs (by simp [Operation.actions, walkActions])
  | housekeep asOf =>
      refine (staysAway_forgetReturned hs cx fun habsent at_ hat => ?_).trans
        (staysAway_housekeep hs cx asOf)
      have hnew : s.ledger.held.contains k = false := by
        rw [SortedMap.contains_eq_false_iff]
        exact Ledger.stage_eq_absent_iff.mp habsent
      simpa [Operation.ends, hnew, hat] using hends
  | hear event =>
      cases event with
      | allocated containers => exact staysAway_receiveAll hs cx hreadmits
      | completed statuses =>
          exact staysAway_completeEach hs cx fun status hmem heq =>
            List.any_eq_false.mp hends status hmem (decide_eq_true heq)
      | nodesUpdated reports => exact staysAway_news hs rfl
      | shutdownRequested => exact staysAway_news hs rfl
      | failure cause => exact staysAway_news hs rfl

/-- An operation that does not readmit the container respects that it was given back. -/
theorem returns_after (hs : s.ledger.Coherent) (cx : Context) {op : Operation}
    (hnext : op.isRequest = true → s.ledger.HasCookies)
    (hreadmits : op.readmits k cx.now s = false) : Returns k s (s.after cx op) := by
  cases hends : op.ends k cx.policy s with
  | false => exact (staysAway_after hs cx hnext hreadmits hends).toReturns
  | true =>
      -- only housekeeping and completions end an absence
      cases op with
      | housekeep asOf =>
          exact (returns_forgetReturned hs cx asOf).trans (staysAway_housekeep hs cx asOf)
      | hear event =>
          cases event with
          | completed statuses => exact returns_completeEach hs cx statuses
          | _ => cases hends
      | _ => cases hends

theorem awaiting_takeUp? {e : Effect} (h : s.takeUp? = some (e, t)) :
    t.awaiting = s.awaiting := by
  unfold takeUp? at h
  split at h <;> cases h
  rfl

/-! ## Readmission -/

/-- From `s` to `t` the container was handed out, and it is held while its completion is
awaited. -/
structure Readmitted (k : ContainerId) (s t : Scheduler) : Prop where
  journal : s.journal <+: t.journal
  allocated : .allocated ∈ words k (t.effectsSince s)
  held : t.ledger.stage k ≠ .absent
  awaited : t.awaiting.get? k ≠ none

namespace Readmitted

theorem of_later (hjournal : s.journal <+: t.journal) (h : Readmitted k t u) :
    Readmitted k s u where
  journal := hjournal.trans h.journal
  allocated := by
    rw [effectsSince_trans hjournal h.journal, words_append]
    exact List.mem_append_right _ h.allocated
  held := h.held
  awaited := h.awaited

/-- Only a completion, or giving up on it, changes that it is held and awaited. -/
theorem decisions {actions : List (Option AuditAction)} (h : Readmitted k s t)
    (hd : DecisionsAmong policy actions t u) (ht : t.ledger.Coherent)
    (hnone : none ∉ actions) (hcompleted : some .completed ∉ actions) : Readmitted k s u := by
  have hkept := hd.induct
    (P := fun u _ => u.ledger.stage k ≠ .absent ∧ u.awaiting.get? k ≠ none) ht
    ⟨h.held, h.awaited⟩ ?_
  · refine ⟨h.journal.trans hd.journal, ?_, hkept.1, hkept.2⟩
    rw [effectsSince_trans h.journal hd.journal, words_append]
    exact List.mem_append_left _ h.allocated
  · intro u _ o hu ho haction ⟨hheld, hawaited⟩
    have hsilent : .completed ∉ words k o.effects :=
      ho.completed_notMem hu fun heq => hcompleted (heq ▸ haction)
    exact ⟨(ho.passes hu k).ne_absent hheld hsilent,
      ho.awaits (fun heq => hnone (heq ▸ haction)) hawaited⟩

end Readmitted

theorem readmitted_receive (hs : s.ledger.Coherent) (cx : Context) {container : Container}
    (h : s.readmits container = true) :
    Readmitted container.id s (s.receive cx.now container) := by
  simp only [readmits, Bool.and_eq_true, Bool.not_eq_true'] at h
  obtain ⟨⟨hheld, hawaited⟩, hwants⟩ := h
  have hnew := s.ledger.held.contains_eq_false_iff.mp hheld
  obtain ⟨o, ho, haction, hcontainer, heq⟩ := receive_wanted cx.policy hnew hwants cx.now
  have hword : .allocated ∈ words container.id o.effects :=
    (ho.mem_words_iff hs).mpr ⟨hcontainer, by rw [haction]; rfl⟩
  have hrunning := (ho.passes hs container.id).eq_running hword
  rw [heq]
  refine ⟨s.prefix_journal_adopt o, ?_, ?_, ?_⟩
  · rwa [effectsSince_adopt]
  · show o.ledger.stage container.id ≠ .absent
    simp [hrunning]
  · exact ho.awaits (by simp [haction]) (Option.isSome_iff_ne_none.mp hawaited)

theorem readmitted_receiveEach (hs : s.ledger.Coherent) (cx : Context)
    {containers : List Container} (h : readmitsAmong k cx.now s containers = true) :
    Readmitted k s (containers.foldl (fun s c => s.receive cx.now c) s) := by
  induction containers generalizing s with
  | nil => cases h
  | cons c cs ih =>
      have hreceipt : DecisionsAmong cx.policy grantActions s (s.receive cx.now c) :=
        decisions_receive s cx.now c
      have hcoherent := hreceipt.coherent hs
      rcases Bool.or_eq_true_iff.mp h with hfirst | hrest
      · -- this is the one, and what is received after it changes nothing about it
        obtain ⟨hk, hfirst⟩ := Bool.and_eq_true_iff.mp hfirst
        have hrest : DecisionsAmong cx.policy grantActions (s.receive cx.now c) _ :=
          decisions_receiveEach _ cx.now cs
        have hc : Readmitted k s (s.receive cx.now c) :=
          of_decide_eq_true hk ▸ readmitted_receive hs cx hfirst
        exact hc.decisions hrest hcoherent (by decide) (by decide)
      · exact (ih hcoherent hrest).of_later hreceipt.journal

/-- The exception is one: a container that is readmitted is handed out although it was given
back and has not completed. -/
theorem readmitted_after (hs : s.ledger.Coherent) (cx : Context) {op : Operation}
    (h : op.readmits k cx.now s = true) : Readmitted k s (s.after cx op) := by
  cases op with
  | hear event =>
      cases event with
      | allocated containers =>
          have hgrants : DecisionsAmong cx.policy grantActions s _ :=
            decisions_receiveEach s cx.now containers
          have hwalk : DecisionsAmong cx.policy walkActions _ (s.receiveAll cx containers) :=
            decisions_walkAfter s cx containers
          exact (readmitted_receiveEach hs cx h).decisions hwalk (hgrants.coherent hs)
            (by decide) (by decide)
      | _ => cases h
  | _ => cases h

end Scheduler

namespace Fleet

open Scheduler

variable {policy : Policy} {w : Fleet} {k : ContainerId}

/-- By the event the container is readmitted. -/
def Event.readmits (k : ContainerId) (w : Fleet) : Event → Bool
  | .use op now _ => op.readmits k now w.1
  | _ => false

/-- The event ends the absence of the container. -/
def Event.ends (k : ContainerId) (policy : Policy) (w : Fleet) : Event → Bool
  | .use op _ _ => op.ends k policy w.1
  | _ => false

/-- The event neither readmits the container nor ends its absence. -/
def Event.LeavesAway (k : ContainerId) (policy : Policy) (w : Fleet) (e : Event) : Prop :=
  e.readmits k w = false ∧ e.ends k policy w = false

theorem staysAway_event (hw : w.Reachable policy) {e : Event} (he : e.Possible w)
    (hleaves : e.LeavesAway k policy w) : StaysAway k w.1 (w.after policy e).1 := by
  have hs : w.1.ledger.Coherent := hw.underway.coherent
  cases e with
  | use op now headroom =>
      exact staysAway_after hs ⟨policy, now, headroom⟩ he hleaves.1 hleaves.2
  | carryOut =>
      simp only [after]
      split
      · exact .refl _
      · next htake =>
        refine .of_eq (journal_takeUp? htake) ?_ ?_
        · rw [ledger_takeUp? htake]
        · rw [awaiting_takeUp? htake]
  | refuse now notice cause =>
      obtain ⟨t, reports, ht, heq⟩ := refused_eq policy w.1 now notice cause
      have hreported : StaysAway k t { t with reports } := .of_eq rfl rfl rfl
      simp only [after, heq]
      exact (ht.staysAway hs (by decide)).trans hreported
  | aside => exact .of_eq rfl rfl rfl
  | client d => exact .refl _

theorem returns_event (hw : w.Reachable policy) {e : Event} (he : e.Possible w)
    (hreadmits : e.readmits k w = false) : Returns k w.1 (w.after policy e).1 := by
  cases e with
  | use op now headroom =>
      exact returns_after hw.underway.coherent ⟨policy, now, headroom⟩ he hreadmits
  | _ => exact (staysAway_event hw he ⟨rfl, rfl⟩).toReturns

theorem readmitted_event (hw : w.Reachable policy) {e : Event}
    (hreadmits : e.readmits k w = true) : Readmitted k w.1 (w.after policy e).1 := by
  cases e with
  | use op now headroom =>
      exact readmitted_after hw.underway.coherent ⟨policy, now, headroom⟩ hreadmits
  | _ => cases hreadmits

theorem staysAway_events (hw : w.Reachable policy) {es : List Event}
    (hes : Follows policy (Event.LeavesAway k policy) w es) :
    StaysAway k w.1 (w.afterAll policy es).1 :=
  hes.keeps (Q := fun w' => StaysAway k w.1 w'.1) hw
    (fun _ _ hw' he hleaves h => h.trans (staysAway_event hw' he hleaves)) (.refl w.1)

/-- What the fleet gives back stays away, but for containers that are readmitted.  If a
container never is, it is not held while its completion is awaited, and once it is given
back it is not handed out until an event ends its absence, be it that the release was
decided by an event or that the container is away.  A container that is readmitted is
handed out, and held while its completion is awaited. -/
theorem given_back_stays_away (policy : Policy) (k : ContainerId) :
    (∀ max es, Follows policy (fun w e => e.readmits k w = false) (.fresh, .connect max) es →
      (afterAll policy (.fresh, .connect max) es).1.Apart k) ∧
    ∀ w, w.Reachable policy →
      (∀ (e : Event) es, e.Possible w → e.readmits k w = false →
        Follows policy (Event.LeavesAway k policy) (w.after policy e) es →
        Returns k w.1 (w.afterAll policy (e :: es)).1) ∧
      (∀ es, Follows policy (Event.LeavesAway k policy) w es →
        StaysAway k w.1 (w.afterAll policy es).1) ∧
      ∀ e : Event, e.readmits k w = true → Readmitted k w.1 (w.after policy e).1 := by
  refine ⟨fun max es hes => ?_, fun w hw => ⟨fun e es he hreadmits hes => ?_, ?_, ?_⟩⟩
  · exact hes.keeps (Q := fun w => w.1.Apart k) (.start max)
      (fun _ _ hw he hreadmits => (returns_event hw he hreadmits).apart) (.inl rfl)
  · exact (returns_event hw he hreadmits).trans (staysAway_events (hw.run he.run) hes)
  · exact fun es hes => staysAway_events hw hes
  · exact fun e hreadmits => readmitted_event hw hreadmits

/-- A container is turned away twice, as no request waits.  It is then away and stays so
while effects are carried out; delivered a third time, for a request that came in between,
it is readmitted. -/
theorem given_back_stays_away_unsolicited :
    let cx : Context := ⟨⟨.standard, .alwaysMatch⟩, .epoch, none⟩
    let container : Container := ⟨⟨"c_1"⟩, ⟨"host1", 8041⟩, none, ⟨1024, 1⟩, ⟨5⟩, none, none⟩
    let grant : Event := .use (.hear (.allocated [container])) cx.now cx.headroom
    let ask : Event := .use (.request ⟨⟨7⟩, ⟨1024, 1⟩, ⟨5⟩, ⟨[], [], true⟩,
      ⟨0, ⟨⟨1024, 1⟩, .empty, .empty⟩⟩⟩) cx.now cx.headroom
    let start : Fleet := (.fresh, .connect .zero)
    let w := start.afterAll cx.policy [grant, grant, ask]
    w.1.Apart container.id ∧ w.1.Away container.id ∧
      Returns container.id start.1 w.1 ∧
      StaysAway container.id w.1 (w.afterAll cx.policy [.carryOut, .carryOut]).1 ∧
      Readmitted container.id w.1 (w.after cx.policy grant).1 := by
  intro cx container grant ask start w
  obtain ⟨hapart, hreached⟩ := given_back_stays_away cx.policy container.id
  have hstart : start.Reachable cx.policy := .start .zero
  have hevents : Follows cx.policy (fun w e => e.readmits container.id w = false) start
      [grant, grant, ask] := by
    refine ⟨fun h => ?_, ?_, fun h => ?_, ?_, fun _ => ?_, rfl, trivial⟩
    · cases h
    · decide +kernel
    · cases h
    · decide +kernel
    · decide +kernel
  have hw : w.Reachable cx.policy := hstart.run hevents.run
  obtain ⟨hreturns, -, -⟩ := hreached start hstart
  obtain ⟨-, hstays, hreadmitted⟩ := hreached w hw
  refine ⟨hapart .zero _ hevents, .inr ⟨?_, ?_⟩, hreturns grant [grant, ask] hevents.1
    hevents.2.1 ?_, hstays _ ⟨trivial, ⟨rfl, rfl⟩, trivial, ⟨rfl, rfl⟩, trivial⟩,
    hreadmitted grant ?_⟩
  · decide +kernel
  · decide +kernel
  · obtain ⟨-, -, hpossible, hagain, hnext, hasks, -⟩ := hevents
    exact ⟨hpossible, ⟨hagain, rfl⟩, hnext, ⟨hasks, rfl⟩, trivial⟩
  · decide +kernel

/-- A container is turned away, a request comes for which it would do, and it is delivered
once more: it is handed out though nobody heard that it has completed. -/
theorem readmitted_though_given_back :
    let cx : Context := ⟨⟨.standard, .alwaysMatch⟩, .epoch, none⟩
    let container : Container := ⟨⟨"c_1"⟩, ⟨"host1", 8041⟩, none, ⟨1024, 1⟩, ⟨5⟩, none, none⟩
    let grant : Event := .use (.hear (.allocated [container])) cx.now cx.headroom
    let ask : Event := .use (.request ⟨⟨7⟩, ⟨1024, 1⟩, ⟨5⟩, ⟨[], [], true⟩,
      ⟨0, ⟨⟨1024, 1⟩, .empty, .empty⟩⟩⟩) cx.now cx.headroom
    let w := afterAll cx.policy (.fresh, .connect .zero) [grant, ask, grant]
    Follows cx.policy (fun w e => e.ends container.id cx.policy w = false)
        (.fresh, .connect .zero) [grant, ask, grant] ∧
      words container.id w.1.journal = [.givenBack, .allocated] ∧
      w.1.ledger.stage container.id = .running ∧ w.1.awaiting.get? container.id ≠ none := by
  intro cx container grant ask w
  refine ⟨⟨fun h => ?_, rfl, fun _ => ?_, rfl, fun h => ?_, rfl, trivial⟩, ?_, ?_, ?_⟩
  · cases h
  · decide +kernel
  · cases h
  · decide +kernel
  · decide +kernel
  · decide +kernel

end Fleet

end TaskFleet
