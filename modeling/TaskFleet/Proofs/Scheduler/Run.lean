import TaskFleet.Scheduler.Operation
import TaskFleet.Proofs.Scheduler.Operations

/-!
# Runs of a scheduler at a client

A `Fleet` is a scheduler together with the client through which it calls the cluster.  It
moves when somebody uses the scheduler, when an effect is carried out, and when the
application refuses a notice; these steps come in any order, so a run covers operations
that follow each other, that overlap while effects are carried out, and that the
application asks for while it is called.

Seen closely, each step is a `Course` of the scheduler alone: it issues a cookie, decides,
takes an effect up, or changes something that no decision depends on.  A `Move` names the
effects that it decides on, and the journal grows by just these.  So what every move keeps
holds between any two steps of a run (`Fleet.Reachable.underway`).
-/

namespace TaskFleet

namespace Scheduler

/-! ## Moves -/

/-- What a scheduler does at once, with the effects it thereby decides on. -/
inductive Move (policy : Policy) (s : Scheduler) : List Effect → Scheduler → Prop
  /-- Record a new request. -/
  | enter (request : TaskRequest) (hnext : s.ledger.HasCookies) :
      Move policy s [] (s.enter request)
  | decide {o : Outcome} (h : Decision policy s o) : Move policy s o.effects (s.adopt o)
  /-- Take up the next effect, to carry it out. -/
  | takeUp {e : Effect} {t : Scheduler} (h : s.takeUp? = some (e, t)) : Move policy s [] t
  /-- Change what no decision about a request or a container has to respect. -/
  | aside (maxCapability : Option Resource) (reports : List String) (progress : Progress)
      (registered stopped applying : Bool) :
      Move policy s []
        { s with maxCapability, reports, progress, registered, stopped, applying }

/-- From `s` the scheduler comes to `t` by moves. -/
def Course (policy : Policy) (s t : Scheduler) : Prop :=
  Relation.ReflTransGen (fun s t => ∃ es, Move policy s es t) s t

/-- A scheduler that has come this far from the beginning. -/
def Underway (policy : Policy) (s : Scheduler) : Prop :=
  Course policy .fresh s

variable {policy : Policy} {s t u : Scheduler} {es : List Effect}

theorem Move.journal (h : Move policy s es t) : t.journal = s.journal ++ es := by
  cases h with
  | enter request => simp [Scheduler.journal, Scheduler.enter]
  | decide h => simp [Scheduler.journal, adopt]
  | takeUp h => simp [journal_takeUp? h]
  | aside => simp [Scheduler.journal]

theorem ledger_takeUp? {e : Effect} (h : s.takeUp? = some (e, t)) : t.ledger = s.ledger := by
  unfold takeUp? at h
  split at h <;> cases h
  rfl

theorem trail_takeUp? {e : Effect} (h : s.takeUp? = some (e, t)) : t.trail = s.trail := by
  unfold takeUp? at h
  split at h <;> cases h
  rfl

theorem Decision.coherent {o : Outcome} (h : Decision policy s o) (hs : s.ledger.Coherent) :
    o.ledger.Coherent := by
  cases h with
  | ask now hpending hledger => exact hs.markRequested hledger
  | hand now hrequest hheld hlarge hserves hledger => exact hs.assignIdle hledger
  | grant now hwanted hrequest hledger hheld => exact hs.allocate hledger
  | withdraw now hwaiting hledger => exact hs.remove hledger
  | retire now hrunning hledger => exact hs.remove hledger
  | turnAway => exact hs
  | announce now detail hledger => exact hs.beginRelease hledger
  | giveBack now reason hledger => exact hs.release hledger
  | complete now hledger => exact hs.complete hledger
  | unawait => exact hs
  | forget => exact hs
  | news => exact hs

/-- No decision issues a cookie. -/
theorem Decision.nextCookie {o : Outcome} (h : Decision policy s o) :
    o.ledger.nextCookie = s.ledger.nextCookie := by
  cases h with
  | ask now hpending hledger =>
      obtain ⟨request, -, rfl⟩ := Ledger.markRequested_ok hledger
      rfl
  | hand now hrequest hheld hlarge hserves hledger =>
      obtain ⟨entry, held, -, -, -, -, -, -, rfl⟩ := Ledger.assignIdle_ok hledger
      rfl
  | grant now hwanted hrequest hledger hheld =>
      obtain ⟨entry, -, -, -, -, rfl⟩ := Ledger.allocate_ok hledger
      rfl
  | withdraw now hwaiting hledger =>
      obtain ⟨entry, -, -, -, hnext, -, -⟩ := Ledger.remove_ok hledger
      exact hnext
  | retire now hrunning hledger =>
      obtain ⟨entry, -, -, -, hnext, -, -⟩ := Ledger.remove_ok hledger
      exact hnext
  | turnAway => rfl
  | announce now detail hledger =>
      obtain ⟨held, -, -, rfl⟩ := Ledger.beginRelease_ok hledger
      rfl
  | giveBack now reason hledger =>
      obtain ⟨held, -, -, -, hnext, -, -⟩ := Ledger.release_ok hledger
      exact hnext
  | complete now hledger =>
      obtain ⟨held, -, -, -, hnext, -, -⟩ := Ledger.complete_ok hledger
      exact hnext
  | unawait => rfl
  | forget => rfl
  | news => rfl

theorem Decisions.nextCookie (h : Decisions policy s t) :
    t.ledger.nextCookie = s.ledger.nextCookie :=
  h.keeps (P := fun t => t.ledger.nextCookie = s.ledger.nextCookie)
    (fun _ _ ho hs => ho.nextCookie.trans hs) rfl

theorem Move.coherent (h : Move policy s es t) (hs : s.ledger.Coherent) :
    t.ledger.Coherent := by
  cases h with
  | enter request hnext => exact hs.add hnext request
  | decide h => exact h.coherent hs
  | takeUp h => exact ledger_takeUp? h ▸ hs
  | aside => exact hs

/-! ## Courses -/

namespace Course

theorem refl (s : Scheduler) : Course policy s s :=
  Relation.ReflTransGen.refl

theorem trans (h : Course policy s t) (h' : Course policy t u) : Course policy s u :=
  Relation.ReflTransGen.trans h h'

theorem of_move (h : Move policy s es t) : Course policy s t :=
  .single ⟨es, h⟩

theorem of_decisions (h : Decisions policy s t) : Course policy s t := by
  refine h.lift id fun s t hstep => ?_
  obtain ⟨o, ho, rfl⟩ := hstep
  exact ⟨o.effects, .decide ho⟩

/-- What every move keeps, a course keeps. -/
theorem keeps {P : Scheduler → Prop} (h : Course policy s t)
    (hmove : ∀ s es t, Move policy s es t → P s → P t) (hs : P s) : P t := by
  induction h with
  | refl => exact hs
  | tail _ hlast ih =>
      obtain ⟨es, hlast⟩ := hlast
      exact hmove _ es _ hlast ih

theorem coherent (h : Course policy s t) (hs : s.ledger.Coherent) : t.ledger.Coherent :=
  h.keeps (P := fun s => s.ledger.Coherent) (fun _ _ _ => Move.coherent) hs

theorem journal (h : Course policy s t) : s.journal <+: t.journal :=
  h.keeps (P := fun t => s.journal <+: t.journal)
    (fun _ es _ h ht => ht.trans ⟨es, h.journal.symm⟩) (List.prefix_refl _)

end Course

namespace Underway

theorem fresh : Underway policy .fresh :=
  Course.refl .fresh

theorem course (hs : Underway policy s) (h : Course policy s t) : Underway policy t :=
  Course.trans hs h

theorem move (hs : Underway policy s) (h : Move policy s es t) : Underway policy t :=
  hs.course (.of_move h)

theorem coherent (hs : Underway policy s) : s.ledger.Coherent :=
  Course.coherent hs Ledger.coherent_empty

/-- What moves keep that start under way, a course keeps that starts under way. -/
theorem keeps {P : Scheduler → Prop} (hs : Underway policy s) (h : Course policy s t)
    (hmove : ∀ s es t, Underway policy s → Move policy s es t → P s → P t) (hP : P s) :
    P t := by
  have hboth : Underway policy t ∧ P t := by
    refine h.keeps (P := fun s => Underway policy s ∧ P s) ?_ ⟨hs, hP⟩
    intro s es t h ⟨hs, hP⟩
    exact ⟨hs.move h, hmove s es t hs h hP⟩
  exact hboth.2

/-- What holds at the beginning and is kept by every move that starts under way holds
under way. -/
theorem induct {P : Scheduler → Prop} (hs : Underway policy s) (hfresh : P .fresh)
    (hmove : ∀ s es t, Underway policy s → Move policy s es t → P s → P t) : P s :=
  fresh.keeps hs hmove hfresh

end Underway

/-! ## Operations -/

/-- A use of the scheduler, with its arguments. -/
inductive Operation where
  | request (request : TaskRequest)
  | deallocateTask (cookie : Cookie) (succeeded : Bool)
  | deallocateContainer (id : ContainerId)
  | preempt
  | releaseExpired (timeout : UInt64) (asOf : Instant)
  | housekeep (asOf : Instant)
  | hear (event : ClusterEvent)

/-- The operation issues a cookie. -/
def Operation.isRequest : Operation → Bool
  | .request _ => true
  | _ => false

theorem Operation.eq_request {op : Operation} (hop : op.isRequest = true) :
    ∃ request, op = .request request := by
  cases op with
  | request request => exact ⟨request, rfl⟩
  | _ => cases hop

/-- The scheduler that has heard news from the cluster. -/
def hear (s : Scheduler) (cx : Context) : ClusterEvent → Scheduler
  | .allocated containers => s.receiveAll cx containers
  | .completed statuses => statuses.foldl (fun s status => s.complete cx.now status) s
  | .nodesUpdated reports => s.queue (.notify (.nodesUpdated reports))
  | .shutdownRequested => s.queue (.notify .shutdownRequested)
  | .failure cause => s.queue (.notify (.failure cause))

/-- The scheduler after an operation, with all that it decides still to be carried out. -/
def after (s : Scheduler) (cx : Context) : Operation → Scheduler
  | .request request => (s.request cx request).2
  | .deallocateTask cookie succeeded => (s.deallocateTask cx cookie succeeded).2
  | .deallocateContainer id => (s.deallocateContainer cx id).2
  | .preempt => (s.preempt cx).2
  | .releaseExpired timeout asOf => (s.releaseExpired cx timeout asOf).2
  | .housekeep asOf =>
    let s := s.forgetReturned cx asOf
    if s.stopped then s else s.preemptQuietly cx
  | .hear event => s.hear cx event

/-- What an operation can be recorded as. -/
def Operation.actions : Operation → List (Option AuditAction)
  | .request _ => some .requested :: some .reused :: walkActions
  | .deallocateTask _ _ => [some .withdrawn, some .idled, some .reused, some .released]
  | .deallocateContainer _ | .releaseExpired _ _ => [some .released]
  | .preempt => walkActions
  | .housekeep _ => none :: walkActions
  | .hear (.allocated _) => grantActions ++ walkActions
  | .hear (.completed _) => [none, some .completed]
  | .hear (.nodesUpdated _) | .hear .shutdownRequested | .hear (.failure _) => [none]

theorem decisions_news (s : Scheduler) {notice : Notice} (hnews : notice.container? = none) :
    DecisionsAmong policy [none] s (s.queue (.notify notice)) :=
  .of_decision (.news notice hnews) (.head _) (by simp [queue, adopt])

theorem decisions_hear (s : Scheduler) (cx : Context) (event : ClusterEvent) :
    DecisionsAmong policy (Operation.hear event).actions s (s.hear cx event) := by
  cases event with
  | allocated containers => exact decisions_receiveAll s cx containers
  | completed statuses => exact .foldl (fun s status => decisions_complete s cx.now status) _ s
  | nodesUpdated reports => exact decisions_news s rfl
  | shutdownRequested => exact decisions_news s rfl
  | failure cause => exact decisions_news s rfl

/-- An operation that issues no cookie is a sequence of decisions. -/
theorem decisions_after (s : Scheduler) (cx : Context) {op : Operation}
    (hop : op.isRequest = false) : DecisionsAmong cx.policy op.actions s (s.after cx op) := by
  cases op with
  | request request => cases hop
  | deallocateTask cookie succeeded => exact decisions_deallocateTask s cx cookie succeeded
  | deallocateContainer id => exact decisions_deallocateContainer s cx id
  | preempt => exact decisions_preempt s cx
  | releaseExpired timeout asOf => exact decisions_releaseEach s cx.now _ _
  | housekeep asOf =>
      have hforget : DecisionsAmong cx.policy (Operation.housekeep asOf).actions s
          (s.forgetReturned cx asOf) :=
        (decisions_forgetReturned s cx asOf).mono (by simp [Operation.actions])
      simp only [after]
      split
      · exact hforget
      · exact hforget.trans ((decisions_preemptQuietly _ cx).mono (List.subset_cons_self ..))
  | hear event => exact decisions_hear s cx event

theorem course_after (hs : s.ledger.Coherent) (cx : Context) (op : Operation)
    (hnext : op.isRequest = true → s.ledger.HasCookies) :
    Course cx.policy s (s.after cx op) := by
  cases hop : op.isRequest with
  | false => exact .of_decisions (decisions_after s cx hop).decisions
  | true =>
      obtain ⟨request, rfl⟩ := op.eq_request hop
      rcases request_spec cx hs request with ⟨cause, hrefused⟩ | htaken
      · rw [after, hrefused]
        exact .refl s
      · obtain ⟨o, ho, -, -, hrest⟩ := htaken.settled
        exact (Course.of_move (.enter request (hnext rfl))).trans
          ((Course.of_move (.decide ho)).trans (.of_decisions hrest.decisions))

/-- What the issue of a cookie and every decision keep, an operation keeps. -/
theorem keeps_after {P : Scheduler → Prop} (hs : s.ledger.Coherent) (cx : Context)
    (op : Operation) (henter : ∀ request, P s → P (s.enter request))
    (hdecide : ∀ t o, Decision cx.policy t o → P t → P (t.adopt o)) (hP : P s) :
    P (s.after cx op) := by
  cases hop : op.isRequest with
  | false => exact (decisions_after s cx hop).decisions.keeps hdecide hP
  | true =>
      obtain ⟨request, rfl⟩ := op.eq_request hop
      rcases request_spec cx hs request with ⟨cause, hrefused⟩ | htaken
      · rw [after, hrefused]
        exact hP
      · obtain ⟨o, ho, -, -, hrest⟩ := htaken.settled
        exact hrest.decisions.keeps hdecide (hdecide _ o ho (henter request hP))

theorem nextCookie_after (hs : s.ledger.Coherent) (cx : Context) {op : Operation}
    (hnext : op.isRequest = true → s.ledger.HasCookies) :
    (s.after cx op).ledger.nextCookie.toNat ≤
      s.ledger.nextCookie.toNat + if op.isRequest then 1 else 0 := by
  cases hop : op.isRequest with
  | false =>
      rw [(decisions_after s cx hop).decisions.nextCookie]
      exact Nat.le_add_right ..
  | true =>
      obtain ⟨request, rfl⟩ := op.eq_request hop
      rw [if_pos rfl]
      rcases request_spec cx hs request with ⟨cause, hrefused⟩ | htaken
      · rw [after, hrefused]
        exact Nat.le_add_right ..
      · -- the cookie is issued before the first decision, and no decision issues one
        obtain ⟨o, ho, -, -, hrest⟩ := htaken.settled
        have hsame : (s.request cx request).2.ledger.nextCookie =
            (s.ledger.add request).2.nextCookie :=
          hrest.decisions.nextCookie.trans ho.nextCookie
        rw [after, hsame]
        exact Nat.le_of_eq (Ledger.toNat_nextCookie_add (hnext rfl) request)

/-- To keep a report changes the reports at most. -/
theorem keepReport_eq (s : Scheduler) (cause : DispatchError) (report : String) :
    ∃ reports, s.keepReport cause report = { s with reports } := by
  unfold keepReport
  split
  · exact ⟨_, rfl⟩
  · exact ⟨_, rfl⟩

/-- A refused notice leads to decisions and to a report. -/
theorem refused_eq (policy : Policy) (s : Scheduler) (now : Instant) (notice : Notice)
    (cause : DispatchError) : ∃ t reports, DecisionsAmong policy [some .released] s t ∧
      s.refused now notice cause = { t with reports } := by
  obtain ⟨reports, hkept⟩ :=
    (s.giveUpUnheard now notice).keepReport_eq cause (undelivered notice cause)
  exact ⟨_, reports, decisions_giveUpUnheard s now notice, hkept⟩

theorem course_refused (s : Scheduler) (now : Instant) (notice : Notice)
    (cause : DispatchError) : Course policy s (s.refused now notice cause) := by
  obtain ⟨t, reports, ht, heq⟩ := refused_eq policy s now notice cause
  rw [heq]
  exact (Course.of_decisions ht.decisions).trans (.of_move (.aside ..))

end Scheduler

/-! ## Steps of a fleet -/

/-- A scheduler and the client through which it calls the cluster. -/
abbrev Fleet := Scheduler × Client

namespace Fleet

/-- What happens to a fleet at once. -/
inductive Step (policy : Policy) : Fleet → Fleet → Prop
  /-- Somebody uses the scheduler.  There is a cookie for every request. -/
  | operate {s : Scheduler} {c : Client} (op : Scheduler.Operation) (now : Instant)
      (headroom : Option Resource)
      (hnext : op.isRequest = true → s.ledger.HasCookies) :
      Step policy (s, c) (s.after ⟨policy, now, headroom⟩ op, c)
  /-- The next effect is a call, and the client takes it. -/
  | call {s t : Scheduler} {c : Client} {call : ContainerCall}
      (h : s.takeUp? = some (.call call, t)) : Step policy (s, c) (t, c.call call)
  /-- The next effect is a notice, and it is passed on. -/
  | deliver {s t : Scheduler} {c : Client} {notice : Notice}
      (h : s.takeUp? = some (.notify notice, t)) : Step policy (s, c) (t, c)
  /-- A notice turns out not to have reached the application. -/
  | refuse {s : Scheduler} {c : Client} (now : Instant) (notice : Notice)
      (cause : DispatchError) : Step policy (s, c) (s.refused now notice cause, c)
  /-- The scheduler changes what no decision about a request or a container respects: it
  registers or is stopped, keeps reports, or notes the progress. -/
  | aside {s : Scheduler} {c : Client} (maxCapability : Option Resource)
      (reports : List String) (progress : Progress) (registered stopped applying : Bool) :
      Step policy (s, c)
        ({ s with maxCapability, reports, progress, registered, stopped, applying }, c)
  /-- The client is used for something other than container requests. -/
  | client {s : Scheduler} {c d : Client} (h : d.outstanding = c.outstanding) :
      Step policy (s, c) (s, d)

/-- A fleet comes from `w` to `w'` by steps, in whatever order they happen. -/
def Run (policy : Policy) (w w' : Fleet) : Prop :=
  Relation.ReflTransGen (Step policy) w w'

/-- A fleet that has come this far from a scheduler that was asked for nothing. -/
def Reachable (policy : Policy) (w : Fleet) : Prop :=
  ∃ max, Run policy (.fresh, .connect max) w

/-- The client once an effect was carried out. -/
def heed (c : Client) : Effect → Client
  | .call call => c.call call
  | .notify _ => c

/-- The fleet once everything pending was carried out and no notice was refused. -/
def flushed (w : Fleet) : Fleet :=
  ({ w.1 with carriedOut := w.1.journal, pending := [] }, w.1.pending.foldl heed w.2)

variable {policy : Policy} {w w' w'' : Fleet}

theorem Step.course (h : Step policy w w') (hw : w.1.ledger.Coherent) :
    Scheduler.Course policy w.1 w'.1 := by
  cases h with
  | operate op now headroom hnext =>
      exact Scheduler.course_after hw ⟨policy, now, headroom⟩ op hnext
  | call h => exact .of_move (.takeUp h)
  | deliver h => exact .of_move (.takeUp h)
  | refuse now notice cause => exact Scheduler.course_refused _ now notice cause
  | aside => exact .of_move (.aside ..)
  | client => exact .refl _

namespace Run

theorem refl (w : Fleet) : Run policy w w :=
  Relation.ReflTransGen.refl

theorem trans (h : Run policy w w') (h' : Run policy w' w'') : Run policy w w'' :=
  Relation.ReflTransGen.trans h h'

theorem of_step (h : Step policy w w') : Run policy w w' :=
  .single h

theorem course (h : Run policy w w') (hw : w.1.ledger.Coherent) :
    Scheduler.Course policy w.1 w'.1 := by
  induction h with
  | refl => exact .refl w.1
  | tail _ hlast ih => exact ih.trans (hlast.course (ih.coherent hw))

/-- A fleet can come to rest. -/
theorem flushed (w : Fleet) : Run policy w w.flushed := by
  obtain ⟨s, c⟩ := w
  -- one effect after another is taken up, and the journal stays what it is
  induction hpending : s.pending generalizing s c with
  | nil =>
      have hsame : Fleet.flushed (s, c) = (s, c) := by
        cases s
        cases hpending
        simp [Fleet.flushed, Scheduler.journal]
      rw [hsame]
      exact refl _
  | cons e rest ih =>
      have htake : s.takeUp? =
          some (e, { s with carriedOut := s.carriedOut ++ [e], pending := rest }) := by
        simp only [Scheduler.takeUp?, hpending]
      cases e with
      | call call =>
          have hrest := ih { s with carriedOut := s.carriedOut ++ [.call call], pending := rest }
            (c.call call) rfl
          refine (of_step (.call htake)).trans ?_
          simpa [Fleet.flushed, heed, Scheduler.journal, hpending] using hrest
      | notify notice =>
          have hrest := ih { s with carriedOut := s.carriedOut ++ [.notify notice], pending := rest }
            c rfl
          refine (of_step (.deliver htake)).trans ?_
          simpa [Fleet.flushed, heed, Scheduler.journal, hpending] using hrest

end Run

namespace Reachable

theorem start (max : Resource) : Reachable policy (.fresh, .connect max) :=
  ⟨max, .refl _⟩

theorem run (hw : Reachable policy w) (h : Run policy w w') : Reachable policy w' := by
  obtain ⟨max, hstart⟩ := hw
  exact ⟨max, hstart.trans h⟩

theorem underway (hw : Reachable policy w) : Scheduler.Underway policy w.1 := by
  obtain ⟨max, h⟩ := hw
  exact h.course Ledger.coherent_empty

/-- Operations may follow each other as long as there are cookies for their requests. -/
theorem operations {cx : Context} {s : Scheduler} {c : Client}
    (hw : Reachable cx.policy (s, c)) (ops : List Scheduler.Operation)
    (hnext : s.ledger.nextCookie.toNat + ops.countP Scheduler.Operation.isRequest < 2 ^ 64) :
    Reachable cx.policy (ops.foldl (fun s op => s.after cx op) s, c) := by
  induction ops generalizing s with
  | nil => exact hw
  | cons op ops ih =>
      rw [List.countP_cons] at hnext
      have hcookies : op.isRequest = true → s.ledger.HasCookies := fun hop => by
        rw [if_pos hop] at hnext
        unfold Ledger.HasCookies
        omega
      have hs : s.ledger.Coherent := hw.underway.coherent
      have hcount := Scheduler.nextCookie_after hs cx hcookies
      rw [List.foldl_cons]
      refine ih (hw.run (.of_step (.operate op cx.now cx.headroom hcookies))) ?_
      omega

/-- What holds of every fleet at its beginning and is kept by every step holds of a fleet
that was reached.  The step may be taken to start from a fleet that was reached as well. -/
theorem induct {P : Fleet → Prop} (hw : Reachable policy w)
    (hstart : ∀ max, P (.fresh, .connect max))
    (hstep : ∀ w w', Reachable policy w → Step policy w w' → P w → P w') : P w := by
  obtain ⟨max, h⟩ := hw
  induction h with
  | refl => exact hstart max
  | tail h hlast ih => exact hstep _ _ ⟨max, h⟩ hlast ih

end Reachable

end Fleet

end TaskFleet
