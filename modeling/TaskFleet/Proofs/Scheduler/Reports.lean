import TaskFleet.Proofs.Scheduler.Postbox
import TaskFleet.Proofs.Scheduler.Stopped

/-!
# The reports that are kept

The scheduler's reports are those that a `Postbox` keeps when the mail is entered into it, as long
as somebody uses the scheduler, effects are carried out and time passes.  This holds at every point
of a flush and not only between two uses, so the steps of which a run is made are smaller than uses:
a decision, a pass over the reports, one effect (`Surroundings.Happens`).  Every use is made of such
steps (`KeepsMail.used`), and each of them keeps the scheduler and the postbox together
(`KeepsMail.posted_happens`).

Whoever is called may use the scheduler meanwhile.  What has to be left alone then is the flush that
is under way and the reports, which are the flush's.  No decision touches them
(`Scheduler.leavesMail_after`), and a flush does not begin while another one is under way.
-/

namespace TaskFleet

open Scheduler (reportLimit)

/-! ## What the scheduler does with reports -/

namespace Scheduler

/-- From `s` to `t` the reports and the flush under way are left alone. -/
structure LeavesMail (s t : Scheduler) : Prop where
  reports : t.reports = s.reports
  applying : t.applying = s.applying

theorem LeavesMail.trans {s t u : Scheduler} (h : s.LeavesMail t) (h' : t.LeavesMail u) :
    s.LeavesMail u :=
  ⟨h'.reports.trans h.reports, h'.applying.trans h.applying⟩

theorem LeavesMail.of_decisions {policy : Policy} {actions : List (Option AuditAction)}
    {s t : Scheduler} (h : DecisionsAmong policy actions s t) : s.LeavesMail t :=
  h.keeps (P := s.LeavesMail) (fun _ _ _ _ h => ⟨h.reports, h.applying⟩) ⟨rfl, rfl⟩

theorem leavesMail_request (s : Scheduler) (cx : Context) (request : TaskRequest) :
    s.LeavesMail (s.request cx request).2 := by
  rcases s.request_cases cx request with ⟨cause, hrefused⟩ | ⟨reusable, -, hplace⟩
  · rw [hrefused]
    exact ⟨rfl, rfl⟩
  · rw [hplace]
    cases reusable with
    | none =>
        have hplaced := LeavesMail.of_decisions (s.decisions_place_none cx request)
        exact ⟨hplaced.reports, hplaced.applying⟩
    | some id =>
        simp only [place]
        split
        · exact ⟨rfl, rfl⟩
        · exact ⟨rfl, rfl⟩

/-- No operation does anything to the reports; that is left to whoever carries effects out. -/
theorem leavesMail_after (s : Scheduler) (cx : Context) (op : Operation) :
    s.LeavesMail (s.after cx op) := by
  cases hop : op.isRequest with
  | false => exact .of_decisions (decisions_after s cx hop)
  | true =>
      obtain ⟨request, rfl⟩ := op.eq_request hop
      exact s.leavesMail_request cx request

theorem applying_refused (s : Scheduler) (now : Instant) (notice : Notice)
    (cause : DispatchError) : (s.refused now notice cause).applying = s.applying := by
  obtain ⟨t, reports, ht, heq⟩ := refused_eq ⟨.standard, .alwaysMatch⟩ s now notice cause
  rw [heq]
  exact (LeavesMail.of_decisions ht).applying

theorem leavesMail_takeUp? {s t : Scheduler} {e : Effect} (h : s.takeUp? = some (e, t)) :
    s.LeavesMail t := by
  unfold takeUp? at h
  split at h <;> cases h
  exact ⟨rfl, rfl⟩

/-- A refused notice is entered in the postbox. -/
theorem reports_refused {s : Scheduler} {p : Postbox} (hp : s.reports = p.kept) (now : Instant)
    (notice : Notice) (cause : DispatchError) : (s.refused now notice cause).reports =
      (p.enter (.told notice (.error cause))).kept := by
  have hgiven : DecisionsAmong ⟨.standard, .alwaysMatch⟩ [some .released] s
      (s.giveUpUnheard now notice) := decisions_giveUpUnheard s now notice
  have hsame : (s.giveUpUnheard now notice).reports = p.kept :=
    (LeavesMail.of_decisions hgiven).reports.trans hp
  rw [refused, keepReport]
  by_cases hgone : cause = .shutdown
  · simp [hgone, hsame, Postbox.enter, Mail.held?]
  · simp [hgone, hsame, Postbox.enter, Mail.held?, Postbox.kept_keep]

end Scheduler

/-! ## What goes on -/

namespace Surroundings

variable {σ : Type} {mail : σ → List Mail} {policy : Policy} {here : Surroundings σ}
  {w w' w'' : Scheduler × σ}

/-- What happens at once, as far as reports are concerned. -/
inductive Happens (here : Surroundings σ) (mail : σ → List Mail) :
    Scheduler × σ → Scheduler × σ → Prop
  /-- Somebody decides something, also while effects are carried out; or time passes. -/
  | aside {s t : Scheduler} {x y : σ} (h : s.LeavesMail t) (hmail : mail y = mail x) :
      Happens here mail (s, x) (t, y)
  /-- A flush begins, and the reports are offered; while they are, the scheduler keeps none. -/
  | begin {s : Scheduler} {x : σ} (hidle : s.applying = false) :
      Happens here mail (s, x) (here.redeliver ({ s with applying := true }, x))
  /-- The next effect is carried out. -/
  | carry {s t : Scheduler} {x : σ} {e : Effect} (hbusy : s.applying = true)
      (h : s.takeUp? = some (e, t)) : Happens here mail (s, x) (here.apply e (t, x))
  /-- The flush is over. -/
  | finish {s : Scheduler} {x : σ} (hbusy : s.applying = true) :
      Happens here mail (s, x) ({ s with applying := false }, x)

/-- From `w` to `w'` things happen. -/
def Elapses (here : Surroundings σ) (mail : σ → List Mail) (w w' : Scheduler × σ) : Prop :=
  Relation.ReflTransGen (here.Happens mail) w w'

namespace Elapses

theorem refl (w : Scheduler × σ) : here.Elapses mail w w :=
  Relation.ReflTransGen.refl

theorem trans (h : here.Elapses mail w w') (h' : here.Elapses mail w' w'') :
    here.Elapses mail w w'' :=
  Relation.ReflTransGen.trans h h'

theorem of_happens (h : here.Happens mail w w') : here.Elapses mail w w' :=
  .single h

theorem of_aside {s t : Scheduler} {x y : σ} (h : s.LeavesMail t) (hmail : mail y = mail x) :
    here.Elapses mail (s, x) (t, y) :=
  .of_happens (.aside h hmail)

end Elapses

/-- The surroundings keep the mail.  While they tell the application something in a flush, the
scheduler may be used, but the reports and the flush are left alone.  While they do anything else,
anything may happen. -/
structure KeepsMail (mail : σ → List Mail) (here : Surroundings σ) : Prop where
  call : ∀ call x, mail (here.call call x) = mail x
  deliver : ∀ notice s x, s.applying = true → ∃ answer t y,
    here.deliver (.notice notice) (s, x) = (answer, t, y) ∧ s.LeavesMail t ∧
      mail y = mail x ++ [.told notice answer]
  offer : ∀ report s x, s.applying = true → ∃ answer t y,
    here.offer (.failure (.ofRoot report)) (s, x) = (answer, t, y) ∧ s.LeavesMail t ∧
      mail y = mail x ++ [.offered report answer]
  register : ∀ config x, mail (here.register config x).2 = mail x
  registration : ∀ data w, here.Elapses mail w (here.deliver (.registration data) w).2
  unregister : ∀ status w, here.Elapses mail w (here.unregister status w).2
  askProgress : ∀ w, here.Elapses mail w (here.askProgress w).2
  askFinalStatus : ∀ w, here.Elapses mail w (here.askFinalStatus w).2
  drain : ∀ w, here.Elapses mail w (here.drain w)
  shutdown : ∀ w, here.Elapses mail w (here.shutdown w)

/-- The scheduler keeps the reports that are in the postbox, and only the oldest was offered. -/
structure Posted (mail : σ → List Mail) (w : Scheduler × σ) : Prop where
  orderly : Postbox.Orderly (mail w.2)
  reports : w.1.reports = (Postbox.after (mail w.2)).kept

namespace KeepsMail

theorem offerReports (hhere : here.KeepsMail mail) (reports : List String) {s : Scheduler} {x : σ}
    (hbusy : s.applying = true) :
    ∃ kept t y rows, here.offerReports reports (s, x) = (kept, t, y) ∧ s.LeavesMail t ∧
      mail y = mail x ++ rows ∧ Postbox.Pass reports rows kept := by
  induction reports generalizing s x with
  | nil => exact ⟨[], s, x, [], rfl, ⟨rfl, rfl⟩, (List.append_nil _).symm, .done⟩
  | cons report rest ih =>
      obtain ⟨answer, t, y, hoffer, hleaves, hmail⟩ := hhere.offer report s x hbusy
      rw [Surroundings.offerReports, hoffer]
      split
      · next w h =>
        cases h
        obtain ⟨kept, u, z, rows, hrest, hleaves', hmail', hpass⟩ :=
          ih (x := y) (hleaves.applying.trans hbusy)
        refine ⟨kept, u, z, _, hrest, hleaves.trans hleaves', ?_, .accepted hpass⟩
        rw [hmail', hmail, List.append_assoc, List.singleton_append]
      · next w h =>
        cases h
        exact ⟨[], t, y, _, rfl, hleaves, hmail, .gone⟩
      · next w cause hcause h =>
        cases h
        exact ⟨report :: rest, t, y, _, rfl, hleaves, hmail, .refused hcause⟩

/-- To offer the reports again is a pass over them. -/
theorem redeliver (hhere : here.KeepsMail mail) {w : Scheduler × σ} (hbusy : w.1.applying = true) :
    ∃ rows, mail (here.redeliver w).2 = mail w.2 ++ rows ∧
      Postbox.Pass w.1.reports rows (here.redeliver w).1.reports ∧
      (here.redeliver w).1.applying = true := by
  obtain ⟨kept, t, y, rows, hoffer, hleaves, hmail, hpass⟩ :=
    hhere.offerReports w.1.reports (s := { w.1 with reports := [] }) (x := w.2) hbusy
  have hnone : t.reports = [] := hleaves.reports
  refine ⟨rows, ?_, ?_, ?_⟩
  · simp only [Surroundings.redeliver, hoffer]
    exact hmail
  · simp only [Surroundings.redeliver, hoffer, hnone, List.append_nil]
    exact hpass
  · simp only [Surroundings.redeliver, hoffer]
    exact hleaves.applying.trans hbusy

theorem applying_apply (hhere : here.KeepsMail mail) (e : Effect) {s : Scheduler} {x : σ}
    (hbusy : s.applying = true) : (here.apply e (s, x)).1.applying = true := by
  cases e with
  | call call => exact hbusy
  | notify notice =>
      obtain ⟨answer, t, y, hdeliver, hleaves, -⟩ := hhere.deliver notice s x hbusy
      have hstill : t.applying = true := hleaves.applying.trans hbusy
      rw [Surroundings.apply, hdeliver]
      cases answer with
      | ok done => exact hstill
      | error cause => exact (Scheduler.applying_refused ..).trans hstill

/-- What is carried out is a call, or something that is told to the application. -/
theorem posted_apply (hhere : here.KeepsMail mail) (e : Effect) {s : Scheduler} {x : σ}
    (hbusy : s.applying = true) (hposted : Posted mail (s, x)) :
    Posted mail (here.apply e (s, x)) := by
  cases e with
  | call call =>
      have hsame : mail (here.call call x) = mail x := hhere.call call x
      exact ⟨hsame ▸ hposted.orderly, hsame ▸ hposted.reports⟩
  | notify notice =>
      obtain ⟨answer, t, y, hdeliver, hleaves, hmail⟩ := hhere.deliver notice s x hbusy
      have horderly : Postbox.Orderly (mail y) := by
        rw [hmail]
        exact hposted.orderly.append_singleton nofun
      have hbefore : t.reports = (Postbox.after (mail x)).kept :=
        hleaves.reports.trans hposted.reports
      have hentered : (Postbox.after (mail y)).kept =
          ((Postbox.after (mail x)).enter (.told notice answer)).kept := by
        rw [hmail, Postbox.after_append_singleton]
      rw [Surroundings.apply, hdeliver]
      cases answer with
      | ok done => exact ⟨horderly, hbefore.trans hentered.symm⟩
      | error cause =>
          have hrefused := Scheduler.reports_refused hbefore (here.now y) notice cause
          exact ⟨horderly, hrefused.trans hentered.symm⟩

/-- Whatever happens, the reports are those in the postbox. -/
theorem posted_happens (hhere : here.KeepsMail mail) (h : here.Happens mail w w')
    (hw : Posted mail w) : Posted mail w' := by
  cases h with
  | aside h hmail => exact ⟨hmail ▸ hw.orderly, h.reports.trans (hmail ▸ hw.reports)⟩
  | @begin s x hidle =>
      obtain ⟨rows, hmail, hpass, -⟩ := hhere.redeliver (w := ({ s with applying := true }, x)) rfl
      obtain ⟨horderly, hkept⟩ := hpass.after hw.orderly hw.reports.symm
      exact ⟨hmail ▸ horderly, hmail ▸ hkept.symm⟩
  | carry hbusy h =>
      have hleaves := Scheduler.leavesMail_takeUp? h
      exact hhere.posted_apply _ (hleaves.applying.trans hbusy)
        ⟨hw.orderly, hleaves.reports.trans hw.reports⟩
  | finish => exact ⟨hw.orderly, hw.reports⟩

theorem posted_elapses (hhere : here.KeepsMail mail) (h : here.Elapses mail w w')
    (hw : Posted mail w) : Posted mail w' := by
  induction h with
  | refl => exact hw
  | tail _ hlast ih => exact hhere.posted_happens hlast ih

end KeepsMail

/-! ## Uses -/

namespace KeepsMail

theorem applyPending (hhere : here.KeepsMail mail) (fuel : Nat) {w : Scheduler × σ}
    (hbusy : w.1.applying = true) :
    here.Elapses mail w (here.applyPending fuel w) ∧
      (here.applyPending fuel w).1.applying = true := by
  induction fuel generalizing w with
  | zero => exact ⟨.refl w, hbusy⟩
  | succ fuel ih =>
      rw [Surroundings.applyPending]
      split
      · exact ⟨.refl w, hbusy⟩
      · next e t h =>
        have htaken := (Scheduler.leavesMail_takeUp? h).applying.trans hbusy
        obtain ⟨hrest, hstill⟩ := ih (hhere.applying_apply e (x := w.2) htaken)
        exact ⟨(Elapses.of_happens (.carry hbusy h)).trans hrest, hstill⟩

theorem flush (hhere : here.KeepsMail mail) (w : Scheduler × σ) :
    here.Elapses mail w (here.flush w) := by
  obtain ⟨s, x⟩ := w
  cases hidle : s.applying with
  | true =>
      rw [Surroundings.flush, if_pos hidle]
      exact .refl _
  | false =>
      obtain ⟨-, -, -, hbusy⟩ := hhere.redeliver (w := ({ s with applying := true }, x)) rfl
      obtain ⟨hcarried, hstill⟩ := hhere.applyPending
        (here.redeliver ({ s with applying := true }, x)).1.flushBound hbusy
      have hbegin : here.Elapses mail (s, x) (here.redeliver ({ s with applying := true }, x)) :=
        .of_happens (.begin hidle)
      simp only [Surroundings.flush, hidle, Bool.false_eq_true, if_false]
      exact (hbegin.trans hcarried).trans (.of_happens (.finish hstill))

theorem perform (hhere : here.KeepsMail mail) {α : Type}
    {decision : Scheduler → Context → α × Scheduler} {w : Scheduler × σ}
    (hdecision : ∀ cx, w.1.LeavesMail (decision w.1 cx).2) :
    here.Elapses mail w (here.perform policy decision w).2 := by
  have hdecided : here.Elapses mail w ((decision w.1 (here.context policy w.2)).2, w.2) :=
    .of_aside (hdecision _) rfl
  exact hdecided.trans (hhere.flush _)

theorem operate (hhere : here.KeepsMail mail) (op : Scheduler.Operation) (w : Scheduler × σ) :
    here.Elapses mail w (here.operate policy op w) :=
  hhere.perform fun cx => w.1.leavesMail_after cx op

theorem start (hhere : here.KeepsMail mail) (w : Scheduler × σ) :
    here.Elapses mail w (here.start policy w).2 := by
  unfold Surroundings.start
  split
  · exact .refl w
  · have hregister := hhere.register policy.config w.2
    split
    · next h =>
      rw [h] at hregister
      exact .of_aside ⟨rfl, rfl⟩ hregister
    · next data y h =>
      rw [h] at hregister
      have hnoted : here.Elapses mail w
          ({ w.1 with maxCapability := some data.maxCapability, registered := true }, y) :=
        .of_aside ⟨rfl, rfl⟩ hregister
      exact hnoted.trans (hhere.registration data _)

theorem signOff (hhere : here.KeepsMail mail) (w : Scheduler × σ) :
    here.Elapses mail w (here.signOff policy w).2 :=
  (hhere.askFinalStatus w).trans (hhere.unregister _ _)

theorem stop (hhere : here.KeepsMail mail) (w : Scheduler × σ) :
    here.Elapses mail w (here.stop policy w).2 := by
  unfold Surroundings.stop
  split
  · exact .refl w
  · have hstopped : here.Elapses mail w ({ w.1 with stopped := true }, w.2) :=
      .of_aside ⟨rfl, rfl⟩ rfl
    have hflushed := hstopped.trans (hhere.flush _)
    generalize here.flush ({ w.1 with stopped := true }, w.2) = w' at hflushed
    -- whether or not there is somebody to sign off with, the callbacks are waited for
    have hclosed : ∀ w'', here.Elapses mail w' w'' →
        here.Elapses mail w (here.shutdown (here.drain w'')) := fun w'' h =>
      ((hflushed.trans h).trans (hhere.drain w'')).trans (hhere.shutdown _)
    simp only
    split
    · have hleft : here.Elapses mail w' ({ w'.1 with registered := false }, w'.2) :=
        .of_aside ⟨rfl, rfl⟩ rfl
      exact hclosed _ (hleft.trans (hhere.signOff _))
    · exact hclosed _ (.refl w')

theorem progress (hhere : here.KeepsMail mail) (w : Scheduler × σ) :
    here.Elapses mail w (here.progress w).2 := by
  have hask := hhere.askProgress w
  unfold Surroundings.progress
  split
  · next p s x h =>
    rw [h] at hask
    simp only
    split
    · exact hask.trans (.of_aside ⟨rfl, rfl⟩ rfl)
    · exact hask
  · next s x h =>
    rw [h] at hask
    exact hask

theorem releaseIdle (hhere : here.KeepsMail mail) (asOf : Instant) (w : Scheduler × σ) :
    here.Elapses mail w (here.releaseIdle policy asOf w).2 := by
  unfold Surroundings.releaseIdle
  split
  · exact .refl w
  · next timeout _ => exact hhere.operate (.releaseExpired timeout asOf) w

/-- A use is a matter of decisions, flushes, and what the surroundings do meanwhile. -/
theorem used (hhere : here.KeepsMail mail) (u : Use) (w : Scheduler × σ) :
    here.Elapses mail w (here.used policy u w) := by
  cases u with
  | start => exact hhere.start w
  | stop => exact hhere.stop w
  | requestTask request =>
      rw [Surroundings.used]
      cases hstopped : w.1.stopped with
      | true =>
          rw [requestTask_of_stopped hstopped]
          exact .refl w
      | false =>
          rw [requestTask_eq_operate hstopped]
          exact hhere.operate (.request request) w
  | deallocateTask cookie succeeded => exact hhere.operate (.deallocateTask cookie succeeded) w
  | deallocateContainer id => exact hhere.operate (.deallocateContainer id) w
  | preemptIfNeeded =>
      rw [Surroundings.used]
      cases henabled : policy.config.preemptionEnabled with
      | true =>
          rw [preemptIfNeeded_eq_operate henabled]
          exact hhere.operate .preempt w
      | false =>
          rw [Surroundings.preemptIfNeeded, henabled]
          exact .refl w
  | releaseIdle asOf => exact hhere.releaseIdle asOf w
  | tick asOf =>
      rw [Surroundings.used, tick_eq_operate]
      exact (hhere.releaseIdle asOf w).trans (hhere.operate (.housekeep asOf) _)
  | handle event =>
      rw [Surroundings.used, handle_eq_operate]
      exact hhere.operate (.hear event) w

end KeepsMail

/-- Reports are delivered in the order in which they came, or the oldest are dropped.  However the
scheduler is used and whatever the application answers, at every point there are no more of them
than there is room for; what was accepted are some of the reports that ever came, in their order;
and what came is what is kept after what has been settled.  What was settled and not delivered was
the oldest when another report came and there was no room, or it was there when the application
turned out to be gone.  To offer the reports again is to offer them one by one, up to the first
that is refused, which is kept with all that came later. -/
theorem reports_delivered_in_order (hhere : here.KeepsMail mail) :
    (∀ policy u w, here.Elapses mail w (here.used policy u w)) ∧
    (∀ w, here.Elapses mail w (here.progress w).2) ∧
    (∀ w, w.1.applying = true → ∃ rows, mail (here.redeliver w).2 = mail w.2 ++ rows ∧
      Postbox.Pass w.1.reports rows (here.redeliver w).1.reports) ∧
    ∀ w, w.1.reports = [] → mail w.2 = [] → ∀ w', here.Elapses mail w w' →
      w'.1.reports.length ≤ reportLimit ∧
      ((mail w'.2).filterMap Mail.accepted?).Sublist ((mail w'.2).filterMap Mail.held?) ∧
      ∃ settled, Postbox.after (mail w'.2) = ⟨settled, w'.1.reports⟩ ∧
        (mail w'.2).filterMap Mail.held? = settled.map Prod.fst ++ w'.1.reports ∧
        (mail w'.2).filterMap Mail.accepted? =
          (settled.filter fun row => row.2 = .delivered).map Prod.fst ∧
        ∀ early report settlement late, settled = early ++ (report, settlement) :: late →
          Postbox.Settles (mail w'.2) early report settlement := by
  refine ⟨fun policy u w => hhere.used u w, hhere.progress, fun w hbusy => ?_,
    fun w hnone hmail w' h => ?_⟩
  · obtain ⟨rows, hrows, hpass, -⟩ := hhere.redeliver hbusy
    exact ⟨rows, hrows, hpass⟩
  have hposted : Posted mail w := ⟨hmail ▸ Postbox.orderly_nil, by rw [hmail, hnone]; rfl⟩
  obtain ⟨horderly, hreports⟩ := hhere.posted_elapses h hposted
  rw [hreports]
  exact ⟨Postbox.length_kept_after _, Postbox.accepted_sublist horderly, _, rfl,
    (Postbox.held_after _).symm, (Postbox.delivered_after horderly).symm,
    fun early report settlement late hsettled => Postbox.settles_after horderly hsettled⟩

end Surroundings

/-! ## Letters -/

/-- A client, what the application will answer next, and the mail.  When there are no more answers
it accepts everything. -/
structure Clerk where
  client : Client
  answers : List (Except DispatchError Unit)
  mail : List Mail

/-- Say something to the application. -/
def Clerk.say (x : Clerk) (m : Except DispatchError Unit → Mail) :
    Except DispatchError Unit × Clerk :=
  let answer := x.answers.head?.getD (.ok ())
  (answer, { x with answers := x.answers.tail, mail := x.mail ++ [m answer] })

/-- The surroundings in which notices and reports are answered by a script and nothing else
happens. -/
def lettered : Surroundings Clerk where
  now _ := .epoch
  headroom x := x.client.headroom
  call call x := { x with client := x.client.call call }
  register config x :=
    let (answer, client) := x.client.register config.appHost config.appPort config.trackingUrl
    (answer.mapError .ofRoot, { x with client })
  unregister status w :=
    let (answer, client) := w.2.client.unregister status
    (answer.mapError .ofRoot, w.1, { w.2 with client })
  deliver callback w :=
    match callback with
    | .notice notice =>
      let (answer, x) := w.2.say (.told notice)
      (answer, w.1, x)
    | _ => (.ok (), w)
  offer notice w :=
    match notice with
    | .failure cause =>
      let (answer, x) := w.2.say (.offered cause.root)
      (answer, w.1, x)
    | _ => (.ok (), w)
  askProgress w := (.ok .zero, w)
  askFinalStatus w := (.ok ⟨.succeeded, "", ""⟩, w)
  drain w := w
  shutdown w := w

theorem Clerk.keepsMail : lettered.KeepsMail Clerk.mail where
  call _ _ := rfl
  deliver _ s _ _ := ⟨_, s, _, rfl, ⟨rfl, rfl⟩, rfl⟩
  offer _ s _ _ := ⟨_, s, _, rfl, ⟨rfl, rfl⟩, rfl⟩
  register _ _ := rfl
  registration _ w := .refl w
  unregister _ _ := .of_aside ⟨rfl, rfl⟩ rfl
  askProgress w := .refl w
  askFinalStatus w := .refl w
  drain w := .refl w
  shutdown w := .refl w

/-- Two failures are reported in vain.  The first report is accepted when the next tick comes, and
the second one is put off. -/
theorem reports_delivered_in_order_two :
    let policy : Policy := ⟨.standard, .alwaysMatch⟩
    let full : Except DispatchError Unit := .error .queueFull
    let start : Scheduler × Clerk :=
      (.fresh, ⟨.connect .zero, [full, full, full, .ok (), full], []⟩)
    let report (text : String) : Use := .handle (.failure (.ofRoot text))
    let w := [report "one", report "two", .tick .epoch].foldl
      (fun w u => lettered.used policy u w) start
    w.1.reports = ["two"] ∧ w.2.mail.filterMap Mail.accepted? = ["one"] ∧
      w.2.mail.filterMap Mail.held? = ["one", "two"] ∧
      Postbox.Settles w.2.mail [] "one" .delivered := by
  intro policy full start report w
  obtain ⟨huse, -, -, hrun⟩ := Surroundings.reports_delivered_in_order Clerk.keepsMail
  have hthree : lettered.Elapses Clerk.mail start w :=
    ((huse policy (report "one") start).trans (huse policy (report "two") _)).trans
      (huse policy (.tick .epoch) _)
  obtain ⟨-, -, settled, hpost, -, -, hsettles⟩ := hrun start rfl rfl w hthree
  have hsettled : (Postbox.after w.2.mail).settled = [("one", .delivered)] := by decide +kernel
  rw [hpost] at hsettled
  exact ⟨by decide +kernel, by decide +kernel, by decide +kernel,
    hsettles [] "one" .delivered [] hsettled⟩

end TaskFleet
