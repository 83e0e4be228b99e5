import TaskFleet.Proofs.Dispatch.Closed
import TaskFleet.Proofs.Scheduler.Flush
import TaskFleet.Proofs.Scheduler.Silence

/-!
# After the stop

A stopped scheduler refuses requests and does not start again.  Everything else it does as
before: it receives containers and hands them out, hands idle ones on, takes containers back
and keeps reports of what went wrong.  Most operations do not even look whether it was
stopped.  That nothing begins all the same rests on the worker pool, which is closed at the
end of `stop`: whatever the scheduler wants to tell the application is refused from then on,
and the refusals undo what was decided.

For this the surroundings must reach the application through a pool (`Surroundings.Staffed`).
While `stop` waits for the callbacks the application may go on to use the scheduler; what then
goes on, and what goes on afterwards, is `Surroundings.Further`.  Afterwards every use
`Subsides`.
-/

namespace TaskFleet

/-! ## Uses -/

/-- A use of the scheduler from outside. -/
inductive Use where
  | start
  | stop
  | requestTask (request : TaskRequest)
  | deallocateTask (cookie : Cookie) (succeeded : Bool)
  | deallocateContainer (id : ContainerId)
  | preemptIfNeeded
  | releaseIdle (asOf : Instant)
  | tick (asOf : Instant)
  | handle (event : ClusterEvent)

/-- To give back what was idle too long, if there is a limit. -/
def Policy.expiry (policy : Policy) (asOf : Instant) : List Scheduler.Operation :=
  (policy.config.idleReleaseTimeoutMs.map fun timeout => .releaseExpired timeout asOf).toList

/-- What a stopped scheduler does when it is used, one operation after the other. -/
def Use.operations (policy : Policy) : Use → List Scheduler.Operation
  | start | stop | requestTask _ => []
  | deallocateTask cookie succeeded => [.deallocateTask cookie succeeded]
  | deallocateContainer id => [.deallocateContainer id]
  | preemptIfNeeded => if policy.config.preemptionEnabled then [.preempt] else []
  | releaseIdle asOf => policy.expiry asOf
  | tick asOf => policy.expiry asOf ++ [.housekeep asOf]
  | handle event => [.hear event]

theorem Policy.isRequest_expiry {policy : Policy} {asOf : Instant} {op : Scheduler.Operation}
    (h : op ∈ policy.expiry asOf) : op.isRequest = false := by
  obtain ⟨timeout, -, rfl⟩ := Option.map_eq_some_iff.mp (Option.mem_toList.mp h)
  rfl

theorem Use.isRequest_operations {policy : Policy} {u : Use} {op : Scheduler.Operation}
    (h : op ∈ u.operations policy) : op.isRequest = false := by
  cases u with
  | start | stop | requestTask => cases h
  | preemptIfNeeded =>
      simp only [operations] at h
      split at h
      · rw [List.mem_singleton.mp h]
        rfl
      · cases h
  | releaseIdle asOf => exact Policy.isRequest_expiry h
  | tick asOf =>
      rcases List.mem_append.mp h with hrelease | hhouse
      · exact Policy.isRequest_expiry hrelease
      · rw [List.mem_singleton.mp hhouse]
        rfl
  | deallocateTask | deallocateContainer | handle =>
      rw [List.mem_singleton.mp h]
      rfl

namespace Surroundings

variable {σ α : Type} {b : Books σ} {pool : σ → Pool α} {policy : Policy}
  {here : Surroundings σ} {w w' : Scheduler × σ}

/-- The scheduler and its surroundings after a use. -/
def used (here : Surroundings σ) (policy : Policy) (u : Use) (w : Scheduler × σ) :
    Scheduler × σ :=
  match u with
  | .start => (here.start policy w).2
  | .stop => (here.stop policy w).2
  | .requestTask request => (here.requestTask policy request w).2
  | .deallocateTask cookie succeeded => (here.deallocateTask policy cookie succeeded w).2
  | .deallocateContainer id => (here.deallocateContainer policy id w).2
  | .preemptIfNeeded => (here.preemptIfNeeded policy w).2
  | .releaseIdle asOf => (here.releaseIdle policy asOf w).2
  | .tick asOf => (here.tick policy asOf w).2
  | .handle event => here.handle policy event w

theorem start_of_stopped (hstopped : w.1.stopped = true) :
    here.start policy w = (.error .stopped, w) := by
  rw [start, if_pos hstopped]

theorem stop_of_stopped (hstopped : w.1.stopped = true) :
    here.stop policy w = (.ok (), w) := by
  rw [stop, if_pos hstopped]

theorem requestTask_of_stopped (hstopped : w.1.stopped = true) (request : TaskRequest) :
    here.requestTask policy request w = (.error .stopped, w) := by
  rw [requestTask, if_pos hstopped]

theorem releaseIdle_eq_expiry (asOf : Instant) :
    (here.releaseIdle policy asOf w).2 =
      (policy.expiry asOf).foldl (fun w op => here.operate policy op w) w := by
  cases hlimit : policy.config.idleReleaseTimeoutMs with
  | none => simp [releaseIdle, Policy.expiry, hlimit]
  | some timeout =>
      rw [releaseIdle_eq_operate hlimit]
      simp [Policy.expiry, hlimit]

theorem used_of_stopped (hstopped : w.1.stopped = true) (u : Use) :
    here.used policy u w =
      (u.operations policy).foldl (fun w op => here.operate policy op w) w := by
  cases u with
  | start => exact congrArg Prod.snd (start_of_stopped hstopped)
  | stop => exact congrArg Prod.snd (stop_of_stopped hstopped)
  | requestTask request => exact congrArg Prod.snd (requestTask_of_stopped hstopped request)
  | deallocateTask => rfl
  | deallocateContainer => rfl
  | preemptIfNeeded =>
      cases henabled : policy.config.preemptionEnabled with
      | false => simp [used, preemptIfNeeded, Use.operations, henabled]
      | true =>
          rw [used, preemptIfNeeded_eq_operate henabled]
          simp [Use.operations, henabled]
  | releaseIdle asOf => exact releaseIdle_eq_expiry asOf
  | tick asOf =>
      rw [Use.operations, List.foldl_append, ← releaseIdle_eq_expiry]
      exact tick_eq_operate asOf
  | handle event => exact handle_eq_operate event

/-- A use of a stopped scheduler keeps what its operations keep, and leads where they lead. -/
theorem used_keeps {P : Scheduler × σ → Prop} {R : Scheduler × σ → Scheduler × σ → Prop}
    (hrefl : ∀ w, R w w) (htrans : ∀ w w' w'', R w w' → R w' w'' → R w w'')
    (hoperate : ∀ w op, P w → op.isRequest = false →
      P (here.operate policy op w) ∧ R w (here.operate policy op w))
    (hw : P w) (hstopped : w.1.stopped = true) (u : Use) :
    P (here.used policy u w) ∧ R w (here.used policy u w) := by
  have hall : ∀ (ops : List Scheduler.Operation) (w : Scheduler × σ), P w →
      (∀ op ∈ ops, op.isRequest = false) →
      P (ops.foldl (fun w op => here.operate policy op w) w) ∧
        R w (ops.foldl (fun w op => here.operate policy op w) w) := by
    intro ops
    induction ops with
    | nil => exact fun w hw _ => ⟨hw, hrefl w⟩
    | cons op ops ih =>
        intro w hw hops
        obtain ⟨hnext, hfirst⟩ := hoperate w op hw (hops op (.head _))
        obtain ⟨hlast, hrest⟩ := ih _ hnext fun op' h => hops op' (.tail _ h)
        exact ⟨hlast, htrans _ _ _ hfirst hrest⟩
  rw [used_of_stopped hstopped]
  exact hall _ w hw fun op h => Use.isRequest_operations h

/-! ## Surroundings with a pool -/

/-- What goes on at a stopped scheduler.  It is used; or something happens in its
surroundings, where the cluster has news, time passes, workers move, and the pool is asked
for callbacks. -/
inductive Further (here : Surroundings σ) (b : Books σ) (pool : σ → Pool α) (policy : Policy)
    (w : Scheduler × σ) : Scheduler × σ → Prop
  | refl : Further here b pool policy w w
  | use {w' : Scheduler × σ} (h : Further here b pool policy w w') (u : Use) :
      Further here b pool policy w (here.used policy u w')
  | meanwhile {s : Scheduler} {x y : σ} (h : Further here b pool policy w (s, x))
      (hclient : (b.client y).outstanding = (b.client x).outstanding)
      (hlog : b.log y = b.log x)
      (hpool : (pool x).Works (pool y) ∨ ∃ answer, (pool x).Submits answer (pool y)) :
      Further here b pool policy w (s, y)

/-- The surroundings keep books, and they reach the application through a pool.  When the
scheduler has nothing to do but to wait for the application, it may be used. -/
structure Staffed (here : Surroundings σ) (b : Books σ) (pool : σ → Pool α) (policy : Policy) :
    Prop extends here.KeepsBooks b where
  calls : ∀ call x, (pool x).Works (pool (here.call call x))
  delivers : ∀ notice s x, (pool x).Submits (here.deliver (.notice notice) (s, x)).1
    (pool (here.deliver (.notice notice) (s, x)).2.2)
  offers : ∀ notice s x, (pool x).Submits (here.offer notice (s, x)).1
    (pool (here.offer notice (s, x)).2.2)
  asks : ∀ w, here.Further b pool policy w (here.askFinalStatus w).2
  unregisters : ∀ status w, here.Further b pool policy w (here.unregister status w).2
  drains : ∀ w, here.Further b pool policy w (here.drain w)
  /-- The pool is closed; then the workers are waited for. -/
  closes : ∀ s x, ∃ y, pool y = (pool x).shutdown ∧
    (b.client y).outstanding = (b.client x).outstanding ∧ b.log y = b.log x ∧
    here.Further b pool policy (s, y) (here.shutdown (s, x))

/-! ## Stopped -/

/-- Nothing is left to do, and the scheduler was stopped. -/
structure Stopped (b : Books σ) (policy : Policy) (w : Scheduler × σ) : Prop
    extends b.Resting policy w where
  stopped : w.1.stopped = true

theorem takeUp?_aside {s t : Scheduler} {e : Effect} (h : s.takeUp? = some (e, t)) :
    t.stopped = s.stopped ∧ t.reports = s.reports := by
  unfold Scheduler.takeUp? at h
  split at h
  · cases h
  · cases h
    exact ⟨rfl, rfl⟩

theorem stopped_refused (s : Scheduler) (now : Instant) (notice : Notice)
    (cause : DispatchError) : (s.refused now notice cause).stopped = s.stopped := by
  obtain ⟨t, reports, ht, heq⟩ :=
    Scheduler.refused_eq ⟨.standard, .alwaysMatch⟩ s now notice cause
  rw [heq]
  exact ht.keeps (P := fun t => t.stopped = s.stopped) (fun _ _ _ _ h => h) rfl

/-- Nothing is kept for an application that is gone. -/
theorem reports_refused_shutdown (s : Scheduler) (now : Instant) (notice : Notice) :
    (s.refused now notice .shutdown).reports = s.reports := by
  have hgiven : Scheduler.DecisionsAmong ⟨.standard, .alwaysMatch⟩ [some .released] s
      (s.giveUpUnheard now notice) := Scheduler.decisions_giveUpUnheard s now notice
  rw [Scheduler.refused, Scheduler.keepReport, if_pos rfl]
  exact hgiven.keeps (P := fun t => t.reports = s.reports) (fun _ _ _ _ h => h) rfl

namespace KeepsBooks

theorem stopped_apply (hhere : here.KeepsBooks b) (e : Effect) (s : Scheduler) (x : σ) :
    (here.apply e (s, x)).1.stopped = s.stopped := by
  cases e with
  | call call => rfl
  | notify notice =>
      obtain ⟨answer, y, hdeliver, -, -⟩ := hhere.deliver notice s x
      rw [Surroundings.apply, hdeliver]
      cases answer with
      | ok done => rfl
      | error cause => exact stopped_refused s (here.now y) notice cause

theorem stopped_applyPending (hhere : here.KeepsBooks b) (fuel : Nat) (w : Scheduler × σ) :
    (here.applyPending fuel w).1.stopped = w.1.stopped := by
  induction fuel generalizing w with
  | zero => rfl
  | succ fuel ih =>
      rw [Surroundings.applyPending]
      split
      · rfl
      · next e t h => rw [ih, hhere.stopped_apply, (takeUp?_aside h).1]

theorem stopped_flush (hhere : here.KeepsBooks b) (w : Scheduler × σ) :
    (here.flush w).1.stopped = w.1.stopped := by
  unfold Surroundings.flush
  split
  · rfl
  · obtain ⟨reports, y, hredeliver, -, -⟩ :=
      hhere.redeliver { w.1 with applying := true } w.2
    simp only [hredeliver]
    exact hhere.stopped_applyPending _ _

theorem stopped_operate (hhere : here.KeepsBooks b) (hw : b.Resting policy w)
    (op : Scheduler.Operation) : (here.operate policy op w).1.stopped = w.1.stopped := by
  have hs : w.1.ledger.Coherent := hw.reachable.underway.coherent
  have hused : (w.1.after (here.context policy w.2) op).stopped = w.1.stopped :=
    Scheduler.keeps_after (P := fun t => t.stopped = w.1.stopped) hs _ op (fun _ h => h)
      (fun _ _ _ h => h) rfl
  exact (hhere.stopped_flush _).trans hused

end KeepsBooks

theorem Stopped.operate (hhere : here.KeepsBooks b) (hw : Stopped b policy w)
    {op : Scheduler.Operation} (hop : op.isRequest = false) :
    Stopped b policy (here.operate policy op w) where
  toResting := (hhere.operate hw.toResting op (by simp [hop])).2
  stopped := (hhere.stopped_operate hw.toResting op).trans hw.stopped

theorem Stopped.used (hhere : here.KeepsBooks b) (hw : Stopped b policy w) (u : Use) :
    Stopped b policy (here.used policy u w) :=
  (used_keeps (R := fun _ _ => True) (fun _ => trivial) (fun _ _ _ _ _ => trivial)
    (fun _ _ hw hop => ⟨hw.operate hhere hop, trivial⟩) hw hw.stopped u).1

/-- What no book tells of does not disturb a scheduler at rest. -/
theorem resting_of_eq {s t : Scheduler} {x y : σ} (hw : b.Resting policy (s, x))
    (hs : ∃ maxCapability reports progress registered stopped,
      t = { s with maxCapability, reports, progress, registered, stopped })
    (hclient : (b.client y).outstanding = (b.client x).outstanding)
    (hlog : b.log y = b.log x) : b.Resting policy (t, y) := by
  obtain ⟨maxCapability, reports, progress, registered, stopped, rfl⟩ := hs
  have hsame : (b.courier (s, x)).Flushes
      (b.courier ({ s with maxCapability, reports, progress, registered, stopped }, y)) :=
    KeepsBooks.flushes_of_eq ⟨_, _, _, _, _, s.applying, rfl⟩ hclient hlog
  exact ⟨hw.reachable.flushes hsame, ⟨hw.atRest.done, rfl⟩, hw.idle⟩

theorem Further.stopped (hhere : here.KeepsBooks b) (h : here.Further b pool policy w w')
    (hw : Stopped b policy w) : Stopped b policy w' := by
  induction h with
  | refl => exact hw
  | use _ u ih => exact ih.used hhere u
  | meanwhile _ hclient hlog _ ih =>
      exact ⟨resting_of_eq ih.toResting ⟨_, _, _, _, _, rfl⟩ hclient hlog, ih.stopped⟩

/-! ## A closed pool -/

/-- The scheduler was stopped, and its pool is closed. -/
structure Closed (b : Books σ) (pool : σ → Pool α) (policy : Policy) (w : Scheduler × σ) : Prop
    extends Stopped b policy w where
  closed : (pool w.2).closed = true

/-- Between `x` and `y` the application was not reached. -/
structure Hushed (b : Books σ) (pool : σ → Pool α) (x y : σ) : Prop where
  works : (pool x).Works (pool y)
  log : ∃ rows, b.log y = b.log x ++ rows ∧ ∀ attempt ∈ rows, attempt.Unheard

namespace Hushed

variable {x y z : σ}

theorem of_log_eq (hworks : (pool x).Works (pool y)) (hlog : b.log y = b.log x) :
    Hushed b pool x y :=
  ⟨hworks, [], by rw [hlog, List.append_nil], by simp⟩

theorem refl (x : σ) : Hushed b pool x x :=
  of_log_eq (.refl _) rfl

theorem trans (h : Hushed b pool x y) (h' : Hushed b pool y z) : Hushed b pool x z := by
  obtain ⟨rows, hlog, hrows⟩ := h.log
  obtain ⟨rows', hlog', hrows'⟩ := h'.log
  refine ⟨h.works.trans h'.works, rows ++ rows', by rw [hlog', hlog, List.append_assoc], ?_⟩
  intro attempt hmem
  exact (List.mem_append.mp hmem).elim (hrows attempt) (hrows' attempt)

theorem closed (h : Hushed b pool x y) (hclosed : (pool x).closed = true) :
    (pool y).closed = true :=
  h.works.closed.trans hclosed

end Hushed

namespace Staffed

variable {x : σ}

theorem redeliver_closed (hhere : here.Staffed b pool policy) (s : Scheduler)
    (hclosed : (pool x).closed = true) :
    ∃ y, here.redeliver (s, x) = ({ s with reports := [] }, y) ∧ Hushed b pool x y := by
  cases hreports : s.reports with
  | nil =>
      refine ⟨x, ?_, .refl x⟩
      simp [redeliver, hreports, offerReports]
  | cons report rest =>
      -- the first report is refused, and all of them are dropped
      obtain ⟨answer, y, hoffer, -, hlog⟩ :=
        hhere.offer (.failure (.ofRoot report)) { s with reports := [] } x
      have hsubmits := hhere.offers (.failure (.ofRoot report)) { s with reports := [] } x
      rw [hoffer] at hsubmits
      obtain ⟨rfl, hworks⟩ := hsubmits.of_closed hclosed
      refine ⟨y, ?_, .of_log_eq hworks hlog⟩
      simp [redeliver, hreports, offerReports, hoffer]

theorem apply_closed (hhere : here.Staffed b pool policy) (e : Effect) (s : Scheduler)
    (hclosed : (pool x).closed = true) :
    Hushed b pool x (here.apply e (s, x)).2 ∧ (here.apply e (s, x)).1.reports = s.reports := by
  cases e with
  | call call =>
      have hlog := (hhere.call call x).2
      exact ⟨⟨hhere.calls call x, [.made call], hlog, by simp [Attempt.Unheard.made]⟩, rfl⟩
  | notify notice =>
      obtain ⟨answer, y, hdeliver, -, hlog⟩ := hhere.deliver notice s x
      have hsubmits := hhere.delivers notice s x
      rw [hdeliver] at hsubmits
      obtain ⟨rfl, hworks⟩ := hsubmits.of_closed hclosed
      rw [Surroundings.apply, hdeliver]
      refine ⟨⟨hworks, _, hlog, ?_⟩, reports_refused_shutdown s (here.now y) notice⟩
      simp [Attempt.answered, Attempt.Unheard.refused]

theorem applyPending_closed (hhere : here.Staffed b pool policy) (fuel : Nat)
    (w : Scheduler × σ) (hclosed : (pool w.2).closed = true) :
    Hushed b pool w.2 (here.applyPending fuel w).2 ∧
      (here.applyPending fuel w).1.reports = w.1.reports := by
  induction fuel generalizing w with
  | zero => exact ⟨.refl w.2, rfl⟩
  | succ fuel ih =>
      rw [Surroundings.applyPending]
      split
      · exact ⟨.refl w.2, rfl⟩
      · next e t h =>
        obtain ⟨hfirst, hreports⟩ := hhere.apply_closed e t hclosed
        obtain ⟨hrest, hreports'⟩ := ih (here.apply e (t, w.2)) (hfirst.closed hclosed)
        exact ⟨hfirst.trans hrest, by rw [hreports', hreports, (takeUp?_aside h).2]⟩

theorem flush_closed (hhere : here.Staffed b pool policy) (hidle : w.1.applying = false)
    (hclosed : (pool w.2).closed = true) :
    Hushed b pool w.2 (here.flush w).2 ∧ (here.flush w).1.reports = [] := by
  obtain ⟨y, hredeliver, hfirst⟩ :=
    hhere.redeliver_closed { w.1 with applying := true } hclosed
  have hrest := hhere.applyPending_closed
    (Scheduler.flushBound { w.1 with applying := true, reports := [] })
    ({ w.1 with applying := true, reports := [] }, y) (hfirst.closed hclosed)
  simp only [flush, hidle, Bool.false_eq_true, if_false, hredeliver]
  exact ⟨hfirst.trans hrest.1, hrest.2⟩

end Staffed

/-! ## Every use subsides -/

/-- What becomes of a scheduler and its surroundings when nothing begins. -/
structure Subsides (b : Books σ) (pool : σ → Pool α) (w w' : Scheduler × σ) : Prop
    extends Hushed b pool w.2 w'.2 where
  /-- Whoever runs in a container ran in it before. -/
  active : ∀ k c, w'.1.ledger.assignment? k = some (.active c) →
    w.1.ledger.assignment? k = some (.active c)
  /-- No report is kept that was not kept before. -/
  reports : w'.1.reports.Sublist w.1.reports

theorem Subsides.refl (w : Scheduler × σ) : Subsides b pool w w :=
  ⟨.refl w.2, fun _ _ h => h, .refl _⟩

theorem Subsides.trans {w'' : Scheduler × σ} (h : Subsides b pool w w')
    (h' : Subsides b pool w' w'') : Subsides b pool w w'' :=
  ⟨h.toHushed.trans h'.toHushed, fun k c hactive => h.active k c (h'.active k c hactive),
    h'.reports.trans h.reports⟩

namespace Closed

theorem operate (hhere : here.Staffed b pool policy) (hw : Closed b pool policy w)
    {op : Scheduler.Operation} (hop : op.isRequest = false) :
    Closed b pool policy (here.operate policy op w) ∧
      Subsides b pool w (here.operate policy op w) := by
  have hs : w.1.ledger.Coherent := hw.reachable.underway.coherent
  have hidle : (w.1.after (here.context policy w.2) op).applying = false :=
    (Scheduler.applying_after hs _ op).trans hw.idle
  have hquiet : Hushed b pool w.2 (here.operate policy op w).2 ∧
      (here.operate policy op w).1.reports = [] :=
    hhere.flush_closed (w := (w.1.after (here.context policy w.2) op, w.2)) hidle hw.closed
  have hnext : op.isRequest = true → w.1.ledger.HasCookies := by simp [hop]
  obtain ⟨hflushes, hrests⟩ := hhere.toKeepsBooks.operate hw.toResting op hnext
  obtain ⟨rows, hlog, hrows⟩ := hquiet.1.log
  refine ⟨⟨hw.toStopped.operate hhere.toKeepsBooks hop, hquiet.1.closed hw.closed⟩,
    hquiet.1, fun k c hactive => ?_, hquiet.2 ▸ List.nil_sublist _⟩
  exact Courier.active_of_unheard hw.reachable hw.atRest hnext hflushes hrests.atRest hlog hrows
    hactive

theorem used (hhere : here.Staffed b pool policy) (hw : Closed b pool policy w) (u : Use) :
    Closed b pool policy (here.used policy u w) ∧
      Subsides b pool w (here.used policy u w) :=
  used_keeps Subsides.refl (fun _ _ _ h h' => h.trans h')
    (fun _ _ hw hop => hw.operate hhere hop) hw hw.stopped u

theorem further (hhere : here.Staffed b pool policy) (hw : Closed b pool policy w)
    (h : here.Further b pool policy w w') :
    Closed b pool policy w' ∧ (pool w.2).Works (pool w'.2) := by
  induction h with
  | refl => exact ⟨hw, .refl _⟩
  | use _ u ih =>
      obtain ⟨hclosed, hworks⟩ := ih
      obtain ⟨hclosed', hsubsides⟩ := hclosed.used hhere u
      exact ⟨hclosed', hworks.trans hsubsides.works⟩
  | @meanwhile s x y _ hclient hlog hpool ih =>
      obtain ⟨hclosed, hworks⟩ := ih
      have hmoved : (pool x).Works (pool y) := by
        rcases hpool with hmoved | ⟨answer, hsubmits⟩
        · exact hmoved
        · exact (hsubmits.of_closed hclosed.closed).2
      refine ⟨⟨⟨resting_of_eq hclosed.toResting ⟨_, _, _, _, _, rfl⟩ hclient hlog,
        hclosed.stopped⟩, hmoved.closed.trans hclosed.closed⟩, hworks.trans hmoved⟩

/-- A grant goes back in the very operation that brings it. -/
theorem givenBack (hhere : here.Staffed b pool policy) (hw : Closed b pool policy w)
    {containers : List Container} {container : Container} (hmem : container ∈ containers)
    (hnew : w.1.ledger.holding? container.id = none) :
    ∃ rows, b.log (here.handle policy (.allocated containers) w).2 = b.log w.2 ++ rows ∧
      .made (.giveBack container.id) ∈ rows := by
  have hevent : (Scheduler.Operation.hear (.allocated containers)).isRequest = false := rfl
  obtain ⟨-, hsubsides⟩ := hw.operate hhere hevent
  obtain ⟨hflushes, hrests⟩ :=
    hhere.toKeepsBooks.operate hw.toResting (.hear (.allocated containers)) nofun
  obtain ⟨rows, hlog, hrows⟩ := hsubsides.log
  rw [handle_eq_operate]
  exact ⟨rows, hlog, Courier.givenBack_of_granted hw.reachable hw.atRest hflushes hrests.atRest
    hlog hrows hmem hnew⟩

end Closed

/-! ## The stop -/

theorem Staffed.stop (hhere : here.Staffed b pool policy) (hw : b.Resting policy w)
    (hrunning : w.1.stopped = false) : Closed b pool policy (here.stop policy w).2 := by
  have hbooks := hhere.toKeepsBooks
  obtain ⟨s, x⟩ := w
  -- what was left to do is done
  have hbegin : Stopped b policy ({ s with stopped := true }, x) :=
    ⟨resting_of_eq hw ⟨_, _, _, _, _, rfl⟩ rfl rfl, rfl⟩
  obtain ⟨hflushes, hrests⟩ := hbooks.flush (w := ({ s with stopped := true }, x)) hbegin.idle
  have hflushed : Stopped b policy (here.flush ({ s with stopped := true }, x)) :=
    ⟨⟨hbegin.reachable.flushes hflushes, hrests, applying_flush hbegin.idle⟩,
      (hbooks.stopped_flush _).trans rfl⟩
  -- the application may be asked for its status, and then it is waited for
  have hclosed : ∀ w', Stopped b policy w' →
      Closed b pool policy (here.shutdown (here.drain w')) := by
    intro w' hw'
    have hdrained := (hhere.drains w').stopped hbooks hw'
    generalize here.drain w' = v at hdrained
    obtain ⟨t, y⟩ := v
    obtain ⟨z, hpool, hclient, hlog, hrest⟩ := hhere.closes t y
    have hshut : Closed b pool policy (t, z) := by
      refine ⟨⟨resting_of_eq hdrained.toResting ⟨_, _, _, _, _, rfl⟩ hclient hlog,
        hdrained.stopped⟩, ?_⟩
      show (pool z).closed = true
      rw [hpool]
      rfl
    exact (hshut.further hhere hrest).1
  simp only [Surroundings.stop, show s.stopped = false from hrunning, Bool.false_eq_true, if_false]
  generalize here.flush ({ s with stopped := true }, x) = w' at hflushed
  obtain ⟨t, y⟩ := w'
  split
  · have hleft : Stopped b policy ({ t with registered := false }, y) :=
      ⟨resting_of_eq hflushed.toResting ⟨_, _, _, _, _, rfl⟩ rfl rfl, hflushed.stopped⟩
    refine hclosed _ ?_
    exact (hhere.unregisters _ _).stopped hbooks ((hhere.asks _).stopped hbooks hleft)
  · exact hclosed _ hflushed

/-- Once `stop` has returned, nothing new begins, however the scheduler is used.  The pool
accepts no callback.  `start` and `requestTask` are refused and change nothing.  Whoever runs
in a container after a use ran in it before; a granted container that is not held is given
back in the use that brings it; and no report is kept for later. -/
theorem nothing_begins_after_stop (hhere : here.Staffed b pool policy) :
    (∀ w, b.Resting policy w → w.1.stopped = false →
      Closed b pool policy (here.stop policy w).2) ∧
    ∀ w, Closed b pool policy w → ∀ w', here.Further b pool policy w w' →
      Closed b pool policy w' ∧
      ((∀ (hash : String → Nat) key content,
          (pool w'.2).submit hash key content = (.error .shutdown, pool w'.2)) ∧
        (pool w'.2).tracker.dispatched = (pool w.2).tracker.dispatched) ∧
      here.start policy w' = (.error .stopped, w') ∧
      (∀ request, here.requestTask policy request w' = (.error .stopped, w')) ∧
      here.stop policy w' = (.ok (), w') ∧
      (∀ u, Subsides b pool w' (here.used policy u w')) ∧
      ∀ containers, ∀ container ∈ containers, w'.1.ledger.holding? container.id = none →
        ∃ rows, b.log (here.used policy (.handle (.allocated containers)) w').2 =
            b.log w'.2 ++ rows ∧ .made (.giveBack container.id) ∈ rows := by
  refine ⟨fun w hw hrunning => hhere.stop hw hrunning, fun w hw w' h => ?_⟩
  obtain ⟨hw', hworks⟩ := hw.further hhere h
  refine ⟨hw', ⟨fun hash key content => Pool.submit_closed hw'.closed hash key content,
    hworks.dispatched⟩, start_of_stopped hw'.stopped,
    fun request => requestTask_of_stopped hw'.stopped request, stop_of_stopped hw'.stopped,
    fun u => (hw'.used hhere u).2, ?_⟩
  intro containers container hmem hnew
  exact hw'.givenBack hhere hmem hnew

end Surroundings

/-! ## A desk with a pool -/

/-- A client, a pool at which nobody works, and the log. -/
structure Desk where
  client : Client
  pool : Pool Callback
  log : List Attempt

namespace Desk

/-- The books of a desk. -/
def books : Books Desk := ⟨client, log⟩

/-- Ask for a callback. -/
def ask (x : Desk) (callback : Callback) : Except DispatchError Unit × Desk :=
  let (answer, pool) := x.pool.submit String.length callback.key? callback
  (answer.map fun _ => (), { x with pool })

/-- Enter what became of a callback, if it is a notice. -/
def enter (x : Desk) (callback : Callback) (answer : Except DispatchError Unit) : Desk :=
  match callback with
  | .notice notice => { x with log := x.log ++ [.answered notice answer] }
  | _ => x

end Desk

/-- The surroundings in which the application is reached through the pool of a desk.  Questions
that the pool accepts are not answered in time. -/
def manned : Surroundings Desk where
  now _ := .epoch
  headroom x := x.client.headroom
  call call x := { x with client := x.client.call call, log := x.log ++ [.made call] }
  register config x :=
    let (answer, client) := x.client.register config.appHost config.appPort config.trackingUrl
    (answer.mapError .ofRoot, { x with client })
  unregister status w :=
    let (answer, client) := w.2.client.unregister status
    (answer.mapError .ofRoot, w.1, { w.2 with client })
  deliver callback w :=
    let (answer, x) := w.2.ask callback
    (answer, w.1, x.enter callback answer)
  offer notice w :=
    let (answer, x) := w.2.ask (.notice notice)
    (answer, w.1, x)
  askProgress w :=
    let (answer, x) := w.2.ask .askProgress
    (answer.bind fun _ => .error .timeout, w.1, x)
  askFinalStatus w :=
    let (answer, x) := w.2.ask .askFinalStatus
    (answer.bind fun _ => .error .timeout, w.1, x)
  drain w := w
  shutdown w := (w.1, { w.2 with pool := w.2.pool.shutdown })

namespace Desk

theorem submits_ask (x : Desk) (callback : Callback) :
    x.pool.Submits (x.ask callback).1 (x.ask callback).2.pool :=
  ⟨x.pool, String.length, callback.key?, callback, .refl _, rfl, .refl _⟩

theorem staffed (policy : Policy) : manned.Staffed books pool policy where
  call _ _ := ⟨rfl, rfl⟩
  deliver _ _ _ := ⟨_, _, rfl, rfl, rfl⟩
  offer _ _ _ := ⟨_, _, rfl, rfl, rfl⟩
  calls _ _ := .refl _
  delivers notice _ x := x.submits_ask (.notice notice)
  offers notice _ x := x.submits_ask (.notice notice)
  asks w := .meanwhile .refl rfl rfl (.inr ⟨_, w.2.submits_ask .askFinalStatus⟩)
  unregisters status w := by
    have hclient : (w.2.client.unregister status).2.outstanding = w.2.client.outstanding := by
      simp only [Client.unregister]
      split <;> rfl
    exact .meanwhile .refl hclient rfl (.inl (.refl _))
  drains _ := .refl
  closes _ x := ⟨{ x with pool := x.pool.shutdown }, rfl, rfl, rfl, .refl⟩

/-- A desk begins at rest. -/
theorem resting_start (policy : Policy) (config : DispatcherConfig) :
    books.Resting policy (.fresh, ⟨.connect .zero, .idle config, []⟩) :=
  ⟨.start .zero, ⟨rfl, rfl⟩, rfl⟩

end Desk

/-- A container is granted after the stop for a request that still waits.  It is handed to the
request; nobody hears of it, and it goes back. -/
theorem nothing_begins_after_stop_granted :
    let policy : Policy := ⟨.standard, .alwaysMatch⟩
    let request : TaskRequest :=
      ⟨⟨7⟩, ⟨1024, 1⟩, ⟨5⟩, ⟨[], [], true⟩, ⟨0, ⟨⟨1024, 1⟩, .empty, .empty⟩⟩⟩
    let granted : Container :=
      ⟨⟨"c_1"⟩, ⟨"host1", 8041⟩, none, ⟨1024, 1⟩, ⟨5⟩, some ⟨1⟩, none⟩
    let w := manned.operate policy (.request request)
      (.fresh, ⟨.connect .zero, .idle .standard, []⟩)
    let stopped := (manned.stop policy w).2
    let after := manned.used policy (.handle (.allocated [granted])) stopped
    Surroundings.Closed Desk.books Desk.pool policy stopped ∧
      manned.requestTask policy request stopped = (.error .stopped, stopped) ∧
      Surroundings.Subsides Desk.books Desk.pool stopped after ∧
      after.2.log.drop stopped.2.log.length = [.made (.withdraw ⟨1⟩),
        .refused (.taskAllocated ⟨7⟩ ⟨1⟩ { granted with signature := some request.signature })
          .shutdown,
        .made (.giveBack granted.id)] ∧
      after.1.ledger.classify ⟨1⟩ = .retired := by
  intro policy request granted w stopped after
  obtain ⟨hstop, hafterwards⟩ := Surroundings.nothing_begins_after_stop (Desk.staffed policy)
  obtain ⟨-, hw⟩ := (Desk.staffed policy).toKeepsBooks.operate
    (Desk.resting_start policy .standard) (.request request) fun _ => by decide
  have hclosed : Surroundings.Closed Desk.books Desk.pool policy stopped :=
    hstop w hw (by decide +kernel)
  obtain ⟨-, -, -, hrefused, -, hsubsides, -⟩ := hafterwards stopped hclosed stopped .refl
  exact ⟨hclosed, hrefused request, hsubsides _, by decide +kernel, by decide +kernel⟩

end TaskFleet
