import TaskFleet.Scheduler.EventQueue
import TaskFleet.Proofs.Scheduler.Run

/-!
# Every operation is a run

A scheduler is used through `Surroundings`, which carry decisions out as well as they can:
the client takes calls, the application may refuse notices and may use the scheduler while
it is called.  Here each operation is shown to be a run of the fleet, so all that holds of
runs holds of the operations, whatever the surroundings do.

Nothing is asked of the surroundings but that they are `Lawful`: the scheduler only ever
changes by steps while somebody else is at work, and the client does what it is called for.
-/

namespace TaskFleet

/-- Where the policy of a scheduler and its client are found in its surroundings. -/
structure View (σ : Type) where
  policy : σ → Policy
  client : σ → Client

namespace View

variable {σ : Type} (v : View σ)

def fleet (w : Scheduler × σ) : Fleet :=
  (w.1, v.client w.2)

/-- A run of the fleet leads from `w` to `w'`, and the policy stays. -/
structure Leads (w w' : Scheduler × σ) : Prop where
  policy : v.policy w'.2 = v.policy w.2
  run : (v.fleet w).Run (v.policy w.2) (v.fleet w')

variable {v} {w w' w'' : Scheduler × σ}

namespace Leads

theorem refl (w : Scheduler × σ) : v.Leads w w :=
  ⟨rfl, .refl _⟩

theorem trans (h : v.Leads w w') (h' : v.Leads w' w'') : v.Leads w w'' :=
  ⟨h'.policy.trans h.policy, h.run.trans (h.policy ▸ h'.run)⟩

/-- A step of the scheduler alone. -/
theorem of_step {s t : Scheduler} {x : σ}
    (h : Fleet.Step (v.policy x) (s, v.client x) (t, v.client x)) : v.Leads (s, x) (t, x) :=
  ⟨rfl, .of_step h⟩

/-- The surroundings change, but the cluster is asked for what it was asked for. -/
theorem of_eq {s : Scheduler} {x y : σ} (hpolicy : v.policy y = v.policy x)
    (hclient : (v.client y).outstanding = (v.client x).outstanding) : v.Leads (s, x) (s, y) :=
  ⟨hpolicy, .of_step (.client hclient)⟩

theorem reachable (h : v.Leads w w') (hw : (v.fleet w).Reachable (v.policy w.2)) :
    (v.fleet w').Reachable (v.policy w'.2) :=
  h.policy ▸ hw.run h.run

end Leads

end View

namespace Surroundings

variable {σ : Type} {v : View σ} {here : Surroundings σ}

/-- Whoever else is at work, the scheduler changes by steps only. -/
structure Lawful (v : View σ) (here : Surroundings σ) : Prop where
  call : ∀ call x, v.policy (here.call call x) = v.policy x ∧
    v.client (here.call call x) = (v.client x).call call
  register : ∀ config s x, v.Leads (s, x) (s, (here.register config x).2)
  unregister : ∀ status w, v.Leads w (here.unregister status w).2
  deliver : ∀ callback w, v.Leads w (here.deliver callback w).2
  offer : ∀ notice w, v.Leads w (here.offer notice w).2
  askProgress : ∀ w, v.Leads w (here.askProgress w).2
  askFinalStatus : ∀ w, v.Leads w (here.askFinalStatus w).2
  drain : ∀ w, v.Leads w (here.drain w)
  shutdown : ∀ w, v.Leads w (here.shutdown w)

namespace Lawful

/-! ## Carrying out -/

theorem offerReports (hhere : here.Lawful v) (reports : List String) (w : Scheduler × σ) :
    v.Leads w (here.offerReports reports w).2 := by
  induction reports generalizing w with
  | nil => exact .refl w
  | cons report rest ih =>
      have hoffer := hhere.offer (.failure (.ofRoot report)) w
      rw [Surroundings.offerReports]
      split
      · next w' h =>
        rw [h] at hoffer
        exact hoffer.trans (ih w')
      · next w' h =>
        rw [h] at hoffer
        exact hoffer
      · next w' _ h =>
        rw [h] at hoffer
        exact hoffer

theorem redeliver (hhere : here.Lawful v) (w : Scheduler × σ) :
    v.Leads w (here.redeliver w) := by
  obtain ⟨s, x⟩ := w
  have htake : v.Leads (s, x) ({ s with reports := [] }, x) := .of_step (.aside ..)
  exact (htake.trans (hhere.offerReports s.reports _)).trans (.of_step (.aside ..))

theorem apply (hhere : here.Lawful v) {s t : Scheduler} {x : σ} {e : Effect}
    (h : s.takeUp? = some (e, t)) : v.Leads (s, x) (here.apply e (t, x)) := by
  cases e with
  | call call =>
      obtain ⟨hpolicy, hclient⟩ := hhere.call call x
      refine ⟨hpolicy, .of_step ?_⟩
      show Fleet.Step _ (s, v.client x) (t, v.client (here.call call x))
      rw [hclient]
      exact .call h
  | notify notice =>
      have htake : v.Leads (s, x) (t, x) := .of_step (.deliver h)
      have hdeliver := htake.trans (hhere.deliver (.notice notice) (t, x))
      rw [Surroundings.apply]
      split
      · next hanswer =>
        rw [hanswer] at hdeliver
        exact hdeliver
      · next hanswer =>
        rw [hanswer] at hdeliver
        exact hdeliver.trans (.of_step (.refuse ..))

theorem applyPending (hhere : here.Lawful v) (fuel : Nat) (w : Scheduler × σ) :
    v.Leads w (here.applyPending fuel w) := by
  induction fuel generalizing w with
  | zero => exact .refl w
  | succ fuel ih =>
      rw [Surroundings.applyPending]
      split
      · exact .refl w
      · next h => exact (hhere.apply h).trans (ih _)

theorem flush (hhere : here.Lawful v) (w : Scheduler × σ) : v.Leads w (here.flush w) := by
  unfold Surroundings.flush
  split
  · exact .refl w
  · obtain ⟨s, x⟩ := w
    have hbegin : v.Leads (s, x) ({ s with applying := true }, x) := .of_step (.aside ..)
    have hready := hbegin.trans (hhere.redeliver _)
    exact (hready.trans (hhere.applyPending _ _)).trans (.of_step (.aside ..))

/-- A decision that is an operation, taken and carried out. -/
theorem perform (hhere : here.Lawful v) {α : Type}
    {decision : Scheduler → Context → α × Scheduler} (op : Scheduler.Operation)
    {w : Scheduler × σ} (hop : ∀ cx, (decision w.1 cx).2 = w.1.after cx op)
    (hnext : op.isRequest = true → w.1.ledger.HasCookies) :
    v.Leads w (here.perform (v.policy w.2) decision w).2 := by
  obtain ⟨s, x⟩ := w
  have hdecide : v.Leads (s, x) ((decision s ⟨v.policy x, here.now x, here.headroom x⟩).2, x) := by
    rw [hop]
    exact .of_step (.operate op _ _ hnext)
  exact hdecide.trans (hhere.flush _)

/-! ## Operations -/

theorem start (hhere : here.Lawful v) (policy : Policy) (w : Scheduler × σ) :
    v.Leads w (here.start policy w).2 := by
  unfold Surroundings.start
  split
  · exact .refl w
  · obtain ⟨s, x⟩ := w
    have hregister := hhere.register policy.config s x
    split
    · next h =>
      rw [h] at hregister
      exact hregister
    · next data y h =>
      rw [h] at hregister
      have hnoted := hregister.trans (.of_step (.aside (some data.maxCapability) s.reports
        s.progress true s.stopped s.applying))
      exact hnoted.trans (hhere.deliver (.registration data) _)

theorem signOff (hhere : here.Lawful v) (policy : Policy) (w : Scheduler × σ) :
    v.Leads w (here.signOff policy w).2 :=
  (hhere.askFinalStatus w).trans (hhere.unregister _ _)

theorem stop (hhere : here.Lawful v) (policy : Policy) (w : Scheduler × σ) :
    v.Leads w (here.stop policy w).2 := by
  unfold Surroundings.stop
  split
  · exact .refl w
  · obtain ⟨s, x⟩ := w
    have hstopped : v.Leads (s, x) ({ s with stopped := true }, x) := .of_step (.aside ..)
    have hflushed := hstopped.trans (hhere.flush _)
    generalize here.flush ({ s with stopped := true }, x) = w' at hflushed
    obtain ⟨s', x'⟩ := w'
    -- whether or not there is somebody to sign off with, the callbacks are waited for
    have hclosed : ∀ w'', v.Leads (s', x') w'' → v.Leads (s, x) (here.shutdown (here.drain w'')) :=
      fun w'' h => ((hflushed.trans h).trans (hhere.drain w'')).trans (hhere.shutdown _)
    simp only
    split
    · have hleft : v.Leads (s', x') ({ s' with registered := false }, x') := .of_step (.aside ..)
      exact hclosed _ (hleft.trans (hhere.signOff policy _))
    · exact hclosed _ (.refl _)

theorem requestTask (hhere : here.Lawful v) (request : TaskRequest) {w : Scheduler × σ}
    (hnext : w.1.ledger.HasCookies) :
    v.Leads w (here.requestTask (v.policy w.2) request w).2 := by
  unfold Surroundings.requestTask
  split
  · exact .refl w
  · exact hhere.perform (.request request) (fun _ => rfl) fun _ => hnext

theorem deallocateTask (hhere : here.Lawful v) (cookie : Cookie) (succeeded : Bool)
    (w : Scheduler × σ) :
    v.Leads w (here.deallocateTask (v.policy w.2) cookie succeeded w).2 :=
  hhere.perform (.deallocateTask cookie succeeded) (fun _ => rfl) nofun

theorem deallocateContainer (hhere : here.Lawful v) (id : ContainerId) (w : Scheduler × σ) :
    v.Leads w (here.deallocateContainer (v.policy w.2) id w).2 :=
  hhere.perform (.deallocateContainer id) (fun _ => rfl) nofun

theorem preemptIfNeeded (hhere : here.Lawful v) (w : Scheduler × σ) :
    v.Leads w (here.preemptIfNeeded (v.policy w.2) w).2 := by
  unfold Surroundings.preemptIfNeeded
  split
  · exact hhere.perform .preempt (fun _ => rfl) nofun
  · exact .refl w

theorem releaseIdle (hhere : here.Lawful v) (asOf : Instant) (w : Scheduler × σ) :
    v.Leads w (here.releaseIdle (v.policy w.2) asOf w).2 := by
  unfold Surroundings.releaseIdle
  split
  · exact .refl w
  · next timeout _ => exact hhere.perform (.releaseExpired timeout asOf) (fun _ => rfl) nofun

theorem tick (hhere : here.Lawful v) (asOf : Instant) (w : Scheduler × σ) :
    v.Leads w (here.tick (v.policy w.2) asOf w).2 := by
  -- two decisions in a row, the second under the policy that the first left alone
  have hrelease := hhere.releaseIdle asOf w
  unfold Surroundings.tick
  generalize here.releaseIdle (v.policy w.2) asOf w = released at hrelease ⊢
  obtain ⟨count, w'⟩ := released
  have hhouse : v.Leads w' (here.perform (v.policy w'.2) (fun s cx =>
      let s := s.forgetReturned cx asOf
      ((), if s.stopped then s else s.preemptQuietly cx)) w').2 :=
    hhere.perform (.housekeep asOf) (fun _ => rfl) nofun
  rw [hrelease.policy] at hhouse
  exact hrelease.trans hhouse

theorem handle (hhere : here.Lawful v) (event : ClusterEvent) (w : Scheduler × σ) :
    v.Leads w (here.handle (v.policy w.2) event w) := by
  cases event with
  | allocated containers =>
      exact hhere.perform (.hear (.allocated containers)) (fun _ => rfl) nofun
  | completed statuses =>
      exact hhere.perform (.hear (.completed statuses)) (fun _ => rfl) nofun
  | nodesUpdated reports =>
      exact hhere.perform (.hear (.nodesUpdated reports)) (fun _ => rfl) nofun
  | shutdownRequested => exact hhere.perform (.hear .shutdownRequested) (fun _ => rfl) nofun
  | failure cause => exact hhere.perform (.hear (.failure cause)) (fun _ => rfl) nofun

theorem progress (hhere : here.Lawful v) (w : Scheduler × σ) :
    v.Leads w (here.progress w).2 := by
  have hask := hhere.askProgress w
  unfold Surroundings.progress
  split
  · next p s x h =>
    rw [h] at hask
    simp only
    split
    · exact hask.trans (.of_step (.aside ..))
    · exact hask
  · next s x h =>
    rw [h] at hask
    exact hask

/-- Events that wait are heard one after another. -/
theorem applyAll (hhere : here.Lawful v) (q : EventQueue) (w : Scheduler × σ) :
    v.Leads w (q.applyAll here (v.policy w.2) w).2 := by
  show v.Leads w (q.waiting.foldl (fun w' event => here.handle (v.policy w.2) event w') w)
  suffices h : ∀ (events : List ClusterEvent) (w' : Scheduler × σ), v.Leads w w' →
      v.Leads w (events.foldl (fun w' event => here.handle (v.policy w.2) event w') w') from
    h q.waiting w (.refl w)
  intro events
  induction events with
  | nil => exact fun w' h => h
  | cons event events ih =>
      intro w' h
      refine ih _ (h.trans ?_)
      rw [← h.policy]
      exact hhere.handle event w'

end Lawful

end Surroundings

end TaskFleet
