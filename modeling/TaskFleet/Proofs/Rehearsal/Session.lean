import TaskFleet.Rehearsal.Session
import TaskFleet.Proofs.Scheduler.Surroundings

/-!
# A rehearsal is a run

In a rehearsal a scripted application is called by a crew of workers, and what it does in a
callback may use the scheduler again.  The crew moves as often as it can before anybody
else goes on, so the surroundings of the scheduler are defined by the moves of the crew and
these by the surroundings.

The circle is cut where the program cuts it, at the number of moves that are left: with
lawful moves the surroundings are lawful (`surroundings_lawful`), and with lawful
surroundings one more move leads from world to world by a run (`leads_settle`).
-/

namespace TaskFleet.Rehearsal

open Surroundings

/-- A session shows its policy and its client. -/
def view : View Session := ⟨Session.policy, Session.client⟩

/-! ## What the crew is told -/

/-- What keeps the policy and the client of a session is no step of its fleet. -/
theorem leads_of_same {s : Scheduler} {x y : Session} (hpolicy : y.policy = x.policy)
    (hclient : y.client = x.client) : view.Leads (s, x) (s, y) := by
  refine .of_eq hpolicy ?_
  show y.client.outstanding = x.client.outstanding
  rw [hclient]

section Moves

variable {settle : World → World}

theorem leads_dispatch (hsettle : ∀ w, view.Leads w (settle w)) (callback : Callback)
    (w : World) : view.Leads w (dispatch settle callback w).2 := by
  obtain ⟨s, x⟩ := w
  have hqueued : view.Leads (s, x) (s, x.changePool fun _ =>
      (x.pool.submit x.hash callback.key? { callback, isReport := false }).2) :=
    leads_of_same rfl rfl
  exact hqueued.trans (hsettle _)

theorem leads_ask (hsettle : ∀ w, view.Leads w (settle w)) (question : Callback) {α : Type}
    (answer : Script → α) (w : World) : view.Leads w (ask settle question answer w).2 := by
  have hdispatch := leads_dispatch hsettle question w
  unfold ask
  split
  · next h =>
    rw [h] at hdispatch
    exact hdispatch
  · next h =>
    rw [h] at hdispatch
    split
    · exact hdispatch
    · split
      · exact hdispatch
      · exact hdispatch

theorem surroundings_lawful (hsettle : ∀ w, view.Leads w (settle w)) :
    (surroundings settle).Lawful view where
  call call x := ⟨rfl, rfl⟩
  register config s x := by
    refine .of_eq rfl ?_
    show (x.client.register _ _ _).2.outstanding = x.client.outstanding
    unfold Client.register
    simp only
    split <;> rfl
  unregister status w := by
    obtain ⟨s, x⟩ := w
    have hleft : view.Leads (s, x) (s, { x with client := (x.client.unregister status).2 }) := by
      refine .of_eq rfl ?_
      show (x.client.unregister status).2.outstanding = x.client.outstanding
      unfold Client.unregister
      simp only
      split <;> rfl
    simp only [surroundings]
    split
    · refine View.Leads.trans ?_ (hsettle _)
      exact hleft.trans (leads_of_same rfl rfl)
    · exact hleft
  deliver callback w := leads_dispatch hsettle callback w
  offer notice w := leads_dispatch hsettle (.notice notice) w
  askProgress w := leads_ask hsettle .askProgress Script.progress w
  askFinalStatus w := leads_ask hsettle .askFinalStatus Script.finalStatus w
  drain w := hsettle w
  shutdown w := leads_of_same rfl rfl

/-! ## What callbacks do -/

theorem leads_react (hsettle : ∀ w, view.Leads w (settle w)) (reaction : Reaction)
    (w : World) : view.Leads w (react settle reaction w) := by
  have hhere := surroundings_lawful hsettle
  cases reaction with
  | nothing => exact .refl w
  | finish cookie succeeded => exact hhere.deallocateTask cookie succeeded w
  | acknowledge id => exact hhere.deallocateContainer id w
  | stop =>
      refine (hhere.stop w.2.policy w).trans ?_
      exact leads_of_same rfl rfl

theorem leads_perform (hsettle : ∀ w, view.Leads w (settle w)) (e : Errand) (w : World) :
    view.Leads w (perform settle e w).2 := by
  unfold perform
  split
  · exact .refl w
  · simp only
    split
    · exact leads_react hsettle e.reaction w
    · exact leads_react hsettle e.reaction w

end Moves

/-! ## The crew moves -/

theorem leads_withCrew (crew : Crew Errand) (w : World) :
    view.Leads w (scene.withCrew crew w) :=
  leads_of_same rfl rfl

theorem leads_arrive (worker : Nat) (e : Errand) (w : World) :
    view.Leads w (scene.arrive worker e w) :=
  leads_of_same rfl rfl

theorem leads_conclude (worker : Nat) (outcome : Outcome Errand) (w : World) :
    view.Leads w (scene.conclude worker outcome w) := by
  cases outcome with
  | finished failed => exact leads_withCrew _ w
  | followedBy next => exact leads_arrive worker next w

theorem leads_settle (fuel : Nat) (w : World) : view.Leads w (scene.settle fuel w) := by
  induction fuel generalizing w with
  | zero => exact .refl w
  | succ fuel ih =>
      rw [Scene.settle]
      split
      · next worker content crew _ =>
        have hperform := (leads_withCrew crew w).trans
          (leads_perform ih content (scene.withCrew crew w))
        exact (hperform.trans (leads_conclude worker _ _)).trans (ih _)
      · split
        · next worker content crew _ =>
          exact ((leads_withCrew crew w).trans (leads_arrive worker content _)).trans (ih _)
        · exact .refl w

/-- The surroundings of a rehearsal are lawful, so every operation in it is a run. -/
theorem stage_lawful : stage.Lawful view :=
  surroundings_lawful fun w => leads_settle (moves w) w

/-- A rehearsal begins with a fleet that was asked for nothing. -/
theorem reachable_start (policy : Policy) (max : Resource) (script : Script)
    (hash : String → Nat) :
    (view.fleet (.fresh, .start policy (.connect max) script hash)).Reachable policy :=
  .start max

end TaskFleet.Rehearsal
