import TaskFleet.Proofs.Scheduler.Run

/-!
# What happens to a fleet, one event after another

A step of a fleet says that something happened, and not what.  For properties that depend
on what happened, on whether a container has finished or how late it was when housekeeping
was done, an `Event` is a step with its name, and `Fleet.after` the fleet that it leads to.
Possible events are steps (`Event.Possible.run`), and every step is one
(`Step.exists_event`), so nothing is lost when a run is told as a list of events.
-/

namespace TaskFleet.Fleet

open Scheduler

variable {policy : Policy} {w w' : Fleet}

/-- What can happen to a fleet. -/
inductive Event where
  /-- Somebody uses the scheduler. -/
  | use (op : Operation) (now : Instant) (headroom : Option Resource)
  /-- The next effect is carried out, if there is one. -/
  | carryOut
  /-- A notice turns out not to have reached the application. -/
  | refuse (now : Instant) (notice : Notice) (cause : DispatchError)
  /-- The scheduler changes what no decision about a request or a container respects. -/
  | aside (maxCapability : Option Resource) (reports : List String) (progress : Progress)
      (registered stopped applying : Bool)
  /-- The client is used for something other than container requests. -/
  | client (client : Client)

/-- There is a cookie for every request, and only container requests change what the
client asks for. -/
def Event.Possible (w : Fleet) : Event → Prop
  | .use op _ _ => op.isRequest = true → w.1.ledger.HasCookies
  | .client d => d.outstanding = w.2.outstanding
  | _ => True

instance (w : Fleet) (e : Event) : Decidable (e.Possible w) :=
  match e with
  | .use op _ _ => inferInstanceAs (Decidable (op.isRequest = true → w.1.ledger.HasCookies))
  | .client d => inferInstanceAs (Decidable (d.outstanding = w.2.outstanding))
  | .carryOut | .refuse .. | .aside .. => isTrue trivial

/-- The fleet after an event. -/
def after (policy : Policy) (w : Fleet) : Event → Fleet
  | .use op now headroom => (w.1.after ⟨policy, now, headroom⟩ op, w.2)
  | .carryOut =>
    match w.1.takeUp? with
    | none => w
    | some (e, s) => (s, heed w.2 e)
  | .refuse now notice cause => (w.1.refused now notice cause, w.2)
  | .aside maxCapability reports progress registered stopped applying =>
    ({ w.1 with maxCapability, reports, progress, registered, stopped, applying }, w.2)
  | .client d => (w.1, d)

theorem Event.Possible.run {e : Event} (he : e.Possible w) : Run policy w (w.after policy e) := by
  obtain ⟨s, c⟩ := w
  cases e with
  | use op now headroom => exact .of_step (.operate op now headroom he)
  | carryOut =>
      cases htake : s.takeUp? with
      | none =>
          rw [after, htake]
          exact .refl _
      | some taken =>
          obtain ⟨effect, t⟩ := taken
          rw [after, htake]
          cases effect with
          | call call => exact .of_step (.call htake)
          | notify notice => exact .of_step (.deliver htake)
  | refuse now notice cause => exact .of_step (.refuse now notice cause)
  | aside => exact .of_step (.aside ..)
  | client d => exact .of_step (.client he)

theorem Step.exists_event (h : Step policy w w') : ∃ e : Event, e.Possible w ∧
    w' = w.after policy e := by
  cases h with
  | operate op now headroom hnext => exact ⟨.use op now headroom, hnext, rfl⟩
  | call h => exact ⟨.carryOut, trivial, by simp only [after, h]; rfl⟩
  | deliver h => exact ⟨.carryOut, trivial, by simp only [after, h]; rfl⟩
  | refuse now notice cause => exact ⟨.refuse now notice cause, trivial, rfl⟩
  | aside m r p g t a => exact ⟨.aside m r p g t a, trivial, rfl⟩
  | @client s c d h => exact ⟨.client d, h, rfl⟩

/-! ## Histories -/

/-- The fleet after a list of events. -/
def afterAll (policy : Policy) (w : Fleet) (es : List Event) : Fleet :=
  es.foldl (after policy) w

/-- The events can happen one after another, and each is as `P` says of it and of the fleet
to which it happens. -/
def Follows (policy : Policy) (P : Fleet → Event → Prop) : Fleet → List Event → Prop
  | _, [] => True
  | w, e :: es => e.Possible w ∧ P w e ∧ Follows policy P (w.after policy e) es

instance Follows.decidable {P : Fleet → Event → Prop} [∀ w e, Decidable (P w e)] :
    (w : Fleet) → (es : List Event) → Decidable (Follows policy P w es)
  | _, [] => isTrue trivial
  | w, e :: es =>
    have : Decidable (Follows policy P (w.after policy e) es) := Follows.decidable _ es
    inferInstanceAs (Decidable (e.Possible w ∧ P w e ∧ Follows policy P (w.after policy e) es))

theorem Follows.run {P : Fleet → Event → Prop} {es : List Event} (h : Follows policy P w es) :
    Run policy w (w.afterAll policy es) := by
  induction es generalizing w with
  | nil => exact .refl w
  | cons e es ih => exact h.1.run.trans (ih h.2.2)

/-- A list of events may be followed up to any of them. -/
theorem Follows.split {P : Fleet → Event → Prop} {before after : List Event}
    (h : Follows policy P w (before ++ after)) :
    Run policy w (w.afterAll policy before) ∧
      Follows policy P (w.afterAll policy before) after := by
  induction before generalizing w with
  | nil => exact ⟨.refl w, h⟩
  | cons e before ih =>
      obtain ⟨he, -, hrest⟩ := h
      obtain ⟨hrun, hafter⟩ := ih hrest
      exact ⟨he.run.trans hrun, hafter⟩

/-- Every run is a list of events. -/
theorem Run.exists_events (h : Run policy w w') : ∃ es, Follows policy (fun _ _ => True) w es ∧
    w' = w.afterAll policy es := by
  induction h using Relation.ReflTransGen.head_induction_on with
  | refl => exact ⟨[], trivial, rfl⟩
  | head hstep _ ih =>
      obtain ⟨e, he, rfl⟩ := hstep.exists_event
      obtain ⟨es, hes, heq⟩ := ih
      exact ⟨e :: es, ⟨he, trivial, hes⟩, heq⟩

/-- What each of the events keeps, they keep together. -/
theorem Follows.keeps {P : Fleet → Event → Prop} {Q : Fleet → Prop} {es : List Event}
    (h : Follows policy P w es) (hw : w.Reachable policy)
    (hevent : ∀ w e, w.Reachable policy → e.Possible w → P w e → Q w → Q (w.after policy e))
    (hQ : Q w) : Q (w.afterAll policy es) := by
  induction es generalizing w with
  | nil => exact hQ
  | cons e es ih =>
      obtain ⟨he, hP, hrest⟩ := h
      exact ih hrest (hw.run he.run) (hevent w e hw he hP hQ)

end TaskFleet.Fleet
