import TaskFleet.Proofs.Scheduler.Submission

/-!
# Carrying effects out, answer by answer

A run of a fleet says that notices are passed on and that notices are refused, but not that
it is the notice at hand which is refused.  A `Courier` is a fleet that keeps account: it
takes up one effect after another, has a notice in its hands until the application has
accepted or refused it, and enters in its log what became of each effect.  A notice that is
refused is made good before the next effect is taken up.  In the meantime the scheduler may be
used, also while a notice is handed over.

The log and the notice in hand are what was carried out (`Reachable.carriedOut`), so whenever
nothing is left to do the log tells all that was ever decided (`Reachable.journal_of_atRest`).
-/

namespace TaskFleet

/-- A list that grows at its end, seen from one of its members. -/
theorem append_eq_append_cons {α : Type} {as es before later : List α} {e : α}
    (h : as ++ es = before ++ e :: later) :
    (∃ mid, as = before ++ e :: mid ∧ later = mid ++ es) ∨
      ∃ mid, before = as ++ mid ∧ es = mid ++ e :: later := by
  rcases List.append_eq_append_iff.mp h with ⟨mid, hbefore, hes⟩ | ⟨mid, has, hlater⟩
  · exact .inr ⟨mid, hbefore, hes⟩
  · cases mid with
    | nil => exact .inr ⟨[], by simpa using has.symm, by simpa using hlater.symm⟩
    | cons first mid =>
        cases hlater
        exact .inl ⟨mid, has, rfl⟩

theorem eq_of_singleton_eq_append_cons {α : Type} {as later : List α} {e e' : α}
    (h : [e] = as ++ e' :: later) : as = [] ∧ e' = e := by
  cases as with
  | nil =>
      cases h
      exact ⟨rfl, rfl⟩
  | cons first rest => simp at h

/-- A member of a list that has grown by one was there before, or it is the new one. -/
theorem append_singleton_eq_append_cons {α : Type} {as before later : List α} {e e' : α}
    (h : as ++ [e] = before ++ e' :: later) :
    (∃ mid, as = before ++ e' :: mid) ∨ before = as ∧ e' = e := by
  rcases append_eq_append_cons h with ⟨mid, hold, -⟩ | ⟨mid, rfl, hnew⟩
  · exact .inl ⟨mid, hold⟩
  · obtain ⟨rfl, hlast⟩ := eq_of_singleton_eq_append_cons hnew
    exact .inr ⟨List.append_nil _, hlast⟩

/-- What became of an effect that was carried out. -/
inductive Attempt where
  | made (call : ContainerCall)
  | accepted (notice : Notice)
  | refused (notice : Notice) (cause : DispatchError)
deriving DecidableEq

/-- The effect that was carried out. -/
def Attempt.effect : Attempt → Effect
  | made call => .call call
  | accepted notice | refused notice _ => .notify notice

/-- A scheduler with its client, the notice that is being handed over, and what became of
the effects before it. -/
structure Courier where
  scheduler : Scheduler
  client : Client
  inHand : Option Notice
  log : List Attempt

namespace Courier

/-- A courier that had nothing to carry. -/
def start (maxCapability : Resource) : Courier :=
  ⟨.fresh, .connect maxCapability, none, []⟩

/-- The scheduler and the client. -/
def fleet (d : Courier) : Fleet :=
  (d.scheduler, d.client)

/-- The effects in the log. -/
def effects (d : Courier) : List Effect :=
  d.log.map Attempt.effect

/-- Nothing is left to do. -/
structure AtRest (d : Courier) : Prop where
  done : d.scheduler.pending = []
  empty : d.inHand = none

/-- The scheduler is used. -/
def use (d : Courier) (cx : Context) (op : Scheduler.Operation) : Courier :=
  { d with scheduler := d.scheduler.after cx op }

/-- What a courier does when nobody uses the scheduler. -/
inductive Carries : Courier → Courier → Prop
  /-- The next effect is a call, and the client takes it. -/
  | call {d : Courier} {t : Scheduler} {call : ContainerCall} (hfree : d.inHand = none)
      (h : d.scheduler.takeUp? = some (.call call, t)) :
      Carries d { d with
        scheduler := t, client := d.client.call call, log := d.log ++ [.made call] }
  /-- The next effect is a notice. -/
  | handOver {d : Courier} {t : Scheduler} {notice : Notice} (hfree : d.inHand = none)
      (h : d.scheduler.takeUp? = some (.notify notice, t)) :
      Carries d { d with scheduler := t, inHand := some notice }
  | accept {d : Courier} {notice : Notice} (h : d.inHand = some notice) :
      Carries d { d with inHand := none, log := d.log ++ [.accepted notice] }
  /-- The notice does not reach the application, and this is made good. -/
  | refuse {d : Courier} {notice : Notice} (h : d.inHand = some notice) (now : Instant)
      (cause : DispatchError) :
      Carries d { d with
        scheduler := d.scheduler.refused now notice cause
        inHand := none
        log := d.log ++ [.refused notice cause] }
  /-- The scheduler changes what no decision about a request or a container respects. -/
  | aside (d : Courier) (maxCapability : Option Resource) (reports : List String)
      (progress : Progress) (registered stopped applying : Bool) :
      Carries d { d with
        scheduler := { d.scheduler with
          maxCapability, reports, progress, registered, stopped, applying } }
  /-- The client is used for something other than container requests. -/
  | client (d : Courier) {c : Client} (h : c.outstanding = d.client.outstanding) :
      Carries d { d with client := c }

/-- What happens to a courier at once. -/
inductive Step (policy : Policy) : Courier → Courier → Prop
  /-- Somebody uses the scheduler.  There is a cookie for every request. -/
  | operate {d : Courier} (op : Scheduler.Operation) (now : Instant) (headroom : Option Resource)
      (hnext : op.isRequest = true → d.scheduler.ledger.HasCookies) :
      Step policy d (d.use ⟨policy, now, headroom⟩ op)
  | carry {d d' : Courier} (h : Carries d d') : Step policy d d'

/-- From `d` the courier comes to `d'` while nobody uses the scheduler. -/
def Flushes (d d' : Courier) : Prop :=
  Relation.ReflTransGen Carries d d'

/-- A courier that has come this far from the beginning. -/
def Reachable (policy : Policy) (d : Courier) : Prop :=
  ∃ max, Relation.ReflTransGen (Step policy) (start max) d

variable {policy : Policy} {d d' d'' : Courier}

/-! ## A courier is a fleet -/

theorem Carries.run (h : Carries d d') : d.fleet.Run policy d'.fleet := by
  cases h with
  | call hfree h => exact .of_step (.call h)
  | handOver hfree h => exact .of_step (.deliver h)
  | accept h => exact .refl _
  | refuse h now cause => exact .of_step (.refuse now _ cause)
  | aside => exact .of_step (.aside ..)
  | client h => exact .of_step (.client h)

theorem Step.run (h : Step policy d d') : d.fleet.Run policy d'.fleet := by
  cases h with
  | operate op now headroom hnext => exact .of_step (.operate op now headroom hnext)
  | carry h => exact h.run

namespace Flushes

theorem refl (d : Courier) : Flushes d d :=
  Relation.ReflTransGen.refl

theorem trans (h : Flushes d d') (h' : Flushes d' d'') : Flushes d d'' :=
  Relation.ReflTransGen.trans h h'

theorem of_carries (h : Carries d d') : Flushes d d' :=
  .single h

end Flushes

namespace Reachable

theorem start (max : Resource) : Reachable policy (start max) :=
  ⟨max, .refl⟩

theorem step (hd : d.Reachable policy) (h : Step policy d d') : d'.Reachable policy := by
  obtain ⟨max, hstart⟩ := hd
  exact ⟨max, hstart.tail h⟩

theorem flushes (hd : d.Reachable policy) (h : Flushes d d') : d'.Reachable policy := by
  induction h with
  | refl => exact hd
  | tail _ hlast ih => exact ih.step (.carry hlast)

theorem use (hd : d.Reachable policy) {cx : Context} (hcx : cx.policy = policy)
    {op : Scheduler.Operation} (hnext : op.isRequest = true → d.scheduler.ledger.HasCookies) :
    (d.use cx op).Reachable policy := by
  subst hcx
  exact hd.step (.operate op cx.now cx.headroom hnext)

theorem fleet (hd : d.Reachable policy) : d.fleet.Reachable policy := by
  obtain ⟨max, h⟩ := hd
  induction h with
  | refl => exact .start max
  | tail _ hlast ih => exact ih.run hlast.run

theorem underway (hd : d.Reachable policy) : d.scheduler.Underway policy :=
  hd.fleet.underway

/-- What holds at the beginning and is kept by every step holds of a courier that was
reached.  The step may be taken to start from a courier that was reached as well. -/
theorem induct {P : Courier → Prop} (hd : d.Reachable policy) (hstart : ∀ max, P (.start max))
    (hstep : ∀ d d', d.Reachable policy → Step policy d d' → P d → P d') : P d := by
  obtain ⟨max, h⟩ := hd
  induction h with
  | refl => exact hstart max
  | tail h hlast ih => exact hstep _ _ ⟨max, h⟩ hlast ih

end Reachable

/-! ## What the log tells -/

theorem carriedOut_refused (policy : Policy) (s : Scheduler) (now : Instant) (notice : Notice)
    (cause : DispatchError) : (s.refused now notice cause).carriedOut = s.carriedOut := by
  obtain ⟨t, reports, ht, heq⟩ := Scheduler.refused_eq policy s now notice cause
  rw [heq]
  exact ht.decisions.carriedOut

/-- What was carried out is in the log, but for the notice at hand. -/
theorem Reachable.carriedOut (hd : d.Reachable policy) :
    d.scheduler.carriedOut = d.effects ++ (d.inHand.map Effect.notify).toList := by
  refine hd.induct (P := fun d => d.scheduler.carriedOut =
    d.effects ++ (d.inHand.map Effect.notify).toList) (fun max => rfl) ?_
  intro d d' hd h ih
  cases h with
  | operate op now headroom hnext =>
      show (d.scheduler.after ⟨policy, now, headroom⟩ op).carriedOut = _
      rw [Scheduler.carriedOut_after hd.underway.coherent]
      exact ih
  | carry h =>
      cases h with
      | call hfree h =>
          rw [hfree] at ih
          rw [Scheduler.carriedOut_takeUp? h, ih, hfree]
          simp [effects, Attempt.effect]
      | handOver hfree h =>
          rw [hfree] at ih
          rw [Scheduler.carriedOut_takeUp? h, ih]
          simp [effects]
      | accept h =>
          rw [h] at ih
          rw [ih]
          simp [effects, Attempt.effect]
      | refuse h now cause =>
          rw [h] at ih
          rw [carriedOut_refused policy, ih]
          simp [effects, Attempt.effect]
      | aside => exact ih
      | client => exact ih

/-- The effects in the log come first of all that were decided. -/
theorem Reachable.journal (hd : d.Reachable policy) :
    d.scheduler.journal =
      d.effects ++ ((d.inHand.map Effect.notify).toList ++ d.scheduler.pending) := by
  rw [Scheduler.journal, hd.carriedOut, List.append_assoc]

/-- What the log enters was decided, and what is decided later comes after it. -/
theorem Reachable.journal_of_log (hd : d.Reachable policy) {before after : List Attempt}
    {attempt : Attempt} (hlog : d.log = before ++ attempt :: after) :
    ∃ later, d.scheduler.journal = before.map Attempt.effect ++ attempt.effect :: later := by
  refine ⟨after.map Attempt.effect ++
    ((d.inHand.map Effect.notify).toList ++ d.scheduler.pending), ?_⟩
  rw [hd.journal, effects, hlog, List.map_append, List.map_cons, List.append_assoc,
    List.cons_append]

/-- Whenever nothing is left to do, the log tells all that was decided. -/
theorem Reachable.journal_of_atRest (hd : d.Reachable policy) (hrest : d.AtRest) :
    d.scheduler.journal = d.effects := by
  rw [hd.journal, hrest.done, hrest.empty]
  simp

/-- Then what was decided, at any point of the journal, is in the log at that point. -/
theorem Reachable.log_of_journal (hd : d.Reachable policy) (hrest : d.AtRest)
    {earlier later : List Effect} {e : Effect}
    (h : d.scheduler.journal = earlier ++ e :: later) :
    ∃ before attempt after, d.log = before ++ attempt :: after ∧ attempt.effect = e ∧
      before.map Attempt.effect = earlier ∧ after.map Attempt.effect = later := by
  rw [hd.journal_of_atRest hrest] at h
  obtain ⟨before, rest, hlog, hbefore, hrest⟩ := List.map_eq_append_iff.mp h
  obtain ⟨attempt, after, rfl, heffect, hafter⟩ := List.map_eq_cons_iff.mp hrest
  exact ⟨before, attempt, after, hlog, heffect, hbefore, hafter⟩

theorem Carries.log (h : Carries d d') : d.log <+: d'.log := by
  cases h with
  | call | accept | refuse => exact List.prefix_append ..
  | handOver | aside | client => exact List.prefix_refl _

/-- To carry effects out changes what the ledger and the journal say only where something is
given back. -/
theorem Carries.released (policy : Policy) (h : Carries d d') :
    ∃ t, Scheduler.DecisionsAmong policy [some .released] d.scheduler t ∧
      d'.scheduler.ledger = t.ledger ∧ d'.scheduler.journal = t.journal := by
  cases h with
  | call hfree h =>
      exact ⟨d.scheduler, .refl _, Scheduler.ledger_takeUp? h, Scheduler.journal_takeUp? h⟩
  | handOver hfree h =>
      exact ⟨d.scheduler, .refl _, Scheduler.ledger_takeUp? h, Scheduler.journal_takeUp? h⟩
  | accept h => exact ⟨d.scheduler, .refl _, rfl, rfl⟩
  | @refuse notice h now cause =>
      obtain ⟨t, reports, ht, heq⟩ := Scheduler.refused_eq policy d.scheduler now notice cause
      refine ⟨t, ht, ?_, ?_⟩
      · show (d.scheduler.refused now notice cause).ledger = _
        rw [heq]
      · show (d.scheduler.refused now notice cause).journal = _
        rw [heq]
        rfl
  | aside => exact ⟨d.scheduler, .refl _, rfl, rfl⟩
  | client => exact ⟨d.scheduler, .refl _, rfl, rfl⟩

/-- A notice that the log says was refused was so before, or it is refused now. -/
theorem Carries.refused_cases (h : Carries d d') {before after : List Attempt} {notice : Notice}
    {cause : DispatchError} (hlog : d'.log = before ++ .refused notice cause :: after) :
    (∃ mid, d.log = before ++ .refused notice cause :: mid) ∨
      d.inHand = some notice ∧ before = d.log ∧
        ∃ now, d'.scheduler = d.scheduler.refused now notice cause := by
  -- at most one attempt is entered, at the end
  have hlast : ∀ attempt, d.log ++ [attempt] = before ++ .refused notice cause :: after →
      (∃ mid, d.log = before ++ .refused notice cause :: mid) ∨
        attempt = .refused notice cause ∧ before = d.log := by
    intro attempt hlog
    rcases append_singleton_eq_append_cons hlog with hold | ⟨hbefore, hnew⟩
    · exact .inl hold
    · exact .inr ⟨hnew.symm, hbefore⟩
  cases h with
  | call hfree h =>
      rcases hlast _ hlog with hold | ⟨hnew, -⟩
      · exact .inl hold
      · cases hnew
  | handOver hfree h => exact .inl ⟨after, hlog⟩
  | accept h =>
      rcases hlast _ hlog with hold | ⟨hnew, -⟩
      · exact .inl hold
      · cases hnew
  | refuse h now cause' =>
      rcases hlast _ hlog with hold | ⟨hnew, hbefore⟩
      · exact .inl hold
      · cases hnew
        exact .inr ⟨h, hbefore, now, rfl⟩
  | aside => exact .inl ⟨after, hlog⟩
  | client => exact .inl ⟨after, hlog⟩

theorem Flushes.log (h : Flushes d d') : d.log <+: d'.log := by
  induction h with
  | refl => exact List.prefix_refl _
  | tail _ hlast ih => exact ih.trans hlast.log

/-- While effects are carried out the scheduler decides to give containers back, and changes
what no decision respects.  So a property of the ledger and the journal that this keeps is
kept. -/
theorem Flushes.keeps {P : Scheduler → Prop} (hd : d.Reachable policy) (h : Flushes d d')
    (hgive : ∀ s t u, s.Underway policy →
      Scheduler.DecisionsAmong policy [some .released] s t → u.ledger = t.ledger →
      u.journal = t.journal → P s → P u) (hP : P d.scheduler) : P d'.scheduler := by
  have hboth : d'.Reachable policy ∧ P d'.scheduler := by
    induction h with
    | refl => exact ⟨hd, hP⟩
    | tail _ hlast ih =>
        obtain ⟨hmid, hP⟩ := ih
        obtain ⟨t, ht, hledger, hjournal⟩ := hlast.released policy
        exact ⟨hmid.step (.carry hlast), hgive _ t _ hmid.underway ht hledger hjournal hP⟩
  exact hboth.2

/-- No cookie is issued while effects are carried out. -/
theorem Flushes.nextCookie (h : Flushes d d') :
    d'.scheduler.ledger.nextCookie = d.scheduler.ledger.nextCookie := by
  induction h with
  | refl => rfl
  | tail _ hlast ih =>
      obtain ⟨t, ht, hledger, -⟩ := hlast.released ⟨.standard, .alwaysMatch⟩
      rw [hledger, ht.decisions.nextCookie, ih]

end Courier

end TaskFleet
