import Mathlib.Algebra.GroupWithZero.Nat
import TaskFleet.Proofs.Scheduler.Courier

/-!
# Flushing is carrying out

A scheduler carries its decisions out through its surroundings, with a flush after every
operation.  Here it is shown that this is what a courier does, if the surroundings leave the
scheduler alone while they are called and keep books on what they were called for and what
became of each notice (`Surroundings.KeepsBooks`): the scheduler is used, everything is
carried out, and the courier is at rest (`KeepsBooks.perform`).

A flush is bounded, and the bound suffices because a refused notice is made good by one call
at most: what is left to do weighs less with every effect (`burden_refused`).
-/

namespace TaskFleet

/-- Where the client and the log are found in the surroundings. -/
structure Books (σ : Type) where
  client : σ → Client
  log : σ → List Attempt

/-- The courier that the books tell of, with nothing in its hands. -/
def Books.courier {σ : Type} (b : Books σ) (w : Scheduler × σ) : Courier :=
  ⟨w.1, b.client w.2, none, b.log w.2⟩

/-- What became of a notice that was answered. -/
def Attempt.answered (notice : Notice) : Except DispatchError Unit → Attempt
  | .ok () => .accepted notice
  | .error cause => .refused notice cause

/-- The call that makes good that a notice was refused, if it has to be made good. -/
def Attempt.remedy? : Attempt → Option ContainerCall
  | .refused (.taskAllocated _ _ container) _ => some (.giveBack container.id)
  | .refused (.containerBeingReleased id) _ => some (.giveBack id)
  | _ => none

/-- The surroundings leave the scheduler alone while they are called, and they keep books. -/
structure Surroundings.KeepsBooks {σ : Type} (b : Books σ) (here : Surroundings σ) : Prop where
  call : ∀ call x, b.client (here.call call x) = (b.client x).call call ∧
    b.log (here.call call x) = b.log x ++ [.made call]
  deliver : ∀ notice s x, ∃ answer y, here.deliver (.notice notice) (s, x) = (answer, s, y) ∧
    (b.client y).outstanding = (b.client x).outstanding ∧
    b.log y = b.log x ++ [.answered notice answer]
  offer : ∀ notice s x, ∃ answer y, here.offer notice (s, x) = (answer, s, y) ∧
    (b.client y).outstanding = (b.client x).outstanding ∧ b.log y = b.log x

/-! ## What is left to do -/

/-- What an effect weighs.  A notice may have to be made good by a call. -/
def Effect.weight : Effect → Nat
  | .call _ => 1
  | .notify _ => 2

/-- What the pending effects weigh. -/
def Scheduler.burden (s : Scheduler) : Nat :=
  (s.pending.map Effect.weight).sum

namespace Scheduler

theorem burden_takeUp? {s t : Scheduler} {e : Effect} (h : s.takeUp? = some (e, t)) :
    s.burden = e.weight + t.burden := by
  rw [burden, pending_takeUp? h, List.map_cons, List.sum_cons, burden]

theorem pending_releaseHeld (s : Scheduler) (now : Instant) (id : ContainerId)
    (reason : String) : ∃ calls : List ContainerCall, calls.Sublist [.giveBack id] ∧
      (s.releaseHeld now id reason).2.pending = s.pending ++ calls.map Effect.call := by
  unfold releaseHeld
  split
  · exact ⟨[.giveBack id], .refl _, rfl⟩
  · exact ⟨[], List.nil_sublist _, (List.append_nil _).symm⟩

/-- What follows from a refusal is the call that makes it good, or nothing. -/
theorem pending_refused (s : Scheduler) (now : Instant) (notice : Notice)
    (cause : DispatchError) :
    ∃ calls : List ContainerCall, calls.Sublist (Attempt.refused notice cause).remedy?.toList ∧
      (s.refused now notice cause).pending = s.pending ++ calls.map Effect.call := by
  obtain ⟨reports, hkept⟩ :=
    (s.giveUpUnheard now notice).keepReport_eq cause (undelivered notice cause)
  rw [refused, hkept]
  have hnothing : ∀ calls, ∃ made : List ContainerCall, made.Sublist calls ∧
      s.pending = s.pending ++ made.map Effect.call :=
    fun calls => ⟨[], List.nil_sublist calls, (List.append_nil _).symm⟩
  show ∃ calls, _ ∧ (s.giveUpUnheard now notice).pending = s.pending ++ _
  unfold giveUpUnheard
  split
  · split
    · exact pending_releaseHeld s now _ _
    · exact hnothing _
  · split
    · exact pending_releaseHeld s now _ _
    · exact hnothing _
  · exact hnothing _

/-- A refused notice is made good by one call at most. -/
theorem burden_refused (s : Scheduler) (now : Instant) (notice : Notice)
    (cause : DispatchError) : (s.refused now notice cause).burden ≤ s.burden + 1 := by
  obtain ⟨calls, hcalls, hpending⟩ := s.pending_refused now notice cause
  have hweight : ∀ calls : List ContainerCall,
      ((calls.map Effect.call).map Effect.weight).sum = calls.length := by
    intro calls
    induction calls with
    | nil => rfl
    | cons call calls ih =>
        rw [List.map_cons, List.map_cons, List.sum_cons, ih, Effect.weight, List.length_cons,
          Nat.add_comm]
  have hone : (Attempt.refused notice cause).remedy?.toList.length ≤ 1 := by
    cases (Attempt.refused notice cause).remedy? <;> simp
  have hlength := hcalls.length_le
  rw [burden, hpending, List.map_append, List.sum_append, hweight, ← burden]
  omega

/-- A flush may carry out as much as is left to do. -/
theorem burden_le_flushBound (s : Scheduler) : s.burden ≤ s.flushBound := by
  have hweights : ∀ es : List Effect, (es.map Effect.weight).sum ≤ 2 * es.length := by
    intro es
    induction es with
    | nil => exact Nat.le_refl 0
    | cons e es ih =>
        rw [List.map_cons, List.sum_cons, List.length_cons]
        have hweight : e.weight ≤ 2 := by cases e <;> simp [Effect.weight]
        omega
  have hpending := hweights s.pending
  unfold burden flushBound
  omega

/-- An operation does not end or begin a flush. -/
theorem applying_after {s : Scheduler} (hs : s.ledger.Coherent) (cx : Context)
    (op : Operation) : (s.after cx op).applying = s.applying :=
  keeps_after (P := fun t => t.applying = s.applying) hs cx op (fun _ h => h)
    (fun _ _ _ h => h) rfl

end Scheduler

/-! ## Carrying out -/

namespace Surroundings.KeepsBooks

variable {σ : Type} {b : Books σ} {here : Surroundings σ}

/-- The scheduler and its surroundings change, but no book of the courier's. -/
theorem flushes_of_eq {s t : Scheduler} {x y : σ}
    (hs : ∃ maxCapability reports progress registered stopped applying,
      t = { s with maxCapability, reports, progress, registered, stopped, applying })
    (hclient : (b.client y).outstanding = (b.client x).outstanding)
    (hlog : b.log y = b.log x) : (b.courier (s, x)).Flushes (b.courier (t, y)) := by
  obtain ⟨maxCapability, reports, progress, registered, stopped, applying, rfl⟩ := hs
  have haside := Courier.Carries.aside (b.courier (s, x)) maxCapability reports progress
    registered stopped applying
  have hclient := Courier.Carries.client { b.courier (s, x) with
    scheduler := { s with maxCapability, reports, progress, registered, stopped, applying } }
    hclient
  have hboth := (Courier.Flushes.of_carries haside).trans (.of_carries hclient)
  simpa [Books.courier, hlog] using hboth

theorem offerReports (hhere : here.KeepsBooks b) (reports : List String) (s : Scheduler)
    (x : σ) : ∃ kept y, here.offerReports reports (s, x) = (kept, s, y) ∧
      (b.client y).outstanding = (b.client x).outstanding ∧ b.log y = b.log x := by
  induction reports generalizing x with
  | nil => exact ⟨[], x, rfl, rfl, rfl⟩
  | cons report rest ih =>
      obtain ⟨answer, y, hoffer, hclient, hlog⟩ := hhere.offer (.failure (.ofRoot report)) s x
      rw [Surroundings.offerReports, hoffer]
      split
      · next w h =>
        cases h
        obtain ⟨kept, z, hrest, hclient', hlog'⟩ := ih y
        exact ⟨kept, z, hrest, hclient'.trans hclient, hlog'.trans hlog⟩
      · next w h =>
        cases h
        exact ⟨[], y, rfl, hclient, hlog⟩
      · next w _ h =>
        cases h
        exact ⟨report :: rest, y, rfl, hclient, hlog⟩

theorem redeliver (hhere : here.KeepsBooks b) (s : Scheduler) (x : σ) :
    ∃ reports y, here.redeliver (s, x) = ({ s with reports }, y) ∧
      (b.client y).outstanding = (b.client x).outstanding ∧ b.log y = b.log x := by
  obtain ⟨kept, y, hoffer, hclient, hlog⟩ :=
    hhere.offerReports s.reports { s with reports := [] } x
  refine ⟨kept, y, ?_, hclient, hlog⟩
  simp [Surroundings.redeliver, hoffer]

/-- An effect is carried out, and less is left to do. -/
theorem apply (hhere : here.KeepsBooks b) {s t : Scheduler} {x : σ} {e : Effect}
    (h : s.takeUp? = some (e, t)) :
    (b.courier (s, x)).Flushes (b.courier (here.apply e (t, x))) ∧
      (here.apply e (t, x)).1.burden < s.burden := by
  have hburden := Scheduler.burden_takeUp? h
  cases e with
  | call call =>
      obtain ⟨hclient, hlog⟩ := hhere.call call x
      have hcall := Courier.Carries.call (d := b.courier (s, x)) rfl h
      refine ⟨?_, ?_⟩
      · simpa [Books.courier, Surroundings.apply, hclient, hlog] using
          Courier.Flushes.of_carries hcall
      · rw [hburden]
        simp [Surroundings.apply, Effect.weight]
  | notify notice =>
      obtain ⟨answer, y, hdeliver, hclient, hlog⟩ := hhere.deliver notice t x
      have hhand := Courier.Flushes.of_carries
        (Courier.Carries.handOver (d := b.courier (s, x)) rfl h)
      cases answer with
      | ok done =>
          have haccept := Courier.Carries.accept
            (d := { b.courier (s, x) with scheduler := t, inHand := some notice }) rfl
          have hbooks := Courier.Carries.client
            { b.courier (t, x) with log := b.log x ++ [.accepted notice] } hclient
          have hall := (hhand.trans (.of_carries haccept)).trans (.of_carries hbooks)
          refine ⟨?_, ?_⟩
          · simpa [Books.courier, Surroundings.apply, hdeliver, hlog, Attempt.answered] using hall
          · rw [hburden]
            simp [Surroundings.apply, hdeliver, Effect.weight]
      | error cause =>
          have hrefuse := Courier.Carries.refuse
            (d := { b.courier (s, x) with scheduler := t, inHand := some notice }) rfl
            (here.now y) cause
          have hbooks := Courier.Carries.client
            { b.courier (t.refused (here.now y) notice cause, x) with
              log := b.log x ++ [.refused notice cause] } hclient
          have hall := (hhand.trans (.of_carries hrefuse)).trans (.of_carries hbooks)
          have hrefused := t.burden_refused (here.now y) notice cause
          refine ⟨?_, ?_⟩
          · simpa [Books.courier, Surroundings.apply, hdeliver, hlog, Attempt.answered] using hall
          · rw [hburden]
            simp only [Surroundings.apply, hdeliver, Effect.weight]
            omega

theorem applyPending (hhere : here.KeepsBooks b) (fuel : Nat) (w : Scheduler × σ)
    (hfuel : w.1.burden ≤ fuel) :
    (b.courier w).Flushes (b.courier (here.applyPending fuel w)) ∧
      (here.applyPending fuel w).1.pending = [] := by
  induction fuel generalizing w with
  | zero =>
      refine ⟨.refl _, ?_⟩
      show w.1.pending = []
      unfold Scheduler.burden at hfuel
      cases hpending : w.1.pending with
      | nil => rfl
      | cons e es =>
          have hweight : 0 < e.weight := by cases e <;> simp [Effect.weight]
          rw [hpending, List.map_cons, List.sum_cons] at hfuel
          omega
  | succ fuel ih =>
      obtain ⟨s, x⟩ := w
      rw [Surroundings.applyPending]
      split
      · next h => exact ⟨.refl _, Scheduler.takeUp?_eq_none_iff.mp h⟩
      · next e t h =>
        obtain ⟨hfirst, hless⟩ := hhere.apply (x := x) h
        obtain ⟨hrest, hdone⟩ := ih (here.apply e (t, x)) (by omega)
        exact ⟨hfirst.trans hrest, hdone⟩

theorem flush (hhere : here.KeepsBooks b) {w : Scheduler × σ} (hidle : w.1.applying = false) :
    (b.courier w).Flushes (b.courier (here.flush w)) ∧ (b.courier (here.flush w)).AtRest := by
  obtain ⟨s, x⟩ := w
  obtain ⟨reports, y, hredeliver, hclient, hlog⟩ :=
    hhere.redeliver { s with applying := true } x
  obtain ⟨hcarried, hdone⟩ := hhere.applyPending
    (Scheduler.flushBound { s with applying := true, reports })
    ({ s with applying := true, reports }, y) (Scheduler.burden_le_flushBound _)
  have hbegin : (b.courier (s, x)).Flushes
      (b.courier ({ s with applying := true, reports }, y)) :=
    flushes_of_eq ⟨_, _, _, _, _, _, rfl⟩ hclient hlog
  have hidle : s.applying = false := hidle
  simp only [Surroundings.flush, hidle, Bool.false_eq_true, if_false, hredeliver]
  generalize here.applyPending _ _ = w' at hcarried hdone ⊢
  obtain ⟨t, z⟩ := w'
  have hend : (b.courier (t, z)).Flushes (b.courier ({ t with applying := false }, z)) :=
    flushes_of_eq ⟨_, _, _, _, _, _, rfl⟩ rfl rfl
  exact ⟨(hbegin.trans hcarried).trans hend, hdone, rfl⟩

end Surroundings.KeepsBooks

/-! ## Operations -/

/-- What decisions depend on in these surroundings. -/
def Surroundings.context {σ : Type} (here : Surroundings σ) (policy : Policy) (x : σ) : Context :=
  ⟨policy, here.now x, here.headroom x⟩

/-- Use the scheduler and carry out what follows. -/
def Surroundings.operate {σ : Type} (here : Surroundings σ) (policy : Policy)
    (op : Scheduler.Operation) (w : Scheduler × σ) : Scheduler × σ :=
  (here.perform policy (fun s cx => ((), s.after cx op)) w).2

/-- A courier that was reached and is at rest, and no flush is under way. -/
structure Books.Resting {σ : Type} (b : Books σ) (policy : Policy) (w : Scheduler × σ) :
    Prop where
  reachable : (b.courier w).Reachable policy
  atRest : (b.courier w).AtRest
  idle : w.1.applying = false

namespace Surroundings

variable {σ : Type} {b : Books σ} {here : Surroundings σ} {policy : Policy} {w : Scheduler × σ}

/-- What the cluster and the application call, and what time brings, are operations. -/
theorem handle_eq_operate (event : ClusterEvent) :
    here.handle policy event w = here.operate policy (.hear event) w := by
  cases event <;> rfl

theorem requestTask_eq_operate (hstopped : w.1.stopped = false) (request : TaskRequest) :
    (here.requestTask policy request w).2 = here.operate policy (.request request) w := by
  simp only [requestTask, hstopped, Bool.false_eq_true, if_false]
  rfl

theorem preemptIfNeeded_eq_operate (henabled : policy.config.preemptionEnabled = true) :
    (here.preemptIfNeeded policy w).2 = here.operate policy .preempt w := by
  simp only [preemptIfNeeded, henabled, if_true]
  rfl

theorem releaseIdle_eq_operate {timeout : UInt64}
    (hlimited : policy.config.idleReleaseTimeoutMs = some timeout) (asOf : Instant) :
    (here.releaseIdle policy asOf w).2 = here.operate policy (.releaseExpired timeout asOf) w := by
  simp only [releaseIdle, hlimited]
  rfl

theorem tick_eq_operate (asOf : Instant) :
    (here.tick policy asOf w).2 =
      here.operate policy (.housekeep asOf) (here.releaseIdle policy asOf w).2 := rfl

theorem applying_flush (hidle : w.1.applying = false) : (here.flush w).1.applying = false := by
  rw [flush, if_neg (by simp [hidle])]

/-- In an operation the scheduler is used, everything is carried out, and then the courier is
at rest. -/
theorem KeepsBooks.operate (hhere : here.KeepsBooks b) (hw : b.Resting policy w)
    (op : Scheduler.Operation) (hnext : op.isRequest = true → w.1.ledger.HasCookies) :
    ((b.courier w).use (here.context policy w.2) op).Flushes (b.courier (here.operate policy op w)) ∧
      b.Resting policy (here.operate policy op w) := by
  have hs : w.1.ledger.Coherent := hw.reachable.underway.coherent
  have hflush : here.operate policy op w =
      here.flush (w.1.after (here.context policy w.2) op, w.2) := by
    simp only [Surroundings.operate, perform, context]
  have hidle : (w.1.after (here.context policy w.2) op).applying = false :=
    (Scheduler.applying_after hs _ op).trans hw.idle
  have hused : ((b.courier w).use (here.context policy w.2) op).Reachable policy :=
    hw.reachable.use rfl hnext
  obtain ⟨hflushes, hrest⟩ :=
    hhere.flush (w := (w.1.after (here.context policy w.2) op, w.2)) hidle
  rw [hflush]
  exact ⟨hflushes, hused.flushes hflushes, hrest, applying_flush hidle⟩

/-- Operations may follow each other as long as there are cookies for their requests. -/
theorem KeepsBooks.operations (hhere : here.KeepsBooks b) (hw : b.Resting policy w)
    (ops : List Scheduler.Operation)
    (hnext : w.1.ledger.nextCookie.toNat + ops.countP Scheduler.Operation.isRequest < 2 ^ 64) :
    b.Resting policy (ops.foldl (fun w op => here.operate policy op w) w) := by
  induction ops generalizing w with
  | nil => exact hw
  | cons op ops ih =>
      rw [List.countP_cons] at hnext
      have hcookies : op.isRequest = true → w.1.ledger.HasCookies := fun hop => by
        rw [if_pos hop] at hnext
        unfold Ledger.HasCookies
        omega
      have hs : w.1.ledger.Coherent := hw.reachable.underway.coherent
      obtain ⟨hflushes, hrests⟩ := hhere.operate hw op hcookies
      have hcount := Scheduler.nextCookie_after hs (here.context policy w.2) hcookies
      have hsame : (here.operate policy op w).1.ledger.nextCookie =
          (w.1.after (here.context policy w.2) op).ledger.nextCookie := hflushes.nextCookie
      rw [List.foldl_cons]
      refine ih hrests ?_
      rw [hsame]
      omega

end Surroundings

/-! ## Answers by a script -/

/-- A client, the log, and what the application will answer to the next notices.  Notices for
which there is no answer are accepted. -/
structure Prompter where
  client : Client
  log : List Attempt
  answers : List (Except DispatchError Unit)

/-- The surroundings in which notices are answered by a script and nothing else happens. -/
def prompted : Surroundings Prompter where
  now _ := .epoch
  headroom x := x.client.headroom
  call call x := { x with client := x.client.call call, log := x.log ++ [.made call] }
  register config x :=
    let (answer, client) := x.client.register config.appHost config.appPort config.trackingUrl
    (answer.mapError .ofRoot, { x with client })
  unregister status w :=
    let (answer, client) := w.2.client.unregister status
    (answer.mapError .ofRoot, w.1, { w.2 with client })
  deliver callback w :=
    match callback with
    | .notice notice =>
      let answer := w.2.answers.head?.getD (.ok ())
      (answer, w.1, { w.2 with
        log := w.2.log ++ [.answered notice answer], answers := w.2.answers.tail })
    | _ => (.ok (), w)
  offer _ w := (.ok (), w)
  askProgress w := (.ok .zero, w)
  askFinalStatus w := (.ok ⟨.succeeded, "", ""⟩, w)
  drain w := w
  shutdown w := w

namespace Prompter

/-- The books of a prompter. -/
def books : Books Prompter := ⟨client, log⟩

/-- A prompter that begins. -/
def start (client : Client) (answers : List (Except DispatchError Unit)) : Scheduler × Prompter :=
  (.fresh, ⟨client, [], answers⟩)

theorem keepsBooks : prompted.KeepsBooks books where
  call _ _ := ⟨rfl, rfl⟩
  deliver _ _ _ := ⟨_, _, rfl, rfl, rfl⟩
  offer _ _ x := ⟨_, x, rfl, rfl, rfl⟩

/-- A prompter begins at rest, with a client that was asked for nothing. -/
theorem resting_start (policy : Policy) (client : Client)
    (hnothing : client.outstanding = .empty) (answers : List (Except DispatchError Unit)) :
    books.Resting policy (start client answers) := by
  have hclient : Courier.Carries (.start client.maxCapability)
      (books.courier (start client answers)) := .client _ hnothing
  exact ⟨(Courier.Reachable.start client.maxCapability).step (.carry hclient), ⟨rfl, rfl⟩, rfl⟩

/-- The cluster says what it can still grant. -/
def tell (headroom : Resource) (w : Scheduler × Prompter) : Scheduler × Prompter :=
  (w.1, { w.2 with client := { w.2.client with headroom := some headroom } })

theorem resting_tell {policy : Policy} {w : Scheduler × Prompter}
    (hw : books.Resting policy w) (headroom : Resource) :
    books.Resting policy (tell headroom w) := by
  have hclient : Courier.Carries (books.courier w) (books.courier (tell headroom w)) :=
    .client (books.courier w) (c := { w.2.client with headroom := some headroom }) rfl
  exact ⟨hw.reachable.step (.carry hclient), ⟨hw.atRest.done, rfl⟩, hw.idle⟩

end Prompter

end TaskFleet
