import TaskFleet.Proofs.Scheduler.Locality

/-!
# Tasks run in containers that are large enough

A container changes hands in three ways, and each has its own test of its size.  A new request
picks an idle container, and a container that is left idle is offered to the requests that
wait; both compare the sizes besides asking the policy.  A grant that names no request is
matched with one that it is large enough for.  Only a grant that names a request is taken at
its word: how large it is is up to the cluster (`Scheduler.sized`).

So if the cluster keeps to what it was asked for, every container in use is large enough for
the request that has it (`Ledger.Fits`).  From one decision to the next a container in use
belongs to the same request and is as large as before, or it was just handed out
(`Decision.goesOn`), and what was requested never changes.

That the policy was asked is read off the operation: what it hands out although it was held
before, it has decided to reuse, and this leaves the signature of the container alone
(`handsOn_after`).
-/

namespace TaskFleet

/-- Every container in use is large enough for the request that has it. -/
def Ledger.Fits (l : Ledger) : Prop :=
  ∀ k h c entry, l.held.get? k = some h → h.assignment.owner? = some c →
    l.entries.get? c = some entry →
      h.container.resource.covers entry.request.capability = true

/-- The container is large enough for the request under the cookie. -/
def Ledger.Suits (l : Ledger) (h : Holding) (c : Cookie) : Prop :=
  ∃ entry, l.entries.get? c = some entry ∧
    h.container.resource.covers entry.request.capability = true

/-- A container goes on being held, with the signature and the size that it had.  It belongs to
whom it belonged, or it is large enough for the one to whom it was given. -/
structure Ledger.GoesOn (l : Ledger) (old new : Holding) : Prop where
  signature : old.signature = new.signature
  size : old.container.resource = new.container.resource
  owner : ∀ c, new.assignment.owner? = some c → old.assignment.owner? = some c ∨ l.Suits new c

namespace Ledger

variable {l l' : Ledger} {k : ContainerId} {new : Holding}

theorem GoesOn.refl (h : Holding) : l.GoesOn h h :=
  ⟨rfl, rfl, fun _ howner => .inl howner⟩

/-- A container that a request has left is nobody's. -/
theorem goesOn_remove {now : Instant} {cookie : Cookie} {removed : RemovedRequest}
    (h : l.remove now cookie = (.ok removed, l')) (hnew : l'.held.get? k = some new) :
    ∃ old, l.held.get? k = some old ∧ l.GoesOn old new := by
  obtain ⟨entry, -, -, -, -, -, hheld⟩ := remove_ok h
  rw [hheld] at hnew
  split at hnew
  · obtain ⟨old, hold, rfl⟩ := Option.map_eq_some_iff.mp hnew
    refine ⟨old, hold, rfl, rfl, fun c howner => ?_⟩
    cases (owner?_vacate ..).symm.trans howner
  · exact ⟨new, hnew, .refl new⟩

/-- Where every container goes on, or is large enough for the request that has it, and nothing
else was requested, the containers fit still. -/
theorem Fits.step (hl : l.Fits)
    (hheld : ∀ k new c, l'.held.get? k = some new → new.assignment.owner? = some c →
      (∃ old, l.held.get? k = some old ∧ l.GoesOn old new) ∨ l.Suits new c)
    (hentries : ∀ c new, l'.entries.get? c = some new →
      ∃ old, l.entries.get? c = some old ∧ old.request = new.request) : l'.Fits := by
  intro k new c entry hnew howner hentry
  obtain ⟨before, hbefore, hrequest⟩ := hentries c entry hentry
  rw [← hrequest]
  have hgiven : l.Suits new c →
      new.container.resource.covers before.request.capability = true := by
    rintro ⟨entry, hentry, hlarge⟩
    rw [hbefore] at hentry
    cases hentry
    exact hlarge
  rcases hheld k new c hnew howner with ⟨old, hold, hgoes⟩ | hlarge
  · rcases hgoes.owner c howner with howner | hlarge
    · rw [← hgoes.size]
      exact hl k old c before hold howner hbefore
    · exact hgiven hlarge
  · exact hgiven hlarge

end Ledger

namespace Scheduler

variable {policy : Policy} {s t : Scheduler} {o : Outcome} {k : ContainerId} {now : Instant}

/-! ## Decisions -/

/-- What is held after a decision that takes no grant was held before. -/
theorem Decision.goesOn (h : Decision policy s o) (hkind : o.action? ≠ some .allocated)
    {new : Holding} (hnew : o.ledger.held.get? k = some new) :
    ∃ old, s.ledger.held.get? k = some old ∧ s.ledger.GoesOn old new := by
  have hsame : s.ledger.held.get? k = some new →
      ∃ old, s.ledger.held.get? k = some old ∧ s.ledger.GoesOn old new :=
    fun hold => ⟨new, hold, .refl new⟩
  cases h with
  | ask now hpending hledger => exact hsame (Ledger.held_markRequested hledger ▸ hnew)
  | @hand cookie id request held ledger container previous now hrequest hheld hlarge hserves
      hledger =>
      obtain ⟨entry, held', hentry, -, hheld', -, -, -, rfl⟩ := Ledger.assignIdle_ok hledger
      rw [hheld] at hheld'
      cases hheld'
      have hasked : entry.request = request := by
        simpa [Ledger.lookup, hentry] using hrequest
      refine SortedMap.related_of_get?_insert hheld hnew ?_ .refl
      refine ⟨rfl, rfl, fun c howner => .inr ?_⟩
      cases howner
      exact ⟨entry, hentry, hasked ▸ hlarge⟩
  | grant => exact absurd rfl hkind
  | withdraw now hwaiting hledger => exact Ledger.goesOn_remove hledger hnew
  | retire now hrunning hledger => exact Ledger.goesOn_remove hledger hnew
  | turnAway => exact hsame hnew
  | announce now detail hledger =>
      obtain ⟨held, hheld, hactive, rfl⟩ := Ledger.beginRelease_ok hledger
      refine SortedMap.related_of_get?_insert hheld hnew ?_ .refl
      refine ⟨rfl, rfl, fun c howner => .inl ?_⟩
      rw [hactive]
      exact howner
  | giveBack now reason hledger =>
      obtain ⟨held, hheld, -, -, -, hheld', -⟩ := Ledger.release_ok hledger
      rw [hheld'] at hnew
      refine SortedMap.related_of_get?_insert hheld hnew ?_ .refl
      exact ⟨rfl, rfl, fun c howner => by cases howner⟩
  | complete now hledger =>
      obtain ⟨held, -, -, -, -, hheld', -⟩ := Ledger.complete_ok hledger
      rw [hheld', SortedMap.get?_erase] at hnew
      split at hnew
      · cases hnew
      · exact hsame hnew
  | unawait => exact hsame hnew
  | forget => exact hsame hnew
  | news => exact hsame hnew

theorem Decision.fits (h : Decision policy s o) (hs : s.ledger.Coherent)
    (hkind : o.action? ≠ some .allocated) (hfits : s.ledger.Fits) : o.ledger.Fits :=
  hfits.step (fun _ _ _ hnew _ => .inl (h.goesOn hkind hnew))
    fun c _ hnew => (h.turns hs c).request hnew

theorem DecisionsAmong.fits {actions : List (Option AuditAction)}
    (h : DecisionsAmong policy actions s t) (hs : s.ledger.Coherent)
    (hactions : some .allocated ∉ actions) (hfits : s.ledger.Fits) : t.ledger.Fits := by
  refine h.induct (P := fun t _ => t.ledger.Fits) hs hfits ?_
  intro t es o ht ho haction hfits
  exact ho.fits ht (fun heq => hactions (heq ▸ haction)) hfits

/-- What is held after decisions that take no grant was held before, with the same signature. -/
theorem DecisionsAmong.signature {actions : List (Option AuditAction)}
    (h : DecisionsAmong policy actions s t) (hactions : some .allocated ∉ actions) {new : Holding}
    (hnew : t.ledger.held.get? k = some new) :
    ∃ old, s.ledger.held.get? k = some old ∧ old.signature = new.signature := by
  refine h.keeps (P := fun t => ∀ new, t.ledger.held.get? k = some new →
    ∃ old, s.ledger.held.get? k = some old ∧ old.signature = new.signature) ?_
    (fun new hnew => ⟨new, hnew, rfl⟩) new hnew
  intro t o ho haction ih new hnew
  obtain ⟨mid, hmid, hgoes⟩ := ho.goesOn (fun heq => hactions (heq ▸ haction)) hnew
  obtain ⟨old, hold, hsign⟩ := ih mid hmid
  exact ⟨old, hold, hsign.trans hgoes.signature⟩

/-! ## New requests -/

/-- A cookie that is not issued yet has no container. -/
theorem fits_enter (hs : s.ledger.Coherent) (hfits : s.ledger.Fits) (request : TaskRequest) :
    (s.enter request).ledger.Fits := by
  intro k h c entry hheld howner hentry
  have hheld : s.ledger.held.get? k = some h := hheld
  by_cases hc : c = ⟨s.ledger.nextCookie⟩
  · exfalso
    have howner : s.ledger.ownerOf? k = some c := by
      rw [Ledger.ownerOf?, Ledger.assignment?_of_get? hheld]
      exact howner
    obtain ⟨old, hold, -⟩ := Option.bind_eq_some_iff.mp ((hs.containerOf?_eq_iff c k).mpr howner)
    have hissued := wasIssued_of_get? hs hold
    rw [hc, not_wasIssued_nextCookie] at hissued
    cases hissued
  · rw [s.get?_enter_of_ne request hc] at hentry
    exact hfits k h c entry hheld howner hentry

/-! ## Grants -/

/-- If the container names a request that waits, it is large enough for it. -/
def sized (s : Scheduler) (container : Container) : Bool :=
  container.cookie.all fun c => (s.ledger.entries.get? c).all fun entry =>
    !entry.phase.isOutstanding || container.resource.covers entry.request.capability

/-- Each of the containers is sized when it is received. -/
def sizedEach (s : Scheduler) (now : Instant) : List Container → Bool
  | [] => true
  | container :: rest =>
    s.sized container && (s.receive now container).sizedEach now rest

/-- A request gets only containers that are large enough, by its name or by a match. -/
theorem covers_of_wanted {container : Container} {c : Cookie} {entry : Entry}
    (hsized : s.sized container = true)
    (hwanted : (container.cookie <|> s.ledger.matchOutstanding container) = some c)
    (hentry : s.ledger.entries.get? c = some entry)
    (hwaiting : entry.phase.isOutstanding = true) :
    container.resource.covers entry.request.capability = true := by
  cases hnamed : container.cookie with
  | some c' =>
      rw [hnamed] at hwanted
      cases hwanted
      simpa [sized, hnamed, hentry, hwaiting] using hsized
  | none =>
      rw [hnamed] at hwanted
      obtain ⟨entry', rank, hentry', hrank⟩ := Ledger.matchOutstanding_sound hwanted
      rw [hentry] at hentry'
      cases hentry'
      exact (Ledger.rank?_sound hrank).2.2.1

theorem Receives.fits {container : Container} {way : Receipt}
    (h : Receives now s container way t) (hsized : s.sized container = true)
    (hfits : s.ledger.Fits) : t.ledger.Fits := by
  cases h with
  | ignored => exact hfits
  | @assigned cookie entry ledger held hwanted hentry hwaiting hledger hheld =>
      obtain ⟨entry', -, hentry', -, -, rfl⟩ := Ledger.allocate_ok hledger
      rw [hentry] at hentry'
      cases hentry'
      refine hfits.step (fun k new c hnew howner => ?_) fun c new hnew => ?_
      · rw [adopt, SortedMap.get?_insert] at hnew
        split at hnew
        · cases hnew
          cases howner
          have hlarge := covers_of_wanted hsized hwanted hentry hwaiting
          exact .inr ⟨entry, hentry, hlarge⟩
        · exact .inl ⟨new, hnew, .refl new⟩
      · rw [adopt, SortedMap.get?_insert] at hnew
        split at hnew
        · next hc =>
          cases hnew
          exact ⟨entry, hc ▸ hentry, rfl⟩
        · exact ⟨new, hnew, rfl⟩
  | returned => exact hfits

theorem fits_receiveEach {containers : List Container}
    (hsized : s.sizedEach now containers = true) (hfits : s.ledger.Fits) :
    (s.receiveEach now containers).ledger.Fits := by
  induction containers generalizing s with
  | nil => exact hfits
  | cons container rest ih =>
      rw [sizedEach, Bool.and_eq_true] at hsized
      obtain ⟨way, hway, -⟩ := existsUnique_receives now s container
      exact ih hsized.2 (hway.fits hsized.1 hfits)

/-! ## Reuse -/

/-- What was held in `s` and is handed out on the way to `t` goes to a request that it serves,
by the policy's word. -/
def HandsOn (policy : Policy) (s t : Scheduler) : Prop :=
  ∀ task c container h, .notify (.taskAllocated task c container) ∈ t.effectsSince s →
    s.ledger.holding? container.id = some h → ∃ request, t.ledger.lookup c = .ok request ∧
      policy.matcher.superset (some h.signature) (some request.signature) = .ok true

theorem HandsOn.of_silent (h : ∀ k, s.ledger.stage k ≠ .absent →
    .allocated ∉ words k (t.effectsSince s)) : HandsOn policy s t := by
  intro task c container held he hheld
  exact absurd (mem_words_of_allocated he) (h container.id (stage_ne_absent_of_get? hheld))

/-- To hand an idle container on changes no request. -/
theorem lookup_assignIdle {l l' : Ledger} {cookie : Cookie} {id : ContainerId}
    {container : Container} {previous : RequestState}
    (h : l.assignIdle now cookie id = (.ok (container, previous), l')) (c : Cookie) :
    l'.lookup c = l.lookup c := by
  obtain ⟨entry, held, hentry, -, -, -, -, -, rfl⟩ := Ledger.assignIdle_ok h
  by_cases hc : c = cookie
  · simp [Ledger.lookup, hc, hentry]
  · simp [Ledger.lookup, SortedMap.get?_insert_ne _ _ hc]

/-- A decision to reuse a container was taken on the policy's word. -/
theorem Decision.reuse (h : Decision policy s o) (hs : s.ledger.Coherent)
    (hkind : o.action? = some .reused) :
    (∀ c, o.ledger.lookup c = s.ledger.lookup c) ∧
      ∀ task c container, .notify (.taskAllocated task c container) ∈ o.effects →
        ∃ held request, s.ledger.held.get? container.id = some held ∧
          s.ledger.lookup c = .ok request ∧
          policy.matcher.superset (some held.signature) (some request.signature) = .ok true := by
  cases h with
  | @hand cookie id request held ledger container previous now hrequest hheld hlarge hserves
      hledger =>
      refine ⟨lookup_assignIdle hledger, fun task c given he => ?_⟩
      rcases List.mem_append.mp he with he | he
      · exact absurd he notify_not_mem_withdrawal
      · cases List.mem_singleton.mp he
        obtain ⟨entry, held', -, -, hheld', -, -, rfl, -⟩ := Ledger.assignIdle_ok hledger
        rw [hheld] at hheld'
        cases hheld'
        have hid : held.container.id = id := hs.keyed id held hheld
        exact ⟨held, request, hid ▸ hheld, hrequest, hserves⟩
  | turnAway now cookie detail hnew haction => rcases haction with rfl | rfl <;> cases hkind
  | _ => cases hkind

theorem HandsOn.of_reused (h : DecisionsAmong policy [some .reused] s t)
    (hs : s.ledger.Coherent) : HandsOn policy s t := by
  have hall := h.induct (P := fun t es => DecisionsAmong policy [some .reused] s t ∧
    ∀ task c container, .notify (.taskAllocated task c container) ∈ es →
      ∃ held request, s.ledger.held.get? container.id = some held ∧
        t.ledger.lookup c = .ok request ∧
        policy.matcher.superset (some held.signature) (some request.signature) = .ok true) hs
    ⟨.refl s, fun _ _ _ he => by cases he⟩ ?_
  · intro task c container held he hheld
    obtain ⟨held', request, hheld', hrequest, hserves⟩ := hall.2 task c container he
    rw [show s.ledger.held.get? container.id = some held from hheld] at hheld'
    cases hheld'
    exact ⟨request, hrequest, hserves⟩
  · intro t es o ht ho haction ⟨hsofar, hserved⟩
    obtain ⟨hlookup, hnext⟩ := ho.reuse ht (by simpa using haction)
    refine ⟨hsofar.trans (.of_decision ho haction rfl), fun task c container he => ?_⟩
    show ∃ held request, _ ∧ o.ledger.lookup c = _ ∧ _
    rw [hlookup]
    rcases List.mem_append.mp he with he | he
    · exact hserved task c container he
    · obtain ⟨held, request, hheld, hrequest, hserves⟩ := hnext task c container he
      -- it was held from the beginning, since nothing was granted
      obtain ⟨first, hfirst, hsign⟩ := hsofar.signature (by decide) hheld
      exact ⟨first, request, hfirst, hrequest, hsign ▸ hserves⟩

/-- A container that is held is held on until it completes, and it is not granted. -/
theorem DecisionsAmong.silent_of_held {actions : List (Option AuditAction)}
    (h : DecisionsAmong policy actions s t) (hs : s.ledger.Coherent)
    (hactions : some .reused ∉ actions ∧ some .completed ∉ actions)
    (hk : s.ledger.stage k ≠ .absent) :
    t.ledger.stage k ≠ .absent ∧ .allocated ∉ words k (t.effectsSince s) := by
  refine h.induct (P := fun t es => t.ledger.stage k ≠ .absent ∧ .allocated ∉ words k es) hs
    ⟨hk, List.not_mem_nil⟩ ?_
  intro t es o ht ho haction ⟨hk, hsilent⟩
  have hopen : .completed ∉ words k o.effects :=
    ho.completed_notMem ht fun heq => hactions.2 (heq ▸ haction)
  refine ⟨(ho.passes ht k).ne_absent hk hopen, ?_⟩
  rw [words_append, List.mem_append, not_or]
  refine ⟨hsilent, fun hword => ?_⟩
  obtain ⟨hcontainer, hsaid⟩ := (ho.mem_words_iff ht).mp hword
  cases ho with
  | hand => exact hactions.1 haction
  | grant now hwanted hrequest hledger hheld =>
      cases hcontainer
      obtain ⟨entry, hnew, -⟩ := Ledger.allocate_ok hledger
      exact hk (stage_of_get?_none hnew)
  | turnAway now cookie detail hnew hturned => rcases hturned with rfl | rfl <;> cases hsaid
  | _ => cases hsaid

/-! ## Operations -/

theorem handsOn_request (hs : s.ledger.Coherent) (cx : Context) (request : TaskRequest)
    (hnext : s.ledger.HasCookies) : HandsOn cx.policy s (s.request cx request).2 := by
  have hentered : (s.enter request).ledger.Coherent := hs.add hnext request
  rcases s.request_cases cx request with ⟨cause, hrefused⟩ | ⟨reusable, hreuse, hplace⟩
  · rw [hrefused]
    exact .of_silent fun k _ => by simp [effectsSince, words]
  · rw [hplace]
    cases reusable with
    | some id =>
        have hhanded : HandsOn cx.policy (s.enter request) _ :=
          .of_reused (decisions_place_some hs (pickIdle?_of_reusable? hreuse)) hentered
        exact hhanded
    | none =>
        -- the cluster is asked, and nothing is handed out
        exact .of_silent fun k _ =>
          (s.decisions_place_none cx request).allocated_notMem hentered (by decide) k

theorem handsOn_deallocateTask (hs : s.ledger.Coherent) (cx : Context) (cookie : Cookie)
    (succeeded : Bool) : HandsOn cx.policy s (s.deallocateTask cx cookie succeeded).2 := by
  rcases s.deallocateTask_cases cx cookie succeeded with hgone | ⟨-, t, hidled, hreused⟩
  · exact .of_silent fun k _ => hgone.allocated_notMem hs (by decide) k
  · have hoffer := HandsOn.of_reused hreused (hidled.coherent hs)
    intro task c container held he hheld
    obtain ⟨hkept, hsilent⟩ :=
      hidled.silent_of_held hs (by decide) (stage_ne_absent_of_get? hheld)
    rw [effectsSince_trans hidled.journal hreused.journal] at he
    rcases List.mem_append.mp he with he | he
    · exact absurd (mem_words_of_allocated he) hsilent
    · -- the container is offered with the signature that it was held with
      obtain ⟨kept, hkept⟩ := Option.ne_none_iff_exists'.mp fun hnone =>
        hkept (Ledger.stage_eq_absent_iff.mpr hnone)
      obtain ⟨first, hfirst, hsign⟩ := hidled.signature (by decide) hkept
      rw [Ledger.holding?, hfirst] at hheld
      cases hheld
      obtain ⟨request, hrequest, hserves⟩ := hoffer task c container kept he hkept
      exact ⟨request, hrequest, hsign ▸ hserves⟩

/-- An operation hands on what was held only where the policy lets it. -/
theorem handsOn_after (hs : s.ledger.Coherent) (cx : Context) (op : Operation)
    (hnext : op.isRequest = true → s.ledger.HasCookies) :
    HandsOn cx.policy s (s.after cx op) := by
  have hcalm : op.isRequest = false → some .reused ∉ op.actions ∧ some .completed ∉ op.actions →
      HandsOn cx.policy s (s.after cx op) := fun hop hactions =>
    .of_silent fun k hk => ((decisions_after s cx hop).silent_of_held hs hactions hk).2
  cases op with
  | request request => exact handsOn_request hs cx request (hnext rfl)
  | deallocateTask cookie succeeded => exact handsOn_deallocateTask hs cx cookie succeeded
  | deallocateContainer | preempt | releaseExpired | housekeep =>
      exact hcalm rfl (by simp [Operation.actions, walkActions])
  | hear event =>
      cases event with
      | completed statuses =>
          have hdecided : DecisionsAmong cx.policy (Operation.hear (.completed statuses)).actions
              s (s.after cx (.hear (.completed statuses))) := decisions_after s cx rfl
          exact .of_silent fun k _ =>
            hdecided.allocated_notMem hs (by simp [Operation.actions]) k
      | allocated | nodesUpdated | shutdownRequested | failure =>
          exact hcalm rfl (by simp [Operation.actions, grantActions, walkActions])

/-- An operation keeps the containers fitting, if those that are granted by name are sized. -/
theorem fits_after (hs : s.ledger.Coherent) (cx : Context) (op : Operation)
    (hnext : op.isRequest = true → s.ledger.HasCookies)
    (hsized : ∀ containers, op = .hear (.allocated containers) →
      s.sizedEach cx.now containers = true) (hfits : s.ledger.Fits) :
    (s.after cx op).ledger.Fits := by
  have hcalm : op.isRequest = false → some .allocated ∉ op.actions →
      (s.after cx op).ledger.Fits := fun hop hactions =>
    (decisions_after s cx hop).fits hs hactions hfits
  cases op with
  | request request =>
      rcases request_spec cx hs request with ⟨cause, hrefused⟩ | htaken
      · rw [after, hrefused]
        exact hfits
      · obtain ⟨o, ho, hkind, -, hrest⟩ := htaken.settled
        have hentered : (s.enter request).ledger.Coherent := hs.add (hnext rfl) request
        have hfirst : o.ledger.Fits :=
          ho.fits hentered (fun heq => by simp [heq] at hkind) (fits_enter hs hfits request)
        exact hrest.fits (ho.coherent hentered) (by decide) hfirst
  | hear event =>
      cases event with
      | allocated containers =>
          have hreceived : DecisionsAmong cx.policy grantActions s
              (s.receiveEach cx.now containers) := decisions_receiveEach s cx.now containers
          have hwalk : DecisionsAmong cx.policy walkActions (s.receiveEach cx.now containers)
              (s.receiveAll cx containers) := decisions_walkAfter s cx containers
          exact hwalk.fits (hreceived.coherent hs) (by decide)
            (fits_receiveEach (hsized containers rfl) hfits)
      | _ => exact hcalm rfl (by simp [Operation.actions])
  | _ => exact hcalm rfl (by simp [Operation.actions, walkActions])

end Scheduler

/-! ## Runs -/

namespace Fleet

open Scheduler

variable {policy : Policy} {w : Fleet} {e : Event}

/-- Containers that are granted by the event to a request that waits are large enough for it,
if they name it. -/
def Event.grantsSized (w : Fleet) : Event → Bool
  | .use (.hear (.allocated containers)) now _ => w.1.sizedEach now containers
  | _ => true

theorem fits_event (hw : w.Reachable policy) (he : e.Possible w)
    (hsized : e.grantsSized w = true) (hfits : w.1.ledger.Fits) :
    (w.after policy e).1.ledger.Fits := by
  have hs := hw.underway.coherent
  cases e with
  | use op now headroom =>
      refine fits_after hs ⟨policy, now, headroom⟩ op he ?_ hfits
      rintro containers rfl
      exact hsized
  | carryOut =>
      simp only [after]
      split
      · exact hfits
      · next htake => exact ledger_takeUp? htake ▸ hfits
  | refuse now notice cause =>
      obtain ⟨t, reports, ht, heq⟩ := refused_eq policy w.1 now notice cause
      simp only [after, heq]
      exact ht.fits hs (by decide) hfits
  | aside => exact hfits
  | client d => exact hfits

theorem handsOn_event (hw : w.Reachable policy) (he : e.Possible w) :
    HandsOn policy w.1 (w.after policy e).1 := by
  have hs := hw.underway.coherent
  -- only operations hand anything out
  cases e with
  | use op now headroom => exact handsOn_after hs ⟨policy, now, headroom⟩ op he
  | carryOut =>
      refine .of_silent fun k _ => ?_
      simp only [after]
      split
      · simp [effectsSince, words]
      · next htake => simp [effectsSince, journal_takeUp? htake, words]
  | refuse now notice cause =>
      obtain ⟨t, reports, ht, heq⟩ := refused_eq policy w.1 now notice cause
      simp only [after, heq]
      exact .of_silent fun k _ => ht.allocated_notMem hs (by decide) k
  | aside => exact .of_silent fun k _ => by simp [after, effectsSince, journal, words]
  | client d => exact .of_silent fun k _ => by simp [after, effectsSince, words]

/-- If the containers that the cluster grants by name are large enough for requests that wait,
then whatever happens each container in use is large enough for the request that has it, and
what is handed on from one request to another is handed to one that it serves, by the policy's
word. -/
theorem tasks_fit {max : Resource} {es : List Event}
    (hes : Follows policy (fun w e => e.grantsSized w = true) (.fresh, .connect max) es) :
    (∀ k h c, (afterAll policy (.fresh, .connect max) es).1.ledger.holding? k = some h →
      h.assignment = .active c ∨ h.assignment = .beingReleased c →
        ∃ request, (afterAll policy (.fresh, .connect max) es).1.ledger.lookup c = .ok request ∧
          h.container.resource.covers request.capability = true) ∧
      ∀ before e after, es = before ++ e :: after →
        HandsOn policy (afterAll policy (.fresh, .connect max) before).1
          ((afterAll policy (.fresh, .connect max) before).after policy e).1 := by
  have hstart : Reachable policy (.fresh, .connect max) := .start max
  refine ⟨fun k h c hheld hbusy => ?_, ?_⟩
  · have hfits := hes.keeps (Q := fun w => w.1.ledger.Fits) hstart
      (fun w e hw he hsized hfits => fits_event hw he hsized hfits) fun k h c entry hheld => by
        cases hheld
    have howner : h.assignment.owner? = some c := by
      rcases hbusy with hbusy | hbusy <;> rw [hbusy] <;> rfl
    -- a container in use has a request, and that one is recorded
    have hs := (hstart.run hes.run).underway.coherent
    have hnamed := (hs.containerOf?_eq_iff c k).mpr (Ledger.ownerOf?_of_get? hheld ▸ howner)
    obtain ⟨entry, hentry, -⟩ := Option.bind_eq_some_iff.mp hnamed
    exact ⟨entry.request, lookup_of_get? hentry, hfits k h c entry hheld howner hentry⟩
  · rintro before e after rfl
    obtain ⟨hrun, he, -⟩ := hes.split
    exact handsOn_event (hstart.run hrun) he

/-- A container is granted to a request that asks for as much, and another one, too small, when
that request is served.  Its task leaves the first one to a request that was launched alike. -/
theorem tasks_fit_handed_on :
    let policy : Policy := ⟨.standard, MatcherKind.launchContext.matcher⟩
    let request (task : UInt64) (memory : UInt64) : TaskRequest :=
      ⟨⟨task⟩, ⟨memory, 1⟩, ⟨5⟩, ⟨[], [], true⟩, ⟨0, ⟨⟨memory, 1⟩, .empty, .empty⟩⟩⟩
    let granted (name : String) (memory : UInt64) : Container :=
      ⟨⟨name⟩, ⟨"host1", 8041⟩, none, ⟨memory, 1⟩, ⟨5⟩, some ⟨1⟩, none⟩
    let use (op : Operation) : Event := .use op .epoch none
    let before : List Event := [use (.request (request 7 1024)), use (.request (request 8 512)),
      use (.hear (.allocated [granted "c_1" 1024, granted "c_2" 1]))]
    let last : Event := use (.deallocateTask ⟨1⟩ true)
    let w := afterAll policy (.fresh, .connect .zero) before
    let w' := afterAll policy (.fresh, .connect .zero) (before ++ [last])
    ∃ held given asked, w.1.ledger.holding? ⟨"c_1"⟩ = some held ∧
      w'.1.ledger.holding? ⟨"c_1"⟩ = some given ∧ given.assignment = .active ⟨2⟩ ∧
      w'.1.ledger.lookup ⟨2⟩ = .ok asked ∧
      given.container.resource.covers asked.capability = true ∧
      policy.matcher.superset (some held.signature) (some asked.signature) = .ok true := by
  intro policy request granted use before last w w'
  have hes : Follows policy (fun w e => e.grantsSized w = true) (.fresh, .connect .zero)
      (before ++ [last]) := by
    decide +kernel
  obtain ⟨hfits, hhanded⟩ := tasks_fit hes
  let held : Holding :=
    ⟨{ granted "c_1" 1024 with signature := some (request 7 1024).signature },
      (request 7 1024).signature, .active ⟨1⟩, .epoch, ⟨7⟩⟩
  let given : Holding :=
    { held with
      container := { held.container with cookie := some ⟨2⟩ }
      assignment := .active ⟨2⟩
      lastTask := ⟨8⟩ }
  have hheld : w.1.ledger.holding? ⟨"c_1"⟩ = some held := by decide +kernel
  have hgiven : w'.1.ledger.holding? ⟨"c_1"⟩ = some given := by decide +kernel
  have htold : .notify (.taskAllocated ⟨8⟩ ⟨2⟩ given.container) ∈
      (w.after policy last).1.effectsSince w.1 := by
    decide +kernel
  obtain ⟨asked, hasked, hlarge⟩ := hfits ⟨"c_1"⟩ given ⟨2⟩ hgiven (.inl rfl)
  obtain ⟨asked', hasked', hserves⟩ := hhanded before last [] rfl ⟨8⟩ ⟨2⟩ _ held htold hheld
  have hsame : asked' = asked := Except.ok.inj (hasked'.symm.trans hasked)
  exact ⟨held, given, asked, hheld, hgiven, rfl, hasked, hlarge, hsame ▸ hserves⟩

end Fleet

end TaskFleet
