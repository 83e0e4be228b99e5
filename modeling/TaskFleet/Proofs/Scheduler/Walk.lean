import TaskFleet.Proofs.Ledger.Takings
import TaskFleet.Proofs.Scheduler.Run

/-!
# The walk that takes containers back

A walk over the waiting requests threads a budget through claims and plans.  The budget is
clipped and changes at every request, and each plan is made on the ledger that the plans
before it left.  What survives all this is a balance (`Walk`): what was claimed and what is
left is no more than the budget and what was taken, and not less either unless a sum was
clipped.

Since what is taken stays on its way back, the balance says that a walk spends nothing twice
(`walk_spends_once`).  It also says what a second walk finds, namely just what the first one
claimed and left; so everything that was served is covered now, and the walk gets stuck where
it got stuck before (`walk_settles`).
-/

namespace TaskFleet

/-- What is decided when a container is taken back: an idle one goes back at once, a running
one is announced. -/
def Taking.effect (t : Taking) : Effect :=
  match t.holding.assignment with
  | .active _ => .notify (.containerBeingReleased t.id)
  | _ => .call (.giveBack t.id)

/-- A part of what requests ask for, however much that is. -/
def Resource.demanded (p : Resource.Part) (rows : List (Cookie × TaskRequest)) : Nat :=
  Resource.sum p (rows.map fun row => row.2.capability)

@[simp] theorem Resource.demanded_nil (p : Resource.Part) : Resource.demanded p [] = 0 := rfl

@[simp] theorem Resource.demanded_cons (p : Resource.Part) (row : Cookie × TaskRequest)
    (rows : List (Cookie × TaskRequest)) : Resource.demanded p (row :: rows) =
      row.2.capability.amount p + Resource.demanded p rows := by
  simp [Resource.demanded]

namespace Scheduler

variable {m : Matcher} {s t u : Scheduler} {ts ts' : List Taking} {cookie : Cookie}
  {request : TaskRequest}

/-! ## Carrying a plan out -/

/-- From `s` to `t` containers were taken back, one after another, and announced or given
back in that order; nothing else was decided. -/
structure TakesBack (m : Matcher) (s : Scheduler) (ts : List Taking) (t : Scheduler) : Prop where
  ledger : s.ledger.Takes m ts t.ledger
  journal : t.journal = s.journal ++ ts.map Taking.effect
  awaiting : t.awaiting = s.awaiting

namespace TakesBack

theorem refl (s : Scheduler) : TakesBack m s [] s :=
  ⟨.nil _, (List.append_nil _).symm, rfl⟩

theorem trans (h : TakesBack m s ts t) (h' : TakesBack m t ts' u) :
    TakesBack m s (ts ++ ts') u where
  ledger := h.ledger.append h'.ledger
  journal := by rw [h'.journal, h.journal, List.append_assoc, List.map_append]
  awaiting := h'.awaiting.trans h.awaiting

end TakesBack

/-- An idle container that yields is given back. -/
theorem takesBack_releaseHeld (s : Scheduler) (now : Instant) (cookie : Cookie)
    (reason : String) {h : Holding} (hidle : h.isIdle = true)
    (hheld : s.ledger.held.get? h.container.id = some h)
    (hyields : s.ledger.yields m request h = true) :
    TakesBack m s [⟨cookie, request, h⟩] (s.releaseHeld now h.container.id reason).2 := by
  rw [Ledger.yields, Bool.and_eq_true] at hyields
  obtain ⟨since, hassignment⟩ : ∃ since, h.assignment = .idle since := by
    unfold Holding.isIdle at hidle
    cases hassignment : h.assignment <;> simp_all [Assignment.isIdle]
  obtain ⟨ledger, hledger⟩ : ∃ ledger, s.ledger.release h.container.id = (.ok none, ledger) := by
    simp [Ledger.release, hheld, hassignment]
  have htake : s.ledger.Take m ⟨cookie, request, h⟩ ledger :=
    .idle hheld hidle hyields.2 hledger
  simp only [releaseHeld, hledger]
  refine ⟨.cons htake (.nil _), ?_, rfl⟩
  simp [sendBack, note, queue, journal, Taking.effect, Taking.id, hassignment]

/-- A running container that yields is announced. -/
theorem takesBack_takeRunning (s : Scheduler) (now : Instant) (cookie : Cookie)
    {h : Holding} (hbusy : h.isIdle = false)
    (hheld : s.ledger.held.get? h.container.id = some h)
    (hyields : s.ledger.yields m request h = true) :
    TakesBack m s [⟨cookie, request, h⟩] (s.takeRunning now cookie h.container.id) := by
  rw [Ledger.yields, hbusy, Bool.false_or, Bool.and_eq_true] at hyields
  obtain ⟨victim, running, hassignment, -, -⟩ := Ledger.runsLesser_iff.mp hyields.1
  obtain ⟨ledger, hledger⟩ : ∃ ledger,
      s.ledger.beginRelease h.container.id = (.ok victim, ledger) := by
    simp [Ledger.beginRelease, hheld, hassignment]
  have htake : s.ledger.Take m ⟨cookie, request, h⟩ ledger :=
    .running hheld hassignment hyields.1 hyields.2 hledger
  simp only [takeRunning, hledger]
  refine ⟨.cons htake (.nil _), ?_, rfl⟩
  simp [note, queue, journal, Taking.effect, Taking.id, hassignment]

/-- Different containers that yield can be taken back one after another: taking one changes
neither the others nor whether they yield. -/
theorem takesBack_foldl {f : Scheduler → ContainerId → Scheduler} {P : Holding → Prop}
    (hstep : ∀ s h, P h → s.ledger.held.get? h.container.id = some h →
      s.ledger.yields m request h = true →
      TakesBack m s [⟨cookie, request, h⟩] (f s h.container.id))
    {hs : List Holding} (hl : s.ledger.Coherent)
    (hall : ∀ h ∈ hs, P h ∧ s.ledger.held.get? h.container.id = some h ∧
      s.ledger.yields m request h = true)
    (hnodup : (hs.map fun h => h.container.id).Nodup) :
    TakesBack m s (hs.map (Taking.mk cookie request))
      ((hs.map fun h => h.container.id).foldl f s) := by
  induction hs generalizing s with
  | nil => exact .refl s
  | cons h hs ih =>
      rw [List.map_cons, List.nodup_cons] at hnodup
      obtain ⟨hP, hheld, hyields⟩ := hall h List.mem_cons_self
      have hfirst := hstep s h hP hheld hyields
      refine hfirst.trans (ih (hfirst.ledger.coherent hl) (fun h' hmem => ?_) hnodup.2)
      obtain ⟨hP', hheld', hyields'⟩ := hall h' (List.mem_cons_of_mem _ hmem)
      have hother : h'.container.id ∉ [Taking.mk cookie request h].map Taking.id := by
        rw [List.map_cons, List.map_nil, List.mem_singleton]
        rintro heq
        exact hnodup.1 (List.mem_map.mpr ⟨h', hmem, heq⟩)
      exact ⟨hP', (hfirst.ledger.get?_of_notMem hother).trans hheld',
        (hfirst.ledger.yields_iff hl request h').trans hyields'⟩

theorem releaseEach_eq_foldl (s : Scheduler) (now : Instant) (reason : String)
    (ids : List ContainerId) : (s.releaseEach now reason ids).2 =
      ids.foldl (fun s id => (s.releaseHeld now id reason).2) s := by
  induction ids generalizing s with
  | nil => rfl
  | cons id ids ih => exact ih _

/-- A plan that keeps its promises is carried out as it stands. -/
theorem takesBack_takeBack (s : Scheduler) (now : Instant) (cookie : Cookie)
    {available : Resource} {plan : PreemptionPlan} {spare running : List Holding}
    (hl : s.ledger.Coherent)
    (hplan : plan.Sound m s.ledger request available spare running) :
    TakesBack m s ((spare ++ running).map (Taking.mk cookie request))
      (s.takeBack now cookie plan) := by
  have hheld : ∀ h ∈ s.ledger.holdings, s.ledger.held.get? h.container.id = some h := by
    intro h hmem
    obtain ⟨k, hk⟩ := s.ledger.held.mem_values_iff.mp hmem
    exact hl.keyed k h hk ▸ hk
  have hnodup := hplan.once
  rw [List.map_append, List.nodup_append] at hnodup
  obtain ⟨hspare, hrunning, hapart⟩ := hnodup
  have hfirst : TakesBack m s (spare.map (Taking.mk cookie request))
      (s.releaseEach now "preempted while idle" plan.releaseIdle).2 := by
    rw [releaseEach_eq_foldl, hplan.releaseIdle]
    refine takesBack_foldl (P := fun h => h.isIdle = true)
      (fun s h => takesBack_releaseHeld s now cookie _) hl (fun h hmem => ?_) hspare
    obtain ⟨hmember, hidle, hserves⟩ := hplan.idle h hmem
    exact ⟨hidle, hheld h hmember, by simp [Ledger.yields, hidle, hserves]⟩
  rw [takeBack, List.map_append, hplan.preemptActive]
  refine hfirst.trans (takesBack_foldl (P := fun h => h.isIdle = false)
    (fun s h => takesBack_takeRunning s now cookie) (hfirst.ledger.coherent hl)
    (fun h hmem => ?_) hrunning)
  -- the running ones are as they were, since only the idle ones have gone
  obtain ⟨hmember, hlesser, hserves⟩ := hplan.active h hmem
  have hother : h.container.id ∉ (spare.map (Taking.mk cookie request)).map Taking.id := by
    rw [List.map_map]
    exact fun hin => hapart _ hin _ (List.mem_map_of_mem hmem) rfl
  refine ⟨?_, (hfirst.ledger.get?_of_notMem hother).trans (hheld h hmember), ?_⟩
  · refine Bool.eq_false_iff.mpr fun hidle => ?_
    rw [Ledger.not_runsLesser_of_isIdle hidle] at hlesser
    cases hlesser
  · rw [hfirst.ledger.yields_iff hl]
    simp [Ledger.yields, hlesser, hserves]

/-! ## Walking -/

/-- What a walk from `s` to `t` comes to when it has a budget.  It serves some requests with
containers taken back for them, and `left` is what remains for `rest`. -/
structure Walk (m : Matcher) (s : Scheduler) (budget : Resource)
    (served rest : List (Cookie × TaskRequest)) (takings : List Taking) (left : Resource)
    (t : Scheduler) : Prop where
  takesBack : TakesBack m s takings t
  beneficiary : ∀ taking ∈ takings, (taking.cookie, taking.request) ∈ served
  afforded : ∀ p, left.amount p + Resource.demanded p served ≤
    budget.amount p + Resource.allotted p (takings.map Taking.holding)
  /-- Unless a sum was clipped, nothing of the budget is lost. -/
  exact : ∀ p, budget.amount p + Resource.allotted p (takings.map Taking.holding) ≤ p.bound →
    left.amount p + Resource.demanded p served =
      budget.amount p + Resource.allotted p (takings.map Taking.holding)
  /-- The walk goes on as long as something can be done. -/
  stuck : ∀ row, rest.head? = some row → left.covers row.2.capability = false ∧
    planWithin m t.ledger row.2 left = .ok .nothing

namespace Walk

variable {budget left : Resource} {served rest : List (Cookie × TaskRequest)}
  {takings : List Taking} {row : Cookie × TaskRequest}

/-- A walk that cannot serve its first request ends there. -/
theorem stop (hstuck : ∀ row, rest.head? = some row → budget.covers row.2.capability = false ∧
    planWithin m s.ledger row.2 budget = .ok .nothing) : Walk m s budget [] rest [] budget s where
  takesBack := .refl s
  beneficiary _ hmem := nomatch hmem
  afforded _ := Nat.le_refl _
  exact _ _ := rfl
  stuck := hstuck

/-- A request that the budget covers claims what it asks for. -/
theorem cover (hcovers : budget.covers row.2.capability = true)
    (h : Walk m s (budget - row.2.capability) served rest takings left t) :
    Walk m s budget (row :: served) rest takings left t where
  takesBack := h.takesBack
  beneficiary taking hmem := List.mem_cons_of_mem _ (h.beneficiary taking hmem)
  afforded p := by
    have hclaim := Resource.covers_iff_amount.mp hcovers p
    have hrest := h.afforded p
    rw [Resource.amount_sub] at hrest
    rw [Resource.demanded_cons]
    omega
  exact p hfits := by
    have hclaim := Resource.covers_iff_amount.mp hcovers p
    have hrest := h.exact p
    rw [Resource.amount_sub] at hrest
    rw [Resource.demanded_cons]
    omega
  stuck := h.stuck

/-- A request that the budget does not cover has a plan carried out for it, and claims what
it asks for from the budget and what the plan frees. -/
theorem plan {now : Instant} {plan : PreemptionPlan} {spare running : List Holding}
    (hl : s.ledger.Coherent) (hplan : plan.Sound m s.ledger row.2 budget spare running)
    (h : Walk m (s.takeBack now row.1 plan) (budget + plan.freed - row.2.capability) served rest
      takings left t) :
    Walk m s budget (row :: served) rest
      ((spare ++ running).map (Taking.mk row.1 row.2) ++ takings) left t := by
  -- the part of the budget after the claim, as numbers
  have hclaim : ∀ p, (budget + plan.freed - row.2.capability).amount p + row.2.capability.amount p =
      min (budget.amount p + Resource.allotted p (spare ++ running)) p.bound := by
    intro p
    have hfreed := hplan.freed p
    have henough := hplan.enough p
    have hbound := row.2.capability.amount_le_bound p
    rw [Resource.amount_sub, Resource.amount_add]
    omega
  have htaken : ∀ p, Resource.allotted p
      ((((spare ++ running).map (Taking.mk row.1 row.2)) ++ takings).map Taking.holding) =
        Resource.allotted p (spare ++ running) +
          Resource.allotted p (takings.map Taking.holding) := by
    intro p
    have hsame : ((spare ++ running).map (Taking.mk row.1 row.2)).map Taking.holding =
        spare ++ running := by
      rw [List.map_map]
      exact List.map_id _
    rw [List.map_append, hsame, Resource.allotted_append]
  refine ⟨(takesBack_takeBack s now row.1 hl hplan).trans h.takesBack, fun taking hmem => ?_,
    fun p => ?_, fun p hfits => ?_, h.stuck⟩
  · rcases List.mem_append.mp hmem with hmem | hmem
    · obtain ⟨held, -, rfl⟩ := List.mem_map.mp hmem
      exact List.mem_cons_self
    · exact List.mem_cons_of_mem _ (h.beneficiary taking hmem)
  · have hrest := h.afforded p
    have hhere := hclaim p
    rw [htaken, Resource.demanded_cons]
    omega
  · have hrest := h.exact p
    have hhere := hclaim p
    rw [htaken] at hfits
    rw [htaken, Resource.demanded_cons]
    omega

end Walk

/-- Every walk ends well: a first part of the waiting requests is served, and the rest has
to wait because nothing can be done for the first of them. -/
theorem claim_spec (cx : Context) (hm : cx.policy.matcher.Answers) (hl : s.ledger.Coherent)
    (budget : Resource) (waiting : List (Cookie × TaskRequest)) :
    ∃ served rest takings left, waiting = served ++ rest ∧
      (s.claim cx budget waiting).1 = .ok () ∧
      Walk cx.policy.matcher s budget served rest takings left (s.claim cx budget waiting).2 := by
  induction waiting generalizing s budget with
  | nil => exact ⟨[], [], [], budget, rfl, rfl, .stop nofun⟩
  | cons row waiting ih =>
      obtain ⟨cookie, request⟩ := row
      cases hcovers : budget.covers request.capability with
      | true =>
          obtain ⟨served, rest, takings, left, hsplit, hanswer, hwalk⟩ :=
            ih hl (budget - request.capability)
          simp only [claim, hcovers, if_true]
          exact ⟨(cookie, request) :: served, rest, takings, left,
            by rw [hsplit, List.cons_append], hanswer, hwalk.cover hcovers⟩
      | false =>
          rcases planWithin_spec hm hl hcovers with ⟨plan, spare, running, hchosen, hplan⟩ |
            ⟨hchosen, -⟩
          · have htaken := takesBack_takeBack s cx.now cookie hl hplan
            obtain ⟨served, rest, takings, left, hsplit, hanswer, hwalk⟩ :=
              ih (htaken.ledger.coherent hl) (budget + plan.freed - request.capability)
            simp only [claim, hcovers, hchosen, hplan.isEmpty_eq_false hcovers,
              Bool.false_eq_true, if_false]
            exact ⟨(cookie, request) :: served, rest, _, left,
              by rw [hsplit, List.cons_append], hanswer, .plan hl hplan hwalk⟩
          · have hends : s.claim cx budget ((cookie, request) :: waiting) = (.ok (), s) := by
              simp [claim, hcovers, hchosen, PreemptionPlan.nothing, PreemptionPlan.isEmpty]
            rw [hends]
            refine ⟨[], (cookie, request) :: waiting, [], budget, rfl, rfl, .stop ?_⟩
            rintro row ⟨⟩
            exact ⟨hcovers, hchosen⟩

/-! ## Taking containers back for all waiting requests -/

/-- What the cluster can still grant and what is already on its way back, clipped. -/
theorem amount_budget (l : Ledger) (headroom : Resource) (p : Resource.Part) :
    (headroom + l.releasingResources).amount p =
      min (headroom.amount p + Resource.allotted p (l.holdings.filter Holding.isLeaving))
        p.bound := by
  rw [Resource.amount_add, Ledger.releasingResources, Resource.amount_total,
    ← Resource.allotted]
  omega

theorem preempt_spec {policy : Policy} (hm : policy.matcher.Answers) (hl : s.ledger.Coherent)
    (now : Instant) (headroom : Resource) :
    ∃ served rest takings left, s.ledger.outstanding = served ++ rest ∧
      (s.preempt ⟨policy, now, some headroom⟩).1 = .ok () ∧
      Walk policy.matcher s (headroom + s.ledger.releasingResources) served rest takings left
        (s.preempt ⟨policy, now, some headroom⟩).2 :=
  claim_spec ⟨policy, now, some headroom⟩ hm hl _ _

/-- A walk takes containers back and does nothing else, whatever is reported. -/
theorem takesBack_preempt {cx : Context} (hm : cx.policy.matcher.Answers)
    (hl : s.ledger.Coherent) : ∃ ts, TakesBack cx.policy.matcher s ts (s.preempt cx).2 := by
  obtain ⟨policy, now, headroom⟩ := cx
  cases headroom with
  | none => exact ⟨[], .refl s⟩
  | some headroom =>
      obtain ⟨_, _, takings, _, -, -, hwalk⟩ := preempt_spec hm hl now headroom
      exact ⟨takings, hwalk.takesBack⟩

/-- The container was held and serves the request that it is taken for.  It was idle and is
given back, or it ran a request that is less important and is being taken from it. -/
def Justified (m : Matcher) (s t : Scheduler) (taking : Taking) : Prop :=
  s.ledger.holding? taking.id = some taking.holding ∧
  m.superset (some taking.holding.signature) (some taking.request.signature) = .ok true ∧
  ((∃ since, taking.holding.assignment = .idle since ∧
      t.ledger.holding? taking.id = some { taking.holding with assignment := .released none }) ∨
    ∃ victim running, taking.holding.assignment = .active victim ∧
      s.ledger.lookup victim = .ok running ∧
      taking.request.priority.outranks running.priority = true ∧
      t.ledger.holding? taking.id =
        some { taking.holding with assignment := .beingReleased victim })

theorem TakesBack.justified (h : TakesBack m s ts t) (hl : s.ledger.Coherent) {taking : Taking}
    (hmem : taking ∈ ts) : Justified m s t taking := by
  obtain ⟨hbefore, hyields, hafter⟩ := h.ledger.of_mem hl hmem
  rw [Ledger.yields, Bool.and_eq_true, Bool.or_eq_true] at hyields
  obtain ⟨hwhy, hserves⟩ := hyields
  refine ⟨hbefore, Matcher.serves_iff.mp hserves, ?_⟩
  rw [Taking.after, Taking.turned] at hafter
  rcases hwhy with hidle | hlesser
  · unfold Holding.isIdle at hidle
    cases hassignment : taking.holding.assignment with
    | idle since =>
        rw [hassignment] at hafter
        exact .inl ⟨since, rfl, hafter⟩
    | _ =>
        rw [hassignment] at hidle
        cases hidle
  · obtain ⟨victim, running, hactive, hlookup, houtranks⟩ := Ledger.runsLesser_iff.mp hlesser
    rw [hactive] at hafter
    exact .inr ⟨victim, running, hactive, hlookup, houtranks, hafter⟩

/-- One walk from `s` to `t` spends nothing twice and takes nothing from the more important.
The requests `served` claim their shares, with `takings` for them where the budget alone
would not do, and `left` is what the others find. -/
structure SpendsOnce (m : Matcher) (headroom : Resource) (s t : Scheduler)
    (served rest : List (Cookie × TaskRequest)) (takings : List Taking) (left : Resource) :
    Prop where
  /-- A first part of the waiting requests is served, the most important and oldest first. -/
  order : s.ledger.outstanding = served ++ rest
  ranked : s.ledger.outstanding.Pairwise ServedFirst
  /-- What is served is there, or on its way back once the walk is over. -/
  afforded : ∀ p, left.amount p + Resource.demanded p served ≤
    headroom.amount p + Resource.allotted p (t.ledger.holdings.filter Holding.isLeaving)
  exact : ∀ p, headroom.amount p +
      Resource.allotted p (t.ledger.holdings.filter Holding.isLeaving) ≤ p.bound →
    left.amount p + Resource.demanded p served =
      headroom.amount p + Resource.allotted p (t.ledger.holdings.filter Holding.isLeaving)
  beneficiary : ∀ taking ∈ takings, (taking.cookie, taking.request) ∈ served
  justified : ∀ taking ∈ takings, Justified m s t taking
  once : (takings.map Taking.id).Nodup
  untouched : ∀ k, k ∉ takings.map Taking.id → t.ledger.holding? k = s.ledger.holding? k
  journal : t.journal = s.journal ++ takings.map Taking.effect
  /-- The same requests wait, in the same order and where they stood. -/
  outstanding : t.ledger.outstanding = s.ledger.outstanding
  waiting : ∀ c request, (c, request) ∈ s.ledger.outstanding →
    t.ledger.entries.get? c = s.ledger.entries.get? c
  /-- The first request that is not served can neither be covered nor be freed for. -/
  stuck : ∀ row, rest.head? = some row → left.covers row.2.capability = false ∧
    t.ledger.Hopeless m row.2 left

theorem Walk.spendsOnce {headroom left : Resource} {served rest : List (Cookie × TaskRequest)}
    {takings : List Taking} (hm : m.Answers) (hl : s.ledger.Coherent)
    (horder : s.ledger.outstanding = served ++ rest)
    (h : Walk m s (headroom + s.ledger.releasingResources) served rest takings left t) :
    SpendsOnce m headroom s t served rest takings left where
  order := horder
  ranked := s.ledger.pairwise_outstanding
  afforded p := by
    have hspent := h.afforded p
    have hbudget := amount_budget s.ledger headroom p
    rw [h.takesBack.ledger.leaving]
    omega
  exact p hfits := by
    have hspent := h.exact p
    have hbudget := amount_budget s.ledger headroom p
    rw [h.takesBack.ledger.leaving] at hfits ⊢
    omega
  beneficiary := h.beneficiary
  justified _ hmem := h.takesBack.justified hl hmem
  once := h.takesBack.ledger.nodup
  untouched _ hk := h.takesBack.ledger.get?_of_notMem hk
  journal := h.takesBack.journal
  outstanding := h.takesBack.ledger.outstanding hl
  waiting c request hmem := by
    obtain ⟨phase, hentry, hwaiting⟩ := Ledger.mem_outstanding_iff.mp hmem
    exact ((h.takesBack.ledger.waiting hl c hwaiting).mpr hentry).trans hentry.symm
  stuck row hrow := by
    obtain ⟨hshort, hnothing⟩ := h.stuck row hrow
    refine ⟨hshort, ?_⟩
    rcases planWithin_spec hm (h.takesBack.ledger.coherent hl) hshort with
      ⟨plan, spare, running, hchosen, hplan⟩ | ⟨-, hhopeless⟩
    · -- no plan was made, and one that keeps its promises takes something back
      rw [hnothing] at hchosen
      cases hchosen
      cases hplan.isEmpty_eq_false hshort
    · exact hhopeless

/-! ## Walking again -/

/-- A walk with what an earlier one spent and left finds everything covered and is stuck
where the earlier one was. -/
theorem claim_again {cx : Context} (u : Scheduler) (left : Resource) {budget : Resource}
    {served rest : List (Cookie × TaskRequest)}
    (hbudget : ∀ p, budget.amount p = left.amount p + Resource.demanded p served)
    (hstuck : ∀ row, rest.head? = some row → left.covers row.2.capability = false ∧
      planWithin cx.policy.matcher u.ledger row.2 left = .ok .nothing) :
    u.claim cx budget (served ++ rest) = (.ok (), u) := by
  induction served generalizing budget with
  | nil =>
      have hsame : budget = left := Resource.eq_of_amount hbudget
      cases rest with
      | nil => rfl
      | cons row rest =>
          obtain ⟨hshort, hnothing⟩ := hstuck row rfl
          simp [claim, hsame, hshort, hnothing, PreemptionPlan.nothing, PreemptionPlan.isEmpty]
  | cons row served ih =>
      have hcovers : budget.covers row.2.capability = true := by
        refine Resource.covers_iff_amount.mpr fun p => ?_
        rw [hbudget, Resource.demanded_cons]
        omega
      rw [List.cons_append, claim, if_pos hcovers]
      refine ih fun p => ?_
      rw [Resource.amount_sub, hbudget, Resource.demanded_cons]
      omega

/-- The operation looks at the waiting requests again and does nothing else that concerns a
container: no container was idle for too long. -/
def Operation.OnlyWalks (l : Ledger) : Operation → Prop
  | .preempt | .housekeep _ => True
  | .releaseExpired timeout asOf => l.expiredIdle asOf timeout = []
  | _ => False

/-- Where a walk changes nothing, looking again at the waiting requests changes nothing but
which completions are awaited. -/
theorem after_of_settled {cx : Context} {l : Ledger}
    (hsettled : ∀ u : Scheduler, u.ledger = l → u.preempt cx = (.ok (), u)) {u : Scheduler}
    (hu : u.ledger = l) {op : Operation} (hop : op.OnlyWalks l) :
    ∃ awaiting, u.after cx op = { u with awaiting } := by
  have hquiet : ∀ v : Scheduler, v.ledger = l → v.preemptQuietly cx = v := by
    intro v hv
    unfold preemptQuietly
    split
    · rw [hsettled v hv]
    · rfl
  cases op with
  | preempt => exact ⟨u.awaiting, by rw [after, hsettled u hu]⟩
  | housekeep asOf =>
      refine ⟨(u.forgetReturned cx asOf).awaiting, ?_⟩
      simp only [after]
      split
      · rfl
      · exact hquiet (u.forgetReturned cx asOf) hu
  | releaseExpired timeout asOf =>
      refine ⟨u.awaiting, ?_⟩
      have hnone : u.ledger.expiredIdle asOf timeout = [] := hu ▸ hop
      simp only [after, releaseExpired, hnone, releaseEach]
  | _ => cases hop

/-- After a walk whose sums fit, a walk with the same headroom changes nothing. -/
theorem preempt_again {policy : Policy} (hm : policy.matcher.Answers) (hl : s.ledger.Coherent)
    (now now' : Instant) {headroom : Resource}
    (hfits : ∀ p, headroom.amount p + Resource.allotted p s.ledger.holdings ≤ p.bound)
    (hu : u.ledger = (s.preempt ⟨policy, now, some headroom⟩).2.ledger) :
    u.preempt ⟨policy, now', some headroom⟩ = (.ok (), u) := by
  obtain ⟨served, rest, takings, left, horder, -, hwalk⟩ := preempt_spec hm hl now headroom
  have hspends := hwalk.spendsOnce hm hl horder
  have hwaiting : u.ledger.outstanding = served ++ rest := by
    rw [hu, hspends.outstanding, horder]
  simp only [preempt, hwaiting]
  refine claim_again u left (fun p => ?_) ?_
  · -- the budget is now what was spent and what was left, since no sum is clipped
    have hpart : Resource.allotted p (u.ledger.holdings.filter Holding.isLeaving) ≤
        Resource.allotted p s.ledger.holdings := by
      rw [← hwalk.takesBack.ledger.allotted, hu]
      exact Resource.allotted_le_of_sublist List.filter_sublist p
    have hspent := hspends.exact p
    have hbudget := amount_budget u.ledger headroom p
    have hfit := hfits p
    rw [← hu] at hspent
    omega
  · intro row hrow
    rw [hu]
    exact hwalk.stuck row hrow

end Scheduler

namespace Fleet

open Scheduler

variable {config : SchedulerConfig} {kind : MatcherKind} {w : Fleet}

/-- Taking containers back serves a first part of the waiting requests, spends nothing twice
and never takes from the more important. -/
theorem walk_spends_once (hw : w.Reachable ⟨config, kind.matcher⟩) (now : Instant)
    (headroom : Resource) :
    (w.1.preempt ⟨⟨config, kind.matcher⟩, now, some headroom⟩).1 = .ok () ∧
      ∃ served rest takings left, SpendsOnce kind.matcher headroom w.1
        (w.1.preempt ⟨⟨config, kind.matcher⟩, now, some headroom⟩).2 served rest takings left := by
  have hl : w.1.ledger.Coherent := hw.underway.coherent
  have hm : (Policy.mk config kind.matcher).matcher.Answers := kind.answers
  obtain ⟨served, rest, takings, left, horder, hanswer, hwalk⟩ :=
    preempt_spec hm hl now headroom
  exact ⟨hanswer, served, rest, takings, left, hwalk.spendsOnce hm hl horder⟩

/-- The first of three waiting requests takes an idle container and the container of a less
important one.  Nothing can be done for the second, so the third has to wait as well, though
what is left would do for it. -/
theorem walk_spends_once_blocked :
    let cx : Context := ⟨⟨.standard, MatcherKind.alwaysMatch.matcher⟩, .epoch, some ⟨1200, 3⟩⟩
    let quiet : Context := { cx with headroom := none }
    let request (task mb : UInt64) (cores priority : UInt32) : TaskRequest :=
      ⟨⟨task⟩, ⟨mb, cores⟩, ⟨priority⟩, ⟨[], [], true⟩, ⟨0, ⟨⟨1024, 1⟩, .empty, .empty⟩⟩⟩
    let container (id : String) (mb cookie : UInt64) : Container :=
      ⟨⟨id⟩, ⟨"host1", 8041⟩, none, ⟨mb, 1⟩, ⟨9⟩, some ⟨cookie⟩, none⟩
    let ops : List Operation := [.request (request 1 2048 1 9), .request (request 2 1024 1 9),
      .hear (.allocated [container "c_1" 2048 1, container "c_2" 1024 2]),
      .deallocateTask ⟨2⟩ true, .request (request 3 4096 1 1), .request (request 4 8192 1 2),
      .request (request 5 100 2 3)]
    let w : Fleet := (ops.foldl (fun s op => s.after quiet op) .fresh, .connect .zero)
    let t : Scheduler := (w.1.preempt cx).2
    (∃ served rest takings left,
      SpendsOnce cx.policy.matcher ⟨1200, 3⟩ w.1 t served rest takings left) ∧
      w.1.ledger.outstanding.map Prod.fst = [⟨3⟩, ⟨4⟩, ⟨5⟩] ∧
      t.ledger.assignment? ⟨"c_1"⟩ = some (.beingReleased ⟨1⟩) ∧
      t.ledger.assignment? ⟨"c_2"⟩ = some (.released none) := by
  intro cx quiet request container ops w t
  have hw : w.Reachable quiet.policy := by
    apply (Reachable.start .zero).operations
    decide
  obtain ⟨-, hspends⟩ := walk_spends_once hw .epoch ⟨1200, 3⟩
  -- the requests came in the order in which they are served
  have hwaiting : w.1.ledger.outstanding =
      (w.1.ledger.entries.rows.filter fun row => row.2.phase.isOutstanding).map
        fun row => (row.1, row.2.request) :=
    List.mergeSort_of_pairwise (by decide +kernel)
  have hwalk : t = (w.1.claim cx (⟨1200, 3⟩ + w.1.ledger.releasingResources)
      w.1.ledger.outstanding).2 := rfl
  rw [hwalk, hwaiting]
  refine ⟨?_, ?_, ?_, ?_⟩
  · exact hwaiting ▸ hspends
  · decide +kernel
  · decide +kernel
  · decide +kernel

/-- Once containers were taken back, looking again takes no further ones: not a second walk,
and not any number of rounds of the housekeeping in which no container was idle for too
long.  The effects of the first walk may have been carried out meanwhile. -/
theorem walk_settles (hw : w.Reachable ⟨config, kind.matcher⟩) (now : Instant)
    (headroom : Resource)
    (hfits : ∀ p, headroom.amount p + Resource.allotted p w.1.ledger.holdings ≤ p.bound) :
    let policy : Policy := ⟨config, kind.matcher⟩
    let t := (w.1.preempt ⟨policy, now, some headroom⟩).2
    (∀ now', t.preempt ⟨policy, now', some headroom⟩ = (.ok (), t)) ∧
      ∀ (u : Scheduler) (rounds : List (Instant × Operation)), u.ledger = t.ledger →
        (∀ round ∈ rounds, round.2.OnlyWalks t.ledger) →
        ∃ awaiting, rounds.foldl
          (fun u round => u.after ⟨policy, round.1, some headroom⟩ round.2) u =
            { u with awaiting } := by
  intro policy t
  have hm : policy.matcher.Answers := kind.answers
  have hagain : ∀ (u : Scheduler) (now' : Instant), u.ledger = t.ledger →
      u.preempt ⟨policy, now', some headroom⟩ = (.ok (), u) := fun u now' hu =>
    preempt_again hm hw.underway.coherent now now' hfits hu
  refine ⟨fun now' => hagain t now' rfl, fun u rounds hu hrounds => ?_⟩
  induction rounds generalizing u with
  | nil => exact ⟨u.awaiting, rfl⟩
  | cons round rounds ih =>
      obtain ⟨awaiting, hround⟩ := after_of_settled (fun u => hagain u round.1) hu
        (hrounds round List.mem_cons_self)
      obtain ⟨awaiting', hrest⟩ := ih { u with awaiting } hu
        fun later hlater => hrounds later (List.mem_cons_of_mem _ hlater)
      rw [List.foldl_cons, hround, hrest]
      exact ⟨awaiting', rfl⟩

/-- A container that was announced is enough for the request it was taken for, however often
the scheduler looks again. -/
theorem walk_settles_pending :
    let cx : Context := ⟨⟨.standard, MatcherKind.alwaysMatch.matcher⟩, .epoch, some ⟨512, 1⟩⟩
    let quiet : Context := { cx with headroom := none }
    let request (task : UInt64) (priority : UInt32) : TaskRequest :=
      ⟨⟨task⟩, ⟨2048, 1⟩, ⟨priority⟩, ⟨[], [], true⟩, ⟨0, ⟨⟨1024, 1⟩, .empty, .empty⟩⟩⟩
    let container (id : String) (cookie : UInt64) : Container :=
      ⟨⟨id⟩, ⟨"host1", 8041⟩, none, ⟨2048, 1⟩, ⟨9⟩, some ⟨cookie⟩, none⟩
    let ops : List Operation := [.request (request 1 9), .request (request 2 1),
      .hear (.allocated [container "c_1" 1, container "c_2" 2]), .request (request 3 1)]
    let w : Fleet := (ops.foldl (fun s op => s.after quiet op) .fresh, .connect .zero)
    let t : Scheduler := (w.1.preempt cx).2
    (∀ p, (Resource.mk 512 1).amount p + Resource.allotted p w.1.ledger.holdings ≤ p.bound) ∧
      t.ledger.assignment? ⟨"c_1"⟩ = some (.beingReleased ⟨1⟩) ∧
      (∀ now', t.preempt { cx with now := now' } = (.ok (), t)) ∧
      ∃ awaiting, [(Instant.epoch, Operation.housekeep .epoch), (.epoch, .preempt)].foldl
        (fun u round => u.after { cx with now := round.1 } round.2) t = { t with awaiting } := by
  intro cx quiet request container ops w t
  have hw : w.Reachable quiet.policy := by
    apply (Reachable.start .zero).operations
    decide
  have hfits : ∀ p, (Resource.mk 512 1).amount p + Resource.allotted p w.1.ledger.holdings ≤
      p.bound := by
    intro p
    cases p <;> decide +kernel
  obtain ⟨hagain, hrounds⟩ := walk_settles hw .epoch ⟨512, 1⟩ hfits
  refine ⟨hfits, ?_, hagain, hrounds t _ rfl ?_⟩
  · decide +kernel
  · simp [Operation.OnlyWalks]

end Fleet

end TaskFleet
