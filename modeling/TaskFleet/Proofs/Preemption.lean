import TaskFleet.Preemption
import TaskFleet.Proofs.Ledger.Ownership
import TaskFleet.Proofs.Matcher
import TaskFleet.Proofs.Resource

/-!
# What a plan to take containers back may rely on

A held container yields to a waiting request (`Ledger.yields`) if the policy lets it run
the request and it is idle or runs a request that is less important.  A plan takes back
containers that yield, none of them twice, and what it frees makes up for the shortfall
(`Plans`).  Where there is no plan, there is none: whatever is taken of the containers that
yield, something is still missing (`planWithin_spec`).

The candidates are filtered, sorted and cut, so every step is a statement about lists up to
order; only the cut looks at amounts.
-/

namespace TaskFleet

/-! ## Candidates -/

/-- The container runs a request that is less important. -/
def Ledger.runsLesser (l : Ledger) (request : TaskRequest) (h : Holding) : Bool :=
  match h.assignment with
  | .active cookie =>
    match l.lookup cookie with
    | .ok running => request.priority.outranks running.priority
    | .error _ => false
  | _ => false

/-- The container could be taken back for a request. -/
def Ledger.yields (m : Matcher) (l : Ledger) (request : TaskRequest) (h : Holding) : Bool :=
  (h.isIdle || l.runsLesser request h) && m.serves h request

theorem Ledger.runsLesser_iff {l : Ledger} {request : TaskRequest} {h : Holding} :
    l.runsLesser request h = true ↔ ∃ cookie running, h.assignment = .active cookie ∧
      l.lookup cookie = .ok running ∧ request.priority.outranks running.priority = true := by
  unfold runsLesser
  cases h.assignment with
  | active cookie =>
      dsimp only
      cases hlookup : l.lookup cookie <;> simp [hlookup]
  | _ => simp

theorem Ledger.not_runsLesser_of_isIdle {l : Ledger} {request : TaskRequest} {h : Holding}
    (hidle : h.isIdle = true) : l.runsLesser request h = false := by
  unfold runsLesser
  cases hassignment : h.assignment with
  | active cookie => simp [Holding.isIdle, Assignment.isIdle, hassignment] at hidle
  | _ => rfl

/-- The request runs in the container. -/
def Ledger.Runs (l : Ledger) (h : Holding) (request : TaskRequest) : Prop :=
  ∃ cookie, h.assignment = .active cookie ∧ l.lookup cookie = .ok request

/-- What was noted of a running container is what the ledger says. -/
def Victim.Notes (m : Matcher) (l : Ledger) (v : Victim) : Prop :=
  ∃ running, l.Runs v.holding running ∧ v.priority = running.priority ∧
    v.exact = m.suits v.holding running

namespace Candidates

variable {m : Matcher} {l : Ledger} {request : TaskRequest}

theorem consider_spec (hm : m.Answers) (l : Ledger) (request : TaskRequest) (h : Holding) :
    ((h.isIdle && m.serves h request) = true ∧ consider m l request h = .ok (some (.inl h))) ∨
    ((l.runsLesser request h && m.serves h request) = true ∧
      ∃ v : Victim, v.holding = h ∧ v.Notes m l ∧
        consider m l request h = .ok (some (.inr v))) ∨
    ((h.isIdle && m.serves h request) = false ∧
      (l.runsLesser request h && m.serves h request) = false ∧
      consider m l request h = .ok none) := by
  have hserves := hm.superset h request
  unfold consider Ledger.runsLesser Holding.isIdle
  cases hassignment : h.assignment with
  | idle since =>
      rw [hserves]
      cases m.serves h request <;> simp [Assignment.isIdle, bind, Except.bind, pure, Except.pure]
  | active cookie =>
      dsimp only
      cases hlookup : l.lookup cookie with
      | error cause => simp [Assignment.isIdle]
      | ok running =>
          dsimp only
          rw [hserves, hm.exact h running]
          have hnotes : Victim.Notes m l ⟨h, m.suits h running, running.priority⟩ :=
            ⟨running, ⟨cookie, hassignment, hlookup⟩, rfl, rfl⟩
          cases request.priority.outranks running.priority <;>
            cases m.serves h request <;>
            simp [Assignment.isIdle, hnotes, bind, Except.bind, pure, Except.pure]
  | beingReleased cookie => simp [Assignment.isIdle]
  | released task => simp [Assignment.isIdle]

/-- The candidates and one more, if there is one. -/
def more (c : Candidates) : Option (Holding ⊕ Victim) → Candidates
  | some (.inl h) => { c with idle := h :: c.idle }
  | some (.inr v) => { c with active := v :: c.active }
  | none => c

theorem collect_cons {l : Ledger} {request : TaskRequest} {h : Holding} {held : List Holding}
    {candidate : Option (Holding ⊕ Victim)} {rest : Candidates}
    (hcandidate : consider m l request h = .ok candidate)
    (hrest : collect m l request held = .ok rest) :
    collect m l request (h :: held) = .ok (rest.more candidate) := by
  simp only [collect, hcandidate, hrest, bind, Except.bind, pure, Except.pure]
  cases candidate with
  | none => rfl
  | some found => cases found <;> rfl

/-- The candidates are the containers that yield, the idle ones apart from the others. -/
theorem collect_spec (hm : m.Answers) (l : Ledger) (request : TaskRequest)
    (held : List Holding) :
    ∃ c, collect m l request held = .ok c ∧
      c.idle = held.filter (fun h => h.isIdle && m.serves h request) ∧
      c.active.map Victim.holding =
        held.filter (fun h => l.runsLesser request h && m.serves h request) ∧
      ∀ v ∈ c.active, v.Notes m l := by
  induction held with
  | nil =>
      refine ⟨⟨[], []⟩, rfl, rfl, rfl, fun v hv => ?_⟩
      cases hv
  | cons h held ih =>
      obtain ⟨rest, hrest, hidle, hactive, hnoted⟩ := ih
      rcases consider_spec hm l request h with ⟨htest, hcandidate⟩ |
        ⟨htest, v, rfl, hnotes, hcandidate⟩ | ⟨hnotIdle, hnotActive, hcandidate⟩
      · -- an idle container runs nothing, so it is no victim as well
        obtain ⟨hfree, -⟩ := Bool.and_eq_true_iff.mp htest
        refine ⟨_, collect_cons hcandidate hrest, ?_, ?_, hnoted⟩
        · simp [more, htest, hidle]
        · simp [more, Ledger.not_runsLesser_of_isIdle hfree, hactive]
      · have hbusy : v.holding.isIdle = false := by
          refine Bool.eq_false_iff.mpr fun hfree => ?_
          rw [Ledger.not_runsLesser_of_isIdle hfree] at htest
          cases htest
        refine ⟨_, collect_cons hcandidate hrest, ?_, ?_, List.forall_mem_cons.mpr ⟨hnotes, hnoted⟩⟩
        · simp [more, hbusy, hidle]
        · simp [more, htest, hactive]
      · refine ⟨_, collect_cons hcandidate hrest, ?_, ?_, hnoted⟩
        · simp [more, hnotIdle, hidle]
        · simp [more, hnotActive, hactive]

end Candidates

/-! ## Taking until it is enough -/

/-- A part of what containers are allotted, however much that is. -/
def Resource.allotted (p : Resource.Part) (hs : List Holding) : Nat :=
  Resource.sum p (hs.map fun h => h.container.resource)

@[simp] theorem Resource.allotted_nil (p : Resource.Part) : Resource.allotted p [] = 0 := rfl

@[simp] theorem Resource.allotted_cons (p : Resource.Part) (h : Holding) (hs : List Holding) :
    Resource.allotted p (h :: hs) = h.container.resource.amount p + Resource.allotted p hs := by
  simp [Resource.allotted]

@[simp] theorem Resource.allotted_append (p : Resource.Part) (hs hs' : List Holding) :
    Resource.allotted p (hs ++ hs') = Resource.allotted p hs + Resource.allotted p hs' := by
  simp [Resource.allotted]

theorem Resource.allotted_perm {hs hs' : List Holding} (h : hs.Perm hs')
    (p : Resource.Part) : Resource.allotted p hs = Resource.allotted p hs' :=
  Resource.sum_perm (h.map _) p

theorem Resource.allotted_le_of_sublist {hs hs' : List Holding} (h : hs.Sublist hs')
    (p : Resource.Part) : Resource.allotted p hs ≤ Resource.allotted p hs' :=
  Resource.sum_le_of_sublist (h.map _) p

/-- What is freed when containers are taken as well: a sum that is clipped as it grows. -/
def Resource.freeing (freed : Resource) (hs : List Holding) : Resource :=
  (hs.map fun h => h.container.resource).foldl (· + ·) freed

theorem Resource.amount_freeing (freed : Resource) (hs : List Holding) (p : Resource.Part) :
    (freed.freeing hs).amount p = min (freed.amount p + Resource.allotted p hs) p.bound :=
  Resource.amount_foldl_add ..

theorem Resource.freeing_append (freed : Resource) (hs hs' : List Holding) :
    freed.freeing (hs ++ hs') = (freed.freeing hs).freeing hs' := by
  simp only [freeing, List.map_append, List.foldl_append]

/-- Containers are taken until it is enough and no further.  If it is never enough, all of
them are taken. -/
theorem takeUntilCovered_shortest (shortfall freed : Resource) (hs : List Holding) :
    ∃ n, n ≤ hs.length ∧
      takeUntilCovered shortfall freed (hs.map Holding.container) =
        ((hs.take n).map fun h => h.container.id, freed.freeing (hs.take n)) ∧
      (∀ k < n, (freed.freeing (hs.take k)).covers shortfall = false) ∧
      (n < hs.length → (freed.freeing (hs.take n)).covers shortfall = true) := by
  induction hs generalizing freed with
  | nil => exact ⟨0, Nat.le_refl 0, rfl, nofun, nofun⟩
  | cons h hs ih =>
      rw [List.map_cons, takeUntilCovered]
      split
      · next hcovers => exact ⟨0, Nat.zero_le _, rfl, nofun, fun _ => hcovers⟩
      · next hshort =>
        obtain ⟨n, hn, htake, hbefore, henough⟩ := ih (freed + h.container.resource)
        refine ⟨n + 1, Nat.succ_le_succ hn, ?_, fun k hk => ?_, fun hlt => ?_⟩
        · rw [htake]
          rfl
        · cases k with
          | zero => exact Bool.eq_false_iff.mpr hshort
          | succ k => exact hbefore k (Nat.lt_of_succ_lt_succ hk)
        · exact henough (Nat.lt_of_succ_lt_succ hlt)

/-- A first part of the containers is taken.  It is enough or it is all of them. -/
theorem takeUntilCovered_spec (shortfall freed : Resource) (hs : List Holding) :
    ∃ taken rest total, hs = taken ++ rest ∧
      takeUntilCovered shortfall freed (hs.map Holding.container) =
        (taken.map fun h => h.container.id, total) ∧
      (∀ p, total.amount p = min (freed.amount p + Resource.allotted p taken) p.bound) ∧
      (total.covers shortfall = true ∨ rest = []) := by
  obtain ⟨n, hn, htake, -, henough⟩ := takeUntilCovered_shortest shortfall freed hs
  refine ⟨hs.take n, hs.drop n, _, (List.take_append_drop n hs).symm, htake,
    freed.amount_freeing _, ?_⟩
  rcases Nat.lt_or_eq_of_le hn with hlt | rfl
  · exact .inl (henough hlt)
  · exact .inr List.drop_length

/-! ## The plan -/

section

variable {m : Matcher} {l : Ledger} {request : TaskRequest} {available : Resource}

/-- What a plan promises.  Its containers, some of them idle and some running, are held
and yield; none is taken twice; and what they free is enough. -/
structure PreemptionPlan.Sound (m : Matcher) (l : Ledger) (request : TaskRequest)
    (available : Resource) (plan : PreemptionPlan) (spare running : List Holding) : Prop where
  releaseIdle : plan.releaseIdle = spare.map fun h => h.container.id
  preemptActive : plan.preemptActive = running.map fun h => h.container.id
  idle : ∀ h ∈ spare, h ∈ l.holdings ∧ h.isIdle = true ∧ m.serves h request = true
  active : ∀ h ∈ running, h ∈ l.holdings ∧ l.runsLesser request h = true ∧
    m.serves h request = true
  once : ((spare ++ running).map fun h => h.container.id).Nodup
  freed : ∀ p, plan.freed.amount p = min (Resource.allotted p (spare ++ running)) p.bound
  enough : ∀ p, request.capability.amount p ≤ available.amount p + plan.freed.amount p

/-- Whatever is taken of the containers that yield, something is still missing. -/
def Ledger.Hopeless (m : Matcher) (l : Ledger) (request : TaskRequest)
    (available : Resource) : Prop :=
  ∀ hs : List Holding, hs.Sublist l.holdings → (∀ h ∈ hs, l.yields m request h = true) →
    ∃ p, available.amount p + Resource.allotted p hs < request.capability.amount p

/-- The candidates together are the containers that yield. -/
theorem Candidates.perm_yields (m : Matcher) (l : Ledger) (request : TaskRequest)
    (held : List Holding) :
    (held.filter (fun h => h.isIdle && m.serves h request) ++
      held.filter (fun h => l.runsLesser request h && m.serves h request)).Perm
      (held.filter (l.yields m request)) := by
  have hsplit := List.filter_append_perm Holding.isIdle (held.filter (l.yields m request))
  rw [List.filter_filter, List.filter_filter] at hsplit
  have hidle : ∀ h : Holding, (h.isIdle && l.yields m request h) =
      (h.isIdle && m.serves h request) := by
    intro h
    rw [Ledger.yields]
    cases h.isIdle <;> simp
  have hactive : ∀ h : Holding, (!h.isIdle && l.yields m request h) =
      (l.runsLesser request h && m.serves h request) := by
    intro h
    rw [Ledger.yields]
    cases hfree : h.isIdle with
    | true => simp [Ledger.not_runsLesser_of_isIdle hfree]
    | false => simp
  simpa only [hidle, hactive] using hsplit

/-- A plan is cut from the candidates, the idle ones before the others, and nothing is left
of either if it does not make up for the shortfall. -/
theorem planWithin_cut (hm : m.Answers) (l : Ledger)
    (hshort : available.covers request.capability = false) :
    ∃ (spare restSpare running restRunning : List Holding) (total : Resource),
      (spare ++ restSpare).Perm
        (l.holdings.filter fun h => h.isIdle && m.serves h request) ∧
      (running ++ restRunning).Perm
        (l.holdings.filter fun h => l.runsLesser request h && m.serves h request) ∧
      (∀ p, total.amount p = min (Resource.allotted p (spare ++ running)) p.bound) ∧
      (total.covers (request.capability - available) = true ∨
        restSpare = [] ∧ restRunning = []) ∧
      planWithin m l request available = .ok
        (if total.covers (request.capability - available) then
          ⟨spare.map fun h => h.container.id, running.map fun h => h.container.id, total⟩
        else .nothing) := by
  have hmissing : (request.capability - available).isZero = false := by
    rw [Resource.isZero_sub]
    exact hshort
  obtain ⟨c, hcollect, hidle, hactive, -⟩ := Candidates.collect_spec hm l request l.holdings
  obtain ⟨spare, restSpare, first, hspare, htakeSpare, hfirst, henoughSpare⟩ :=
    takeUntilCovered_spec (request.capability - available) .zero
      (c.idleRanking request.capability)
  obtain ⟨running, restRunning, total, hrunning, htakeRunning, htotal, henough⟩ :=
    takeUntilCovered_spec (request.capability - available) first
      (c.activeRanking.map Victim.holding)
  have hgrows : first.covers (request.capability - available) = true →
      total.covers (request.capability - available) = true := by
    rw [Resource.covers_iff_amount, Resource.covers_iff_amount]
    intro hcovers p
    have hbound := first.amount_le_bound p
    rw [htotal]
    have hfirst := hcovers p
    omega
  refine ⟨spare, restSpare, running, restRunning, total, ?_, ?_, fun p => ?_, ?_, ?_⟩
  · exact hspare ▸ hidle ▸ List.mergeSort_perm ..
  · exact hrunning ▸ hactive ▸ (List.mergeSort_perm ..).map _
  · rw [htotal, hfirst, Resource.amount_zero, Resource.allotted_append]
    omega
  · rcases henough with hcovers | hnone
    · exact .inl hcovers
    · exact henoughSpare.imp hgrows fun hnoSpare => ⟨hnoSpare, hnone⟩
  · have hvictims : (c.activeRanking.map Victim.holding).map Holding.container =
        c.activeRanking.map fun v => v.holding.container := List.map_map
    rw [hvictims] at htakeRunning
    simp only [planWithin, hmissing, hcollect, htakeSpare, htakeRunning, bind, Except.bind,
      pure, Except.pure, Bool.false_eq_true, if_false]

/-- There is a plan that keeps its promises, or there is none and no choice of containers
would do. -/
theorem planWithin_spec (hm : m.Answers) (hl : l.Coherent)
    (hshort : available.covers request.capability = false) :
    (∃ plan spare running, planWithin m l request available = .ok plan ∧
      plan.Sound m l request available spare running) ∨
    (planWithin m l request available = .ok .nothing ∧
      l.Hopeless m request available) := by
  obtain ⟨spare, restSpare, running, restRunning, total, hspare, hrunning, htotal, hrests,
    hplan⟩ := planWithin_cut hm l hshort
  have hall := (hspare.append hrunning).trans (Candidates.perm_yields m l request l.holdings)
  rw [hplan]
  cases hcovers : total.covers (request.capability - available) with
  | true =>
      refine .inl ⟨_, spare, running, rfl, rfl, rfl, fun h hh => ?_, fun h hh => ?_, ?_,
        htotal, fun p => ?_⟩
      · have hmem := hspare.mem_iff.mp (List.mem_append_left restSpare hh)
        rw [List.mem_filter, Bool.and_eq_true] at hmem
        exact hmem
      · have hmem := hrunning.mem_iff.mp (List.mem_append_left restRunning hh)
        rw [List.mem_filter, Bool.and_eq_true] at hmem
        exact hmem
      · -- what is taken is part of the candidates, and these are part of the holdings
        have hpart : (spare ++ running).Sublist
            ((spare ++ restSpare) ++ (running ++ restRunning)) :=
          (List.sublist_append_left ..).append (List.sublist_append_left ..)
        have hnodup : ((l.holdings.filter (l.yields m request)).map
            fun h => h.container.id).Nodup :=
          (Ledger.Keyed.nodup_ids hl.keyed).sublist (List.filter_sublist.map _)
        exact ((hall.map _).nodup_iff.mpr hnodup).sublist (hpart.map _)
      · have hcover := Resource.covers_iff_amount.mp hcovers p
        rw [Resource.amount_sub] at hcover
        show _ ≤ _ + total.amount p
        omega
  | false =>
      refine .inr ⟨rfl, fun hs hsub hyields => ?_⟩
      obtain ⟨rfl, rfl⟩ : restSpare = [] ∧ restRunning = [] := by simpa [hcovers] using hrests
      obtain ⟨p, hp⟩ := Resource.not_covers_iff_amount.mp hcovers
      -- whoever yields was a candidate, and all candidates together are not enough
      have hfiltered : hs.Sublist (l.holdings.filter (l.yields m request)) := by
        have hkept := hsub.filter (l.yields m request)
        rwa [List.filter_eq_self.mpr hyields] at hkept
      have hmost := Resource.allotted_le_of_sublist hfiltered p
      rw [← Resource.allotted_perm hall, List.append_nil, List.append_nil] at hmost
      have hbound := request.capability.amount_le_bound p
      rw [htotal, Resource.amount_sub] at hp
      refine ⟨p, ?_⟩
      omega

/-- A plan that keeps its promises takes something back. -/
theorem PreemptionPlan.Sound.isEmpty_eq_false {plan : PreemptionPlan}
    {spare running : List Holding} (hplan : plan.Sound m l request available spare running)
    (hshort : available.covers request.capability = false) : plan.isEmpty = false := by
  obtain ⟨p, hp⟩ := Resource.not_covers_iff_amount.mp hshort
  refine Bool.eq_false_iff.mpr fun hempty => ?_
  rw [isEmpty, hplan.releaseIdle, hplan.preemptActive, Bool.and_eq_true] at hempty
  simp only [List.isEmpty_iff, List.map_eq_nil_iff] at hempty
  obtain ⟨rfl, rfl⟩ := hempty
  have hfreed := hplan.freed p
  have henough := hplan.enough p
  simp only [List.append_nil, Resource.allotted_nil] at hfreed
  omega

end

end TaskFleet
