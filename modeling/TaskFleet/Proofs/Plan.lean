import TaskFleet.Proofs.Ranking

/-!
# The shortest sufficient plan

Containers are taken in the order of their ranking until what they free makes up for what is
missing.  The scan runs over two lists, the idle containers and then the running ones, and what
was freed by the first is carried into the second; together it stops once, at the first place
where it is enough (`takeUntilCovered_append`), or there is no such place and nothing is taken
(`planWithin_shortest_prefix`).
-/

namespace TaskFleet

/-! ## What containers amount to -/

/-- What containers are allotted together, as far as an allotment can say it. -/
def Resource.pooled (hs : List Holding) : Resource :=
  Resource.total (hs.map fun h => h.container.resource)

theorem Resource.amount_pooled (hs : List Holding) (p : Resource.Part) :
    (Resource.pooled hs).amount p = min (Resource.allotted p hs) p.bound :=
  Resource.amount_total ..

theorem Resource.pooled_append (hs hs' : List Holding) :
    Resource.pooled (hs ++ hs') = (Resource.pooled hs).freeing hs' :=
  Resource.freeing_append ..

/-- More containers cover no less. -/
theorem Resource.covers_pooled_of_sublist {hs hs' : List Holding} {missing : Resource}
    (hsub : hs.Sublist hs') (hcovers : (Resource.pooled hs).covers missing = true) :
    (Resource.pooled hs').covers missing = true := by
  rw [Resource.covers_iff_amount] at *
  intro p
  have hpart := hcovers p
  have hmore := Resource.allotted_le_of_sublist hsub p
  rw [Resource.amount_pooled] at *
  omega

/-- What is missing of each part. -/
def TaskRequest.shortfall (request : TaskRequest) (available : Resource) : Resource :=
  request.capability - available

/-! ## The scan -/

/-- The plan to take the first containers of a ranking. -/
def PreemptionPlan.first (n : Nat) (spare running : List Holding) : PreemptionPlan where
  releaseIdle := (spare.take n).map fun h => h.container.id
  preemptActive := (running.take (n - spare.length)).map fun h => h.container.id
  freed := Resource.pooled ((spare ++ running).take n)

/-- To scan two lists, one after the other, is to scan both and to stop once. -/
theorem takeUntilCovered_append (missing : Resource) (spare running : List Holding) :
    ∃ n freed, n ≤ (spare ++ running).length ∧
      takeUntilCovered missing .zero (spare.map Holding.container) =
        ((PreemptionPlan.first n spare running).releaseIdle, freed) ∧
      takeUntilCovered missing freed (running.map Holding.container) =
        ((PreemptionPlan.first n spare running).preemptActive,
          (PreemptionPlan.first n spare running).freed) ∧
      (∀ k < n, (Resource.pooled ((spare ++ running).take k)).covers missing = false) ∧
      (n < (spare ++ running).length →
        (Resource.pooled ((spare ++ running).take n)).covers missing = true) := by
  obtain ⟨a, ha, htake, hbefore, henough⟩ := takeUntilCovered_shortest missing .zero spare
  obtain ⟨b, hb, htake', hbefore', henough'⟩ :=
    takeUntilCovered_shortest missing (Resource.zero.freeing (spare.take a)) running
  -- the second scan goes nowhere unless the first one went to the end
  have hone : b = 0 ∨ a = spare.length := by
    rcases Nat.lt_or_eq_of_le ha with hlt | heq
    · refine .inl (Classical.byContradiction fun hpos => ?_)
      have hshort := hbefore' 0 (Nat.pos_of_ne_zero hpos)
      rw [List.take_zero] at hshort
      exact absurd (henough hlt) (Bool.eq_false_iff.mp hshort)
    · exact .inr heq
  have hspare : spare.take (a + b) = spare.take a := by
    rcases hone with rfl | rfl
    · rw [Nat.add_zero]
    · rw [List.take_length, List.take_of_length_le (Nat.le_add_right ..)]
  have hrunning : a + b - spare.length = b := by omega
  have hpooled : Resource.pooled ((spare ++ running).take (a + b)) =
      (Resource.zero.freeing (spare.take a)).freeing (running.take b) := by
    rw [List.take_append, hspare, hrunning]
    exact Resource.pooled_append ..
  refine ⟨a + b, Resource.zero.freeing (spare.take a), ?_, ?_, ?_, fun k hk => ?_,
    fun hlt => ?_⟩
  · rw [List.length_append]
    omega
  · simp only [PreemptionPlan.first]
    rw [hspare]
    exact htake
  · simp only [PreemptionPlan.first]
    rw [hrunning, hpooled]
    exact htake'
  · rw [List.take_append, Resource.pooled_append]
    rcases Nat.lt_or_ge k a with hfirst | hsecond
    · rw [Nat.sub_eq_zero_of_le (by omega), List.take_zero]
      exact hbefore k hfirst
    · have hend : a = spare.length := by omega
      have hall : spare.take k = spare.take a := by
        rw [hend, List.take_length, List.take_of_length_le (by omega)]
      rw [hall]
      exact hbefore' (k - spare.length) (by omega)
  · rw [hpooled]
    rw [List.length_append] at hlt
    rcases Nat.lt_or_eq_of_le hb with hmore | rfl
    · exact henough' hmore
    · have hnone : running.length = 0 := by omega
      rw [List.length_eq_zero_iff.mp hnone, List.take_nil]
      exact henough (by omega)

/-! ## The plan -/

section

variable {m : Matcher} {l : Ledger} {request : TaskRequest} {available : Resource}
  {spare running : List Holding}

/-- Where something is missing the ranking is scanned, and what is taken is the plan if it is
enough. -/
theorem Ledger.Ranking.planWithin_eq (hranking : l.Ranking m request spare running)
    (hl : l.Keyed) (hm : m.Answers)
    (hmissing : (request.shortfall available).isZero = false) :
    ∃ n, n ≤ (spare ++ running).length ∧
      planWithin m l request available = .ok
        (if (PreemptionPlan.first n spare running).freed.covers (request.shortfall available)
          then .first n spare running else .nothing) ∧
      (∀ k < n, (Resource.pooled ((spare ++ running).take k)).covers
        (request.shortfall available) = false) ∧
      (n < (spare ++ running).length →
        (Resource.pooled ((spare ++ running).take n)).covers
          (request.shortfall available) = true) := by
  obtain ⟨c, hcollect, hcandidates⟩ := hl.ranking hm request
  obtain ⟨rfl, rfl⟩ := hcandidates.unique hranking
  obtain ⟨n, freed, hn, hspare, hrunning, hbefore, henough⟩ :=
    takeUntilCovered_append (request.shortfall available)
      (c.idleRanking request.capability) (c.activeRanking.map Victim.holding)
  refine ⟨n, hn, ?_, hbefore, henough⟩
  have hvictims : (c.activeRanking.map Victim.holding).map Holding.container =
      c.activeRanking.map fun v => v.holding.container := List.map_map
  rw [hvictims] at hrunning
  unfold TaskRequest.shortfall at *
  simp only [planWithin, hmissing, hcollect, hspare, hrunning, bind, Except.bind, pure,
    Except.pure, Bool.false_eq_true, if_false]

/-- The plan takes the shortest part of the ranking that makes up for what is missing, or
nothing if all of it does not. -/
theorem Ledger.Ranking.shortest (hranking : l.Ranking m request spare running)
    (hl : l.Keyed) (hm : m.Answers)
    (hmissing : (request.shortfall available).isZero = false) :
    (Resource.pooled (spare ++ running)).covers (request.shortfall available) = false ∧
      planWithin m l request available = .ok .nothing ∨
    (Resource.pooled (spare ++ running)).covers (request.shortfall available) = true ∧
      ∃ n, (Resource.pooled ((spare ++ running).take n)).covers
          (request.shortfall available) = true ∧
        (∀ k < n, (Resource.pooled ((spare ++ running).take k)).covers
          (request.shortfall available) = false) ∧
        planWithin m l request available = .ok (.first n spare running) := by
  obtain ⟨n, hn, hplan, hbefore, henough⟩ := hranking.planWithin_eq hl hm hmissing
  cases hcovers : (Resource.pooled (spare ++ running)).covers (request.shortfall available) with
  | false =>
      have hshort : (PreemptionPlan.first n spare running).freed.covers
          (request.shortfall available) = false := by
        refine Bool.eq_false_iff.mpr fun hfirst => ?_
        have hall := Resource.covers_pooled_of_sublist (List.take_sublist n _) hfirst
        rw [hcovers] at hall
        cases hall
      refine .inl ⟨rfl, ?_⟩
      rw [hplan, hshort]
      rfl
  | true =>
      have hfirst : (Resource.pooled ((spare ++ running).take n)).covers
          (request.shortfall available) = true := by
        rcases Nat.lt_or_eq_of_le hn with hlt | heq
        · exact henough hlt
        · rw [heq, List.take_length]
          exact hcovers
      refine .inr ⟨rfl, n, hfirst, hbefore, ?_⟩
      rw [hplan]
      exact congrArg Except.ok (if_pos hfirst)

/-- A plan that takes something back is such a part of the ranking. -/
theorem Ledger.Ranking.of_plan (hranking : l.Ranking m request spare running)
    (hl : l.Keyed) (hm : m.Answers) {plan : PreemptionPlan}
    (hplan : planWithin m l request available = .ok plan) (hsome : plan.isEmpty = false) :
    ∃ n, plan = .first n spare running ∧
      (Resource.pooled ((spare ++ running).take n)).covers
        (request.shortfall available) = true ∧
      ∀ k < n, (Resource.pooled ((spare ++ running).take k)).covers
        (request.shortfall available) = false := by
  cases hmissing : (request.shortfall available).isZero with
  | true =>
      unfold TaskRequest.shortfall at hmissing
      simp only [planWithin, hmissing, if_true] at hplan
      cases hplan
      cases hsome
  | false =>
      rcases hranking.shortest hl hm hmissing with ⟨-, hnone⟩ | ⟨-, n, hcovers, hbefore, hfirst⟩
      · rw [hnone] at hplan
        cases hplan
        cases hsome
      · rw [hfirst] at hplan
        cases hplan
        exact ⟨n, rfl, hcovers, hbefore⟩

/-- The shortest part of the ranking that is enough is the plan. -/
theorem Ledger.Ranking.planWithin_of_shortest {n : Nat}
    (hranking : l.Ranking m request spare running) (hl : l.Keyed) (hm : m.Answers)
    (hmissing : (request.shortfall available).isZero = false)
    (hcovers : (Resource.pooled ((spare ++ running).take n)).covers
      (request.shortfall available) = true)
    (hbefore : ∀ k < n, (Resource.pooled ((spare ++ running).take k)).covers
      (request.shortfall available) = false) :
    planWithin m l request available = .ok (.first n spare running) := by
  rcases hranking.shortest hl hm hmissing with ⟨hshort, -⟩ | ⟨-, n', hcovers', hbefore', hplan⟩
  · have hall := Resource.covers_pooled_of_sublist (List.take_sublist n _) hcovers
    rw [hshort] at hall
    cases hall
  · rcases Nat.lt_trichotomy n n' with hlt | rfl | hgt
    · rw [hbefore' n hlt] at hcovers
      cases hcovers
    · exact hplan
    · rw [hbefore n' hgt] at hcovers'
      cases hcovers'

end

/-- Whatever was asked of the ledger, a request ranks the containers that could be taken back
for it in one way.  The plan is the shortest part of this ranking that makes up for what is
missing; it is empty if nothing is missing or the whole ranking does not make up for it.  So
with what a plan frees the request fits. -/
theorem planWithin_shortest_prefix (ops : List Ledger.Operation) (kind : MatcherKind)
    (request : TaskRequest) (available : Resource) :
    ∃ spare running,
      (Ledger.empty.run ops).Ranking kind.matcher request spare running ∧
      (∀ spare' running', (Ledger.empty.run ops).Ranking kind.matcher request spare' running' →
        spare' = spare ∧ running' = running) ∧
      ((request.shortfall available).isZero = true ∨
          (Resource.pooled (spare ++ running)).covers (request.shortfall available) = false →
        planWithin kind.matcher (Ledger.empty.run ops) request available = .ok .nothing) ∧
      ((request.shortfall available).isZero = false →
          (Resource.pooled (spare ++ running)).covers (request.shortfall available) = true →
        ∃ n, (Resource.pooled ((spare ++ running).take n)).covers
            (request.shortfall available) = true ∧
          (∀ k < n, (Resource.pooled ((spare ++ running).take k)).covers
            (request.shortfall available) = false) ∧
          planWithin kind.matcher (Ledger.empty.run ops) request available =
            .ok (.first n spare running)) ∧
      ∀ plan, planWithin kind.matcher (Ledger.empty.run ops) request available = .ok plan →
        plan.isEmpty = false → (available + plan.freed).covers request.capability = true := by
  have hl : (Ledger.empty.run ops).Keyed := Ledger.keyed_empty.run ops
  have hm := kind.answers
  obtain ⟨c, -, hranking⟩ := hl.ranking hm request
  refine ⟨_, _, hranking, fun _ _ hother => hranking.unique hother, fun hnone => ?_,
    fun hmissing hcovers => ?_, fun plan hplan hsome => ?_⟩
  · cases hmissing : (request.shortfall available).isZero with
    | true =>
        unfold TaskRequest.shortfall at hmissing
        simp only [planWithin, hmissing, if_true]
    | false =>
        rcases hranking.shortest hl hm hmissing with ⟨-, hplan⟩ | ⟨hcovers, -⟩
        · exact hplan
        · simp [hmissing, hcovers] at hnone
  · rcases hranking.shortest hl hm hmissing with ⟨hshort, -⟩ | ⟨-, hplan⟩
    · rw [hcovers] at hshort
      cases hshort
    · exact hplan
  · obtain ⟨n, rfl, hcovers, -⟩ := hranking.of_plan hl hm hplan hsome
    rw [Resource.covers_iff_amount] at hcovers ⊢
    intro p
    have hpart := hcovers p
    have hbound := request.capability.amount_le_bound p
    rw [TaskRequest.shortfall, Resource.amount_sub] at hpart
    rw [Resource.amount_add]
    show _ ≤ min (_ + (Resource.pooled _).amount p) _
    omega

end TaskFleet
