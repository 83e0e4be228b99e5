import TaskFleet.Proofs.Plan

/-!
# Containers that a plan could have left

Containers are taken by rank and not by size, so a plan may take a container that it turns out
not to need: a small one ranks first, it is not enough, and the next one is large enough for
itself alone (`superfluous_uneven`).

The last container that is taken is always needed, for without it the scan would not have come
to it.  So whoever is not needed is made up for by the last one, and is smaller than it in every
part that was still missing (`only_smaller_superfluous`).
-/

namespace TaskFleet

namespace PreemptionPlan

/-- The containers that a plan takes back. -/
def taken (plan : PreemptionPlan) (l : Ledger) : List Holding :=
  l.holdings.filter fun h =>
    decide (h.container.id ∈ plan.releaseIdle ++ plan.preemptActive)

/-- A container that is taken back though the others that are would do. -/
def Superfluous (plan : PreemptionPlan) (l : Ledger) (missing : Resource) (h : Holding) :
    Prop :=
  h ∈ plan.taken l ∧ (Resource.pooled ((plan.taken l).erase h)).covers missing = true

end PreemptionPlan

/-! ## A small container and a large one -/

namespace Uneven

/-- A request of some importance, all else being the same. -/
def request (task : UInt64) (priority : UInt32) (memory : UInt64) : TaskRequest :=
  ⟨⟨task⟩, ⟨memory, 1⟩, ⟨priority⟩, ⟨[], [], true⟩, ⟨0, ⟨⟨1024, 1⟩, .empty, .empty⟩⟩⟩

/-- The holding of a container that runs the request of its number. -/
def running (name : String) (memory cookie : UInt64) : Holding where
  container := ⟨⟨name⟩, ⟨"host1", 8041⟩, none, ⟨memory, 1⟩, ⟨5⟩, some ⟨cookie⟩,
    some ⟨0, ⟨⟨1024, 1⟩, .empty, .empty⟩⟩⟩
  signature := ⟨0, ⟨⟨1024, 1⟩, .empty, .empty⟩⟩
  assignment := .active ⟨cookie⟩
  assignedAt := .epoch
  lastTask := ⟨cookie⟩

/-- The least important request runs in a small container, a slightly more important one in
a large one. -/
def operations : List Ledger.Operation :=
  [.add (request 1 10 1024), .allocate .epoch ⟨1⟩ (running "c_1" 1024 1).container,
    .add (request 2 9 4096), .allocate .epoch ⟨2⟩ (running "c_2" 4096 2).container]

theorem ranking : (Ledger.empty.run operations).Ranking MatcherKind.alwaysMatch.matcher
    (request 3 1 4096) [] [running "c_1" 1024 1, running "c_2" 4096 2] := by
  have hheld : (Ledger.empty.run operations).holdings =
      [running "c_1" 1024 1, running "c_2" 4096 2] := by
    decide +kernel
  refine ⟨?_, .nil, ?_, List.pairwise_pair.mpr ?_⟩
  · rw [hheld]
    decide +kernel
  · rw [hheld]
    decide +kernel
  · refine ⟨request 1 10 1024, request 2 9 4096, ⟨⟨1⟩, rfl, ?_⟩, ⟨⟨2⟩, rfl, ?_⟩, ?_⟩
    · decide +kernel
    · decide +kernel
    · decide +kernel

/-- Both containers are taken, the small one first. -/
theorem plan : planWithin MatcherKind.alwaysMatch.matcher (Ledger.empty.run operations)
    (request 3 1 4096) .zero = .ok ⟨[], [⟨"c_1"⟩, ⟨"c_2"⟩], ⟨5120, 2⟩⟩ := by
  have hplan : planWithin MatcherKind.alwaysMatch.matcher (Ledger.empty.run operations)
      (request 3 1 4096) .zero =
        .ok (.first 2 [] [running "c_1" 1024 1, running "c_2" 4096 2]) := by
    apply ranking.planWithin_of_shortest (Ledger.keyed_empty.run operations)
      MatcherKind.alwaysMatch.answers
    · decide +kernel
    · decide +kernel
    · decide +kernel
  rw [hplan]
  decide +kernel

end Uneven

/-- A plan that takes back a container that it does not need: the large container alone would
do. -/
theorem superfluous_uneven :
    ∃ plan, planWithin MatcherKind.alwaysMatch.matcher (Ledger.empty.run Uneven.operations)
        (Uneven.request 3 1 4096) .zero = .ok plan ∧ plan.isEmpty = false ∧
      plan.Superfluous (Ledger.empty.run Uneven.operations)
        ((Uneven.request 3 1 4096).shortfall .zero) (Uneven.running "c_1" 1024 1) := by
  refine ⟨_, Uneven.plan, rfl, ?_, ?_⟩
  · decide +kernel
  · decide +kernel

/-! ## Who is needed -/

namespace PreemptionPlan

variable {l : Ledger} {spare running : List Holding}

theorem names_first (n : Nat) (spare running : List Holding) :
    (first n spare running).releaseIdle ++ (first n spare running).preemptActive =
      ((spare ++ running).take n).map fun h => h.container.id := by
  rw [List.take_append, List.map_append]
  rfl

/-- The first containers of a ranking are what the plan to take them takes. -/
theorem perm_taken_first {m : Matcher} {request : TaskRequest}
    (hranking : l.Ranking m request spare running) (hl : l.Keyed) (n : Nat) :
    ((first n spare running).taken l).Perm ((spare ++ running).take n) := by
  have hperm : (spare ++ running).Perm (l.holdings.filter (l.yields m request)) :=
    (hranking.idle.append hranking.lesser).trans (Candidates.perm_yields m l request _)
  have hheld : l.holdings.Nodup := List.Nodup.of_map _ hl.nodup_ids
  refine (List.perm_ext_iff_of_nodup (hheld.filter _) ?_).mpr fun h => ?_
  · exact (hperm.nodup_iff.mpr (hheld.filter _)).sublist (List.take_sublist ..)
  · rw [List.mem_filter, decide_eq_true_iff, names_first]
    have hmember : ∀ h' ∈ (spare ++ running).take n, h' ∈ l.holdings := fun h' hh' =>
      List.mem_of_mem_filter (hperm.mem_iff.mp (List.mem_of_mem_take hh'))
    constructor
    · rintro ⟨hh, hname⟩
      obtain ⟨h', hh', hsame⟩ := List.mem_map.mp hname
      exact List.inj_on_of_nodup_map hl.nodup_ids (hmember h' hh') hh hsame ▸ hh'
    · intro hh
      exact ⟨hmember h hh, List.mem_map_of_mem hh⟩

end PreemptionPlan

theorem Resource.pooled_perm {hs hs' : List Holding} (hperm : hs.Perm hs') :
    Resource.pooled hs = Resource.pooled hs' := by
  apply Resource.eq_of_amount
  intro p
  rw [Resource.amount_pooled, Resource.amount_pooled, Resource.allotted_perm hperm]

theorem Resource.allotted_erase {hs : List Holding} {h : Holding} (hh : h ∈ hs)
    (p : Resource.Part) :
    h.container.resource.amount p + Resource.allotted p (hs.erase h) =
      Resource.allotted p hs := by
  rw [Resource.allotted_perm (List.perm_cons_erase hh), Resource.allotted_cons]

/-- If it is enough without `h` and not enough without `last`, then `last` is the larger one
wherever it is not enough. -/
theorem Resource.amount_lt_of_covers_erase {hs : List Holding} {h last : Holding}
    {missing : Resource} {p : Resource.Part} (hh : h ∈ hs) (hlast : last ∈ hs)
    (hcovers : (Resource.pooled (hs.erase h)).covers missing = true)
    (hshort : (Resource.pooled (hs.erase last)).amount p < missing.amount p) :
    h.container.resource.amount p < last.container.resource.amount p := by
  have hpart := Resource.covers_iff_amount.mp hcovers p
  have hbound := missing.amount_le_bound p
  have hsum := Resource.allotted_erase hh p
  have hsum' := Resource.allotted_erase hlast p
  rw [Resource.amount_pooled] at hpart hshort
  omega

/-- The part of a ranking that is just enough ends with a container. -/
theorem Resource.exists_last {ranked : List Holding} {missing : Resource} {n : Nat}
    (hcovers : (Resource.pooled (ranked.take n)).covers missing = true)
    (hbefore : ∀ k < n, (Resource.pooled (ranked.take k)).covers missing = false)
    (hn : n ≠ 0) :
    ∃ before last, ranked.take n = before ++ [last] ∧
      (Resource.pooled before).covers missing = false := by
  obtain ⟨k, rfl⟩ := Nat.exists_eq_succ_of_ne_zero hn
  have hshort := hbefore k (Nat.lt_succ_self k)
  rw [List.take_add_one] at hcovers ⊢
  cases hlast : ranked[k]? with
  | none =>
      rw [hlast, Option.toList_none, List.append_nil, hshort] at hcovers
      cases hcovers
  | some last => exact ⟨ranked.take k, last, rfl, hshort⟩

/-- Of the containers that a plan takes back, the one that it names last is needed.  One that
is not needed is smaller than the last one, in every part of which something is missing
without the last one.  So where all are of one size, each of them is needed. -/
theorem only_smaller_superfluous (ops : List Ledger.Operation) (kind : MatcherKind)
    (request : TaskRequest) (available : Resource) {plan : PreemptionPlan}
    (hplan : planWithin kind.matcher (Ledger.empty.run ops) request available = .ok plan)
    (hsome : plan.isEmpty = false) :
    ∃ last ∈ plan.taken (Ledger.empty.run ops),
      (plan.releaseIdle ++ plan.preemptActive).getLast? = some last.container.id ∧
      ¬ plan.Superfluous (Ledger.empty.run ops) (request.shortfall available) last ∧
      (∀ h, plan.Superfluous (Ledger.empty.run ops) (request.shortfall available) h →
        ∀ p, (Resource.pooled ((plan.taken (Ledger.empty.run ops)).erase last)).amount p <
            (request.shortfall available).amount p →
          h.container.resource.amount p < last.container.resource.amount p) ∧
      ((∀ h ∈ plan.taken (Ledger.empty.run ops),
          h.container.resource = last.container.resource) →
        ∀ h, ¬ plan.Superfluous (Ledger.empty.run ops) (request.shortfall available) h) := by
  have hl : (Ledger.empty.run ops).Keyed := Ledger.keyed_empty.run ops
  obtain ⟨c, -, hranking⟩ := hl.ranking kind.answers request
  obtain ⟨n, rfl, hcovers, hbefore⟩ := hranking.of_plan hl kind.answers hplan hsome
  have hperm := PreemptionPlan.perm_taken_first hranking hl n
  have hnames := PreemptionPlan.names_first n (c.idleRanking request.capability)
    (c.activeRanking.map Victim.holding)
  obtain ⟨before, last, hsplit, hshort⟩ : ∃ before last,
      (c.idleRanking request.capability ++ c.activeRanking.map Victim.holding).take n =
        before ++ [last] ∧
      (Resource.pooled before).covers (request.shortfall available) = false := by
    apply Resource.exists_last hcovers hbefore
    rintro rfl
    simp [PreemptionPlan.first, PreemptionPlan.isEmpty] at hsome
  rw [hsplit] at hperm hnames
  generalize PreemptionPlan.first n _ _ = plan at *
  have hlast : last ∈ plan.taken (Ledger.empty.run ops) :=
    hperm.mem_iff.mpr (List.mem_append_right _ List.mem_cons_self)
  have herase : ((plan.taken (Ledger.empty.run ops)).erase last).Perm before := by
    have hrest := (hperm.trans (List.perm_append_singleton last before)).erase last
    rwa [List.erase_cons_head] at hrest
  rw [← Resource.pooled_perm herase] at hshort
  refine ⟨last, hlast, ?_, fun hsuperfluous => ?_, fun h hsuperfluous p hp => ?_,
    fun hsame h hsuperfluous => ?_⟩
  · rw [hnames, List.map_append, List.map_singleton, List.getLast?_concat]
  · rw [hsuperfluous.2] at hshort
    cases hshort
  · exact Resource.amount_lt_of_covers_erase hsuperfluous.1 hlast hsuperfluous.2 hp
  · obtain ⟨p, hp⟩ := Resource.not_covers_iff_amount.mp hshort
    have hlt := Resource.amount_lt_of_covers_erase hsuperfluous.1 hlast hsuperfluous.2 hp
    rw [hsame h hsuperfluous.1] at hlt
    exact Nat.lt_irrefl _ hlt

/-- Of the two it is the large container that is named last and needed. -/
theorem only_smaller_superfluous_uneven :
    ∃ plan, planWithin MatcherKind.alwaysMatch.matcher (Ledger.empty.run Uneven.operations)
        (Uneven.request 3 1 4096) .zero = .ok plan ∧ plan.isEmpty = false ∧
      ∃ last ∈ plan.taken (Ledger.empty.run Uneven.operations),
        last.container.id = ⟨"c_2"⟩ ∧
        ¬ plan.Superfluous (Ledger.empty.run Uneven.operations)
          ((Uneven.request 3 1 4096).shortfall .zero) last := by
  obtain ⟨last, hlast, hname, hneeded, -, -⟩ := only_smaller_superfluous Uneven.operations
    .alwaysMatch (Uneven.request 3 1 4096) .zero Uneven.plan rfl
  exact ⟨_, Uneven.plan, rfl, last, hlast, (Option.some.inj hname).symm, hneeded⟩

end TaskFleet
