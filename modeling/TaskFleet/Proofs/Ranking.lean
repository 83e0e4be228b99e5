import TaskFleet.Proofs.Fit
import TaskFleet.Proofs.Ledger.Outstanding
import TaskFleet.Proofs.Preemption

/-!
# The order in which containers are taken back

A ledger and a request determine which held containers could be taken back and in which order
(`Ledger.Ranking`): the idle ones, the tightest fit first, and the ones that run something less
important, those that are not made for it first, then the least important, then the latest
(`Ledger.TakenFirst`).  Both orders end with the name, and names are distinct, so there is one
such order only (`Ledger.Ranking.unique`), whatever the sort does with equal elements.

The sort does not see the ledger.  It compares notes that were taken of each running container
(`Victim.Notes`), and these say what the ledger says.
-/

namespace TaskFleet

/-! ## Which of two running containers is taken first -/

/-- `a` is taken from the request that it runs before `b` is from its own: only `b` is as good
as made for what it runs; or `a` runs what is less important; or it was assigned later; or, all
of this being equal, the bytes of its name come first. -/
def Ledger.TakenFirst (m : Matcher) (l : Ledger) (a b : Holding) : Prop :=
  ∃ r s, l.Runs a r ∧ l.Runs b s ∧
    (m.suits a r = false ∧ m.suits b s = true ∨
    m.suits a r = m.suits b s ∧
      (s.priority.val < r.priority.val ∨
      r.priority = s.priority ∧
        (b.assignedAt.ms < a.assignedAt.ms ∨
        a.assignedAt = b.assignedAt ∧ a.container.id.bytes < b.container.id.bytes)))

variable {m : Matcher} {l : Ledger} {request : TaskRequest}

theorem Ledger.Runs.unique {h : Holding} {r s : TaskRequest} (hr : l.Runs h r)
    (hs : l.Runs h s) : r = s := by
  obtain ⟨cookie, hactive, hlookup⟩ := hr
  obtain ⟨cookie', hactive', hlookup'⟩ := hs
  rw [hactive] at hactive'
  cases hactive'
  rw [hlookup] at hlookup'
  cases hlookup'
  rfl

/-- No two containers are taken before each other. -/
theorem Ledger.not_takenFirst_of_takenFirst {a b : Holding} (hab : l.TakenFirst m a b) :
    ¬ l.TakenFirst m b a := by
  rintro ⟨s', r', hs', hr', hba⟩
  obtain ⟨r, s, hr, hs, hab⟩ := hab
  cases hr.unique hr'
  cases hs.unique hs'
  have hnames : a.container.id.bytes < b.container.id.bytes →
      ¬ b.container.id.bytes < a.container.id.bytes := List.lt_asymm
  rcases hab with hab | ⟨hexact, hab | ⟨hpriority, hab | ⟨hassigned, hab⟩⟩⟩ <;> grind

namespace Victim

variable {u v w : Victim}

theorem takenBefore_iff : v.takenBefore w = true ↔
    v.exact = false ∧ w.exact = true ∨
    v.exact = w.exact ∧
      (w.priority.val < v.priority.val ∨
      v.priority = w.priority ∧
        (w.holding.assignedAt.ms < v.holding.assignedAt.ms ∨
        v.holding.assignedAt = w.holding.assignedAt ∧
          ¬ w.holding.container.id < v.holding.container.id)) := by
  unfold takenBefore
  split
  · next hexact => cases hv : v.exact <;> cases hw : w.exact <;> simp_all
  · split
    · simp_all
    · split <;> simp_all

theorem takenBefore_trans (huv : u.takenBefore v = true) (hvw : v.takenBefore w = true) :
    u.takenBefore w = true := by
  rw [takenBefore_iff] at *
  have hnames : w.holding.container.id < u.holding.container.id →
      ¬ v.holding.container.id < u.holding.container.id →
      w.holding.container.id < v.holding.container.id := by
    intro hwu hvu
    by_cases huv : u.holding.container.id < v.holding.container.id
    · exact Key.trans hwu huv
    · exact Key.total huv hvu ▸ hwu
  grind

theorem takenBefore_total (v w : Victim) : (v.takenBefore w || w.takenBefore v) = true := by
  rw [Bool.or_eq_true, takenBefore_iff, takenBefore_iff]
  have hnames : w.holding.container.id < v.holding.container.id →
      ¬ v.holding.container.id < w.holding.container.id :=
    fun hwv hvw => Key.irrefl _ (Key.trans hwv hvw)
  have hpriority : ¬ w.priority.val < v.priority.val → ¬ v.priority.val < w.priority.val →
      v.priority = w.priority := fun hwv hvw =>
    Ledger.priority_eq_iff.mpr
      (UInt32.le_antisymm (UInt32.not_lt.mp hwv) (UInt32.not_lt.mp hvw))
  have hassigned : ¬ w.holding.assignedAt.ms < v.holding.assignedAt.ms →
      ¬ v.holding.assignedAt.ms < w.holding.assignedAt.ms →
      v.holding.assignedAt = w.holding.assignedAt := fun hwv hvw =>
    Instant.ext (Nat.le_antisymm (Nat.not_lt.mp hwv) (Nat.not_lt.mp hvw))
  grind

/-- Of two containers with different names, the one that the notes put first is taken first. -/
theorem takenFirst_of_takenBefore (hv : v.Notes m l) (hw : w.Notes m l)
    (hne : v.holding.container.id ≠ w.holding.container.id)
    (hvw : v.takenBefore w = true) : l.TakenFirst m v.holding w.holding := by
  obtain ⟨r, hr, hpriority, hexact⟩ := hv
  obtain ⟨s, hs, hpriority', hexact'⟩ := hw
  have hnames : ¬ w.holding.container.id < v.holding.container.id →
      v.holding.container.id.bytes < w.holding.container.id.bytes := by
    intro hwv
    rw [← ContainerId.lt_iff_bytes]
    exact Classical.byContradiction fun hvw => hne (Key.total hvw hwv)
  rw [takenBefore_iff, hpriority, hpriority', hexact, hexact'] at hvw
  refine ⟨r, s, hr, hs, ?_⟩
  rcases hvw with hvw | ⟨hexact, hvw | ⟨hpriority, hvw | ⟨hassigned, hvw⟩⟩⟩
  · exact .inl hvw
  · exact .inr ⟨hexact, .inl hvw⟩
  · exact .inr ⟨hexact, .inr ⟨hpriority, .inl hvw⟩⟩
  · exact .inr ⟨hexact, .inr ⟨hpriority, .inr ⟨hassigned, hnames hvw⟩⟩⟩

end Victim

/-! ## The ranking -/

namespace Ledger

variable {spare running spare' running' : List Holding}

/-- The order in which containers could be taken back for a request: idle ones and running
ones that may run the request, each in their order. -/
structure Ranking (m : Matcher) (l : Ledger) (request : TaskRequest)
    (spare running : List Holding) : Prop where
  idle : spare.Perm (l.holdings.filter fun h => h.isIdle && m.serves h request)
  tightest : spare.Pairwise (Holding.Tighter request.capability)
  lesser : running.Perm (l.holdings.filter fun h => l.runsLesser request h && m.serves h request)
  leastFirst : running.Pairwise (l.TakenFirst m)

/-- There is one such order. -/
theorem Ranking.unique (hranking : l.Ranking m request spare running)
    (hother : l.Ranking m request spare' running') : spare' = spare ∧ running' = running := by
  constructor
  · refine (hother.idle.trans hranking.idle.symm).eq_of_pairwise ?_ hother.tightest
      hranking.tightest
    intro a b _ _ hab hba
    exact absurd hba (Holding.not_tighter_of_tighter hab)
  · refine (hother.lesser.trans hranking.lesser.symm).eq_of_pairwise ?_ hother.leastFirst
      hranking.leastFirst
    intro a b _ _ hab hba
    exact absurd hba (not_takenFirst_of_takenFirst hab)

/-- The containers that pass a test have different names. -/
theorem Keyed.nodup_filter (hl : l.Keyed) (p : Holding → Bool) :
    (l.holdings.filter p).Pairwise fun a b => a.container.id ≠ b.container.id :=
  (List.pairwise_map.mp hl.nodup_ids).sublist List.filter_sublist

theorem pairwise_idleRanking (c : Candidates) (capability : Resource)
    (hnames : c.idle.Pairwise fun a b => a.container.id ≠ b.container.id) :
    (c.idleRanking capability).Pairwise (Holding.Tighter capability) := by
  have hsorted : (c.idleRanking capability).Pairwise fun a b =>
      (!(Fit.of capability b).better (Fit.of capability a)) = true := by
    apply List.pairwise_mergeSort
    · intro u v w huv hvw
      rw [Bool.not_eq_true'] at *
      exact Fit.not_better_trans huv hvw
    · intro u v
      cases huv : (Fit.of capability u).better (Fit.of capability v) with
      | false => simp
      | true =>
          have hvu := Holding.not_tighter_of_tighter (Holding.tighter_iff.mpr huv)
          rw [Holding.tighter_iff] at hvu
          simp [hvu]
  have hdistinct : (c.idleRanking capability).Pairwise fun a b =>
      a.container.id ≠ b.container.id :=
    ((List.mergeSort_perm ..).pairwise_iff fun h => h.symm).mpr hnames
  refine hsorted.imp₂ (fun a b hba hne => ?_) hdistinct
  rw [Bool.not_eq_true'] at hba
  exact Holding.tighter_of_not_better hne hba

theorem pairwise_activeRanking (c : Candidates) (hnotes : ∀ v ∈ c.active, v.Notes m l)
    (hnames : (c.active.map Victim.holding).Pairwise fun a b =>
      a.container.id ≠ b.container.id) :
    (c.activeRanking.map Victim.holding).Pairwise (l.TakenFirst m) := by
  rw [List.pairwise_map] at hnames
  have hperm : c.activeRanking.Perm c.active := List.mergeSort_perm ..
  have hsorted : c.activeRanking.Pairwise fun v w => v.takenBefore w = true := by
    apply List.pairwise_mergeSort
    · intro u v w
      exact Victim.takenBefore_trans
    · exact Victim.takenBefore_total
  have hdistinct : c.activeRanking.Pairwise fun v w =>
      v.holding.container.id ≠ w.holding.container.id :=
    (hperm.pairwise_iff fun h => h.symm).mpr hnames
  rw [List.pairwise_map]
  refine (hsorted.and hdistinct).imp_of_mem fun {v w} hv hw h => ?_
  apply Victim.takenFirst_of_takenBefore _ _ h.2 h.1
  · exact hnotes v (hperm.mem_iff.mp hv)
  · exact hnotes w (hperm.mem_iff.mp hw)

/-- The candidates, once sorted, are in that order. -/
theorem Keyed.ranking (hl : l.Keyed) (hm : m.Answers) (request : TaskRequest) :
    ∃ c, Candidates.collect m l request l.holdings = .ok c ∧
      l.Ranking m request (c.idleRanking request.capability)
        (c.activeRanking.map Victim.holding) := by
  obtain ⟨c, hcollect, hidle, hactive, hnotes⟩ :=
    Candidates.collect_spec hm l request l.holdings
  refine ⟨c, hcollect, ?_, ?_, ?_, ?_⟩
  · exact hidle ▸ List.mergeSort_perm ..
  · exact pairwise_idleRanking c _ (hidle ▸ hl.nodup_filter _)
  · exact hactive ▸ (List.mergeSort_perm ..).map _
  · exact pairwise_activeRanking c hnotes (hactive ▸ hl.nodup_filter _)

end Ledger

end TaskFleet
