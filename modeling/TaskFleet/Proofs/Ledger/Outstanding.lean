import TaskFleet.Proofs.Reuse

/-!
# The order in which requests are served

The more important request is served first, and of two equally important ones the older.
No two requests have one cookie, so this leaves no choice: the waiting requests of a ledger
are one list, and two ledgers in which the same requests wait have the same list
(`outstanding_congr`).
-/

namespace TaskFleet

/-- `a` is served before `b`: it is more important, or it is as important and older. -/
def ServedFirst (a b : Cookie × TaskRequest) : Prop :=
  a.2.priority.val < b.2.priority.val ∨ a.2.priority = b.2.priority ∧ a.1.val < b.1.val

namespace Ledger

variable {l l' : Ledger} {a b c : Cookie × TaskRequest}

/-! ## The order -/

theorem priority_eq_iff {p q : Priority} : p = q ↔ p.val = q.val := by
  cases p
  cases q
  simp

theorem servedBefore_trans (hab : servedBefore a b = true) (hbc : servedBefore b c = true) :
    servedBefore a c = true := by
  simp only [servedBefore, Bool.or_eq_true, Bool.and_eq_true, decide_eq_true_eq,
    priority_eq_iff, UInt32.lt_iff_toNat_lt, UInt64.le_iff_toNat_le, ← UInt32.toNat_inj] at *
  omega

theorem servedBefore_total (a b : Cookie × TaskRequest) :
    (servedBefore a b || servedBefore b a) = true := by
  simp only [servedBefore, Bool.or_eq_true, Bool.and_eq_true, decide_eq_true_eq,
    priority_eq_iff, UInt32.lt_iff_toNat_lt, UInt64.le_iff_toNat_le, ← UInt32.toNat_inj]
  omega

/-- Of two requests under different cookies one is served first. -/
theorem servedFirst_of_servedBefore (h : servedBefore a b = true) (hne : a.1 ≠ b.1) :
    ServedFirst a b := by
  simp only [servedBefore, Bool.or_eq_true, Bool.and_eq_true, decide_eq_true_eq] at h
  refine h.imp_right fun ⟨hpriority, hcookie⟩ => ⟨hpriority, ?_⟩
  exact UInt64.lt_of_le_of_ne hcookie fun heq => hne (Cookie.eq_of_val heq)

theorem not_servedFirst_of_servedFirst (hab : ServedFirst a b) : ¬ ServedFirst b a := by
  simp only [ServedFirst, priority_eq_iff, UInt32.lt_iff_toNat_lt, UInt64.lt_iff_toNat_lt,
    ← UInt32.toNat_inj] at *
  omega

/-! ## The waiting requests -/

/-- No two rows of the waiting requests have one cookie. -/
theorem nodup_cookies (l : Ledger) : (l.outstanding.map Prod.fst).Nodup := by
  have hperm := (List.mergeSort_perm ((l.entries.rows.filter fun row =>
    row.2.phase.isOutstanding).map fun row => (row.1, row.2.request)) servedBefore).map Prod.fst
  refine hperm.nodup_iff.mpr ?_
  rw [List.map_map]
  exact l.entries.nodup_keys.sublist (List.filter_sublist.map _)

/-- Every waiting request is served before those that come after it. -/
theorem pairwise_outstanding (l : Ledger) : l.outstanding.Pairwise ServedFirst := by
  have hsorted : l.outstanding.Pairwise fun a b => servedBefore a b = true := by
    apply List.pairwise_mergeSort
    · intro a b c
      exact servedBefore_trans
    · exact servedBefore_total
  refine hsorted.imp₂ (fun a b => servedFirst_of_servedBefore) ?_
  exact List.pairwise_map.mp l.nodup_cookies

/-- Where the same requests wait, they are served in the same order. -/
theorem outstanding_congr (h : ∀ row, row ∈ l.outstanding ↔ row ∈ l'.outstanding) :
    l.outstanding = l'.outstanding := by
  have hnodup : ∀ l : Ledger, l.outstanding.Nodup := fun l =>
    (List.pairwise_map.mp l.nodup_cookies).imp fun hne heq => hne (congrArg Prod.fst heq)
  have hperm : l.outstanding.Perm l'.outstanding :=
    (List.perm_ext_iff_of_nodup (hnodup l) (hnodup l')).mpr h
  refine hperm.eq_of_pairwise (fun a b _ _ hab hba => ?_) l.pairwise_outstanding
    l'.pairwise_outstanding
  exact absurd hba (not_servedFirst_of_servedFirst hab)

end Ledger

end TaskFleet
