import TaskFleet.Resource

/-!
# Allotments counted exactly

An allotment has two parts, and each is a word.  Here a part is read as the natural number
that it stands for (`Resource.amount`), and lists of allotments are counted without a bound
(`Resource.sum`).  The operations on words are these numbers clipped: a clipped sum is never
more than the exact one and is the exact one as long as it fits, and a difference is exact.

So an argument about a budget is an argument about two natural numbers, once for each part.
-/

namespace TaskFleet.Resource

/-- A part of an allotment. -/
inductive Part where
  | memory
  | cores
deriving DecidableEq, Repr

/-- The largest number that a part can hold. -/
def Part.bound : Part → Nat
  | memory => maxWord64
  | cores => maxWord32

/-- The number that a part of an allotment stands for. -/
def amount (r : Resource) : Part → Nat
  | .memory => r.memoryMb.toNat
  | .cores => r.vcores.toNat

/-- A part of several allotments taken together, however much that is. -/
def sum (p : Part) : List Resource → Nat
  | [] => 0
  | r :: rs => r.amount p + sum p rs

variable {r other : Resource} {p : Part}

theorem amount_le_bound (r : Resource) (p : Part) : r.amount p ≤ p.bound := by
  cases p with
  | memory => exact toNat_le_maxWord64 r.memoryMb
  | cores => exact toNat_le_maxWord32 r.vcores

/-- An allotment is its two amounts. -/
theorem eq_of_amount (h : ∀ p, r.amount p = other.amount p) : r = other :=
  Resource.ext (UInt64.toNat_inj.mp (h .memory)) (UInt32.toNat_inj.mp (h .cores))

@[simp] theorem amount_zero (p : Part) : zero.amount p = 0 := by
  cases p <;> rfl

theorem amount_add (r other : Resource) (p : Part) :
    (r + other).amount p = min (r.amount p + other.amount p) p.bound := by
  cases p with
  | memory => simp [amount, Part.bound]
  | cores => simp [amount, Part.bound]

/-- Nothing is clipped off a difference. -/
@[simp] theorem amount_sub (r other : Resource) (p : Part) :
    (r - other).amount p = r.amount p - other.amount p := by
  have hbound := r.amount_le_bound p
  cases p with
  | memory =>
      simp only [amount, Part.bound] at hbound
      simp only [amount, memoryMb_sub, toNat_clip64]
      omega
  | cores =>
      simp only [amount, Part.bound] at hbound
      simp only [amount, vcores_sub, toNat_clip32]
      omega

theorem toNat_slackOver_memory (r required : Resource) :
    (r.slackOver required).1.toNat = r.amount .memory - required.amount .memory :=
  amount_sub r required .memory

theorem toNat_slackOver_cores (r required : Resource) :
    (r.slackOver required).2.toNat = r.amount .cores - required.amount .cores :=
  amount_sub r required .cores

theorem covers_iff_amount :
    r.covers other = true ↔ ∀ p, other.amount p ≤ r.amount p := by
  rw [covers_iff, UInt64.le_iff_toNat_le, UInt32.le_iff_toNat_le]
  constructor
  · rintro ⟨hmemory, hcores⟩ p
    cases p with
    | memory => exact hmemory
    | cores => exact hcores
  · intro h
    exact ⟨h .memory, h .cores⟩

theorem not_covers_iff_amount :
    r.covers other = false ↔ ∃ p, r.amount p < other.amount p := by
  rw [← Bool.not_eq_true, covers_iff_amount]
  simp

theorem isZero_iff_amount : r.isZero = true ↔ ∀ p, r.amount p = 0 := by
  rw [isZero, Bool.and_eq_true, beq_iff_eq, beq_iff_eq]
  constructor
  · rintro ⟨hmemory, hcores⟩ p
    cases p with
    | memory => exact congrArg UInt64.toNat hmemory
    | cores => exact congrArg UInt32.toNat hcores
  · intro h
    exact ⟨UInt64.toNat_inj.mp (h .memory), UInt32.toNat_inj.mp (h .cores)⟩

/-! ## Sums and differences -/

/-- What is missing is made up for exactly when there is enough in all. -/
theorem covers_sub (a b c : Resource) : b.covers (c - a) = (a + b).covers c := by
  rw [Bool.eq_iff_iff, covers_iff_amount, covers_iff_amount]
  apply forall_congr'
  intro p
  -- what is clipped off the sum lies above every part of `c`
  have hbound := c.amount_le_bound p
  rw [amount_sub, amount_add]
  omega

/-- Nothing is missing exactly when what there is covers it. -/
theorem isZero_sub (a c : Resource) : (c - a).isZero = a.covers c := by
  rw [Bool.eq_iff_iff, isZero_iff_amount, covers_iff_amount]
  apply forall_congr'
  intro p
  rw [amount_sub]
  omega

theorem add_zero_clipped (a : Resource) : a + zero = a := by
  apply eq_of_amount
  intro p
  have hbound := a.amount_le_bound p
  rw [amount_add, amount_zero]
  omega

theorem add_assoc_clipped (a b c : Resource) : a + b + c = a + (b + c) := by
  apply eq_of_amount
  intro p
  rw [amount_add, amount_add, amount_add, amount_add]
  omega

/-! ## Sums -/

@[simp] theorem sum_nil (p : Part) : sum p [] = 0 := rfl

@[simp] theorem sum_cons (p : Part) (r : Resource) (rs : List Resource) :
    sum p (r :: rs) = r.amount p + sum p rs := rfl

@[simp] theorem sum_append (p : Part) (rs rs' : List Resource) :
    sum p (rs ++ rs') = sum p rs + sum p rs' := by
  induction rs with
  | nil => simp
  | cons r rs ih =>
      rw [List.cons_append, sum_cons, sum_cons, ih, Nat.add_assoc]

theorem sum_perm {rs rs' : List Resource} (h : rs.Perm rs') (p : Part) :
    sum p rs = sum p rs' := by
  induction h with
  | nil => rfl
  | cons r _ ih => rw [sum_cons, sum_cons, ih]
  | swap r r' rs =>
      rw [sum_cons, sum_cons, sum_cons, sum_cons]
      omega
  | trans _ _ ih ih' => exact ih.trans ih'

theorem sum_le_of_sublist {rs rs' : List Resource} (h : rs.Sublist rs') (p : Part) :
    sum p rs ≤ sum p rs' := by
  induction h with
  | slnil => exact Nat.le_refl _
  | cons r _ ih =>
      rw [sum_cons]
      omega
  | cons_cons r _ ih =>
      rw [sum_cons, sum_cons]
      omega

/-- Adding allotments one after another clips their exact sum. -/
theorem amount_foldl_add (rs : List Resource) (r : Resource) (p : Part) :
    (rs.foldl (· + ·) r).amount p = min (r.amount p + sum p rs) p.bound := by
  induction rs generalizing r with
  | nil =>
      have hbound := r.amount_le_bound p
      simp only [List.foldl_nil, sum_nil]
      omega
  | cons first rest ih =>
      rw [List.foldl_cons, ih, amount_add, sum_cons]
      omega

theorem amount_total (rs : List Resource) (p : Part) :
    (total rs).amount p = min (sum p rs) p.bound := by
  rw [total, amount_foldl_add, amount_zero, Nat.zero_add]

/-! ## Totals -/

/-- The order in which allotments are added makes no difference, clipped or not. -/
theorem total_perm {rs rs' : List Resource} (h : rs.Perm rs') : total rs = total rs' := by
  refine eq_of_amount fun p => ?_
  rw [amount_total, amount_total, sum_perm h]

/-- Totals may be taken apart and added again. -/
theorem total_append (rs rs' : List Resource) : total (rs ++ rs') = total rs + total rs' := by
  refine eq_of_amount fun p => ?_
  rw [amount_add, amount_total, amount_total, amount_total, sum_append]
  omega

/-- `r` is what some allotments come to, clipped where that is too much for a word, in
whatever order they are added. -/
structure SumsUp (r : Resource) (rs : List Resource) : Prop where
  clipped : ∀ p, r.amount p = min (sum p rs) p.bound
  anyOrder : ∀ rs', rs'.Perm rs → total rs' = r

theorem sumsUp_total (rs : List Resource) : (total rs).SumsUp rs where
  clipped := amount_total rs
  anyOrder _ h := total_perm h

theorem SumsUp.perm {rs rs' : List Resource} (hsum : r.SumsUp rs) (h : rs.Perm rs') :
    r.SumsUp rs' where
  clipped p := (hsum.clipped p).trans (by rw [sum_perm h])
  anyOrder rs'' hrs := hsum.anyOrder rs'' (hrs.trans h.symm)

end TaskFleet.Resource
