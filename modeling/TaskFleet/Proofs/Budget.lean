import TaskFleet.Proofs.Fit
import TaskFleet.Proofs.Resource

/-!
# Budgets without exact sums

A plan is told what is available and asks whether what it frees makes up for the rest.  It never
computes what there is in all, and could not: a sum of allotments is clipped where it does not
fit into a word, and a difference stops at zero.  The two ways of being inexact agree with each
other.  What is clipped off a sum lies above every capability that the sum is compared with, and
a difference that stops at zero asks for nothing, so to free the shortfall is to cover the
capability with what is available and what is freed (`Resource.covers_sub`).  So the scan of a
plan may be read either way (`takeUntilCovered_sub`), and the plan names the containers that it
would name if it counted everything (`named_planWithin`).

A clipped sum is the exact one, clipped once, whatever was clipped on the way.  So it does not
matter in which order allotments are added or how the additions are bracketed
(`Resource.Summation`).

A slack is a difference, and of an allotment that covers what is required nothing is cut off.
Among such allotments slack is a faithful key (`Resource.SlackTells`).
-/

namespace TaskFleet

/-! ## What is missing, and what there is in all -/

/-- To take containers until the shortfall is freed is to take them until there is enough in
all: the same ones are taken, and what is available is in the second account only. -/
theorem takeUntilCovered_sub (capability available freed : Resource) (cs : List Container) :
    takeUntilCovered capability (available + freed) cs =
      ((takeUntilCovered (capability - available) freed cs).1,
        available + (takeUntilCovered (capability - available) freed cs).2) := by
  induction cs generalizing freed with
  | nil => rfl
  | cons c cs ih =>
      rw [takeUntilCovered, takeUntilCovered, Resource.covers_sub]
      cases hcovered : (available + freed).covers capability with
      | true => rfl
      | false =>
          -- the next container is added to what was freed in one account, to all in the other
          rw [Resource.add_assoc_clipped, ih]
          rfl

/-- The containers that a plan names, idle ones and running ones. -/
def PreemptionPlan.named (plan : PreemptionPlan) : List ContainerId × List ContainerId :=
  (plan.releaseIdle, plan.preemptActive)

/-- The containers to take back, found by counting what is available and what is freed together
until they cover the capability. -/
def planInAll (m : Matcher) (l : Ledger) (pending : TaskRequest) (available : Resource) :
    Except MatchError (List ContainerId × List ContainerId) :=
  if available.covers pending.capability then .ok ([], [])
  else do
    let candidates ← Candidates.collect m l pending l.holdings
    let idle := (candidates.idleRanking pending.capability).map Holding.container
    let active := candidates.activeRanking.map fun v => v.holding.container
    let (releaseIdle, inAll) := takeUntilCovered pending.capability available idle
    let (preemptActive, inAll) := takeUntilCovered pending.capability inAll active
    return if inAll.covers pending.capability then (releaseIdle, preemptActive) else ([], [])

/-- A plan that looks at the shortfall only is the plan that counts everything. -/
theorem named_planWithin (m : Matcher) (l : Ledger) (request : TaskRequest)
    (available : Resource) :
    (planWithin m l request available).map PreemptionPlan.named =
      planInAll m l request available := by
  rw [planWithin, planInAll, Resource.isZero_sub]
  cases hcovered : available.covers request.capability with
  | true => rfl
  | false =>
      cases hcollect : Candidates.collect m l request l.holdings with
      | error e => rfl
      | ok candidates =>
          have hidle := takeUntilCovered_sub request.capability available .zero
            ((candidates.idleRanking request.capability).map Holding.container)
          rw [Resource.add_zero_clipped] at hidle
          simp only [bind, Except.bind, pure, Except.pure, Except.map, Bool.false_eq_true,
            if_false, hidle, takeUntilCovered_sub, Resource.covers_sub]
          split
          · rfl
          · rfl

/-! ## Sums in any order -/

/-- Allotments added two at a time, in some order and bracketed in some way. -/
inductive Resource.Summation where
  | nothing
  | one (r : Resource)
  | both (first second : Summation)

namespace Resource.Summation

/-- What the additions come to, each of them clipped. -/
def value : Summation → Resource
  | nothing => .zero
  | one r => r
  | both first second => first.value + second.value

/-- The allotments that are added. -/
def summands : Summation → List Resource
  | nothing => []
  | one r => [r]
  | both first second => first.summands ++ second.summands

/-- What is clipped on the way makes no difference. -/
theorem amount_value (s : Summation) (p : Part) :
    s.value.amount p = min (sum p s.summands) p.bound := by
  induction s with
  | nothing => rw [value, summands, amount_zero, sum_nil, Nat.zero_min]
  | one r =>
      have hbound := r.amount_le_bound p
      rw [value, summands, sum_cons, sum_nil]
      omega
  | both first second ihfirst ihsecond =>
      rw [value, summands, amount_add, ihfirst, ihsecond, sum_append]
      omega

theorem sumsUp_value (s : Summation) : s.value.SumsUp s.summands where
  clipped := s.amount_value
  anyOrder rs h := by
    apply eq_of_amount
    intro p
    rw [amount_total, s.amount_value, sum_perm h]

/-- The same allotments come to the same, however they are added. -/
theorem value_eq_of_perm {s s' : Summation} (h : s.summands.Perm s'.summands) :
    s.value = s'.value :=
  calc s.value
      = total s'.summands := (s.sumsUp_value.anyOrder _ h.symm).symm
    _ = s'.value := s'.sumsUp_value.anyOrder _ (List.Perm.refl _)

end Resource.Summation

/-! ## Slack as a key -/

namespace Resource

variable {a b required : Resource}

/-- `a` is below `b`: it has less memory, or as much memory and fewer cores. -/
def Below (a b : Resource) : Prop :=
  Prod.Lex (· < ·) (· < ·) (a.memoryMb, a.vcores) (b.memoryMb, b.vcores)

theorem below_iff_amount : a.Below b ↔
    a.amount .memory < b.amount .memory ∨
      a.amount .memory = b.amount .memory ∧ a.amount .cores < b.amount .cores := by
  rw [Below, Prod.lex_def, UInt64.lt_iff_toNat_lt, ← UInt64.toNat_inj, UInt32.lt_iff_toNat_lt]
  rfl

/-- What the slack over what is required tells of two allotments: whether they are the same,
which of them is below the other, and so which one fits better. -/
structure SlackTells (required a b : Resource) : Prop where
  injective : a.slackOver required = b.slackOver required → a = b
  monotone : a.covers b = true →
    Prod.Lex (· < ·) (· ≤ ·) (b.slackOver required) (a.slackOver required)
  below : Prod.Lex (· < ·) (· < ·) (a.slackOver required) (b.slackOver required) ↔ a.Below b
  better : ∀ i j : ContainerId,
    Fit.better (a.slackOver required, i) (b.slackOver required, j) = true ↔
      a.Below b ∨ a = b ∧ i < j

theorem amount_eq_of_slackOver_eq (ha : a.covers required = true)
    (hb : b.covers required = true) (h : a.slackOver required = b.slackOver required)
    (p : Part) : a.amount p = b.amount p := by
  have hleast := covers_iff_amount.mp ha p
  have hleast' := covers_iff_amount.mp hb p
  have hrest : (a - required).amount p = (b - required).amount p := by
    cases p with
    | memory => exact congrArg (fun slack => slack.1.toNat) h
    | cores => exact congrArg (fun slack => slack.2.toNat) h
  rw [amount_sub, amount_sub] at hrest
  omega

/-- Slacks are ordered as the allotments are. -/
theorem slackOver_lt_iff (ha : a.covers required = true) (hb : b.covers required = true) :
    Prod.Lex (· < ·) (· < ·) (a.slackOver required) (b.slackOver required) ↔ a.Below b := by
  have hmemory := covers_iff_amount.mp ha .memory
  have hcores := covers_iff_amount.mp ha .cores
  have hmemory' := covers_iff_amount.mp hb .memory
  have hcores' := covers_iff_amount.mp hb .cores
  rw [below_iff_amount, Prod.lex_def, UInt64.lt_iff_toNat_lt, ← UInt64.toNat_inj,
    UInt32.lt_iff_toNat_lt]
  simp only [toNat_slackOver_memory, toNat_slackOver_cores]
  omega

/-- A larger allotment has no less slack. -/
theorem slackOver_le_of_covers (hab : a.covers b = true) (required : Resource) :
    Prod.Lex (· < ·) (· ≤ ·) (b.slackOver required) (a.slackOver required) := by
  have hmemory := covers_iff_amount.mp hab .memory
  have hcores := covers_iff_amount.mp hab .cores
  rw [Prod.lex_def, UInt64.lt_iff_toNat_lt, ← UInt64.toNat_inj, UInt32.le_iff_toNat_le]
  simp only [toNat_slackOver_memory, toNat_slackOver_cores]
  omega

theorem slackTells (ha : a.covers required = true) (hb : b.covers required = true) :
    SlackTells required a b := by
  have hinjective : a.slackOver required = b.slackOver required → a = b := by
    intro h
    exact eq_of_amount (amount_eq_of_slackOver_eq ha hb h)
  constructor
  · exact hinjective
  · intro hab
    exact slackOver_le_of_covers hab required
  · exact slackOver_lt_iff ha hb
  · intro i j
    -- names are compared where the slacks are the same, and then the allotments are
    rw [Fit.better_iff_lex, slackOver_lt_iff ha hb]
    refine or_congr_right (and_congr_left fun _ => ⟨hinjective, ?_⟩)
    intro hsame
    rw [hsame]

/-! ## The laws together -/

/-- Of sums that are clipped and differences that stop at zero: a sum is enough exactly when one
summand makes up for what is missing of the other, so a plan may look at the shortfall only; a
sum is the exact one, clipped, in whatever order and however bracketed it is taken; and the slack
of allotments that cover what is required tells them apart and orders them. -/
theorem clipped_budgets :
    (∀ a b c : Resource, (a + b).covers c = true ↔ b.covers (c - a) = true) ∧
    (∀ (m : Matcher) (l : Ledger) (request : TaskRequest) (available : Resource),
      (planWithin m l request available).map PreemptionPlan.named =
        planInAll m l request available) ∧
    (∀ rs : List Resource, (total rs).SumsUp rs) ∧
    (∀ s s' : Summation, s.value.SumsUp s.summands ∧
      (s.summands.Perm s'.summands → s.value = s'.value)) ∧
    ∀ required a b : Resource, a.covers required = true → b.covers required = true →
      SlackTells required a b := by
  refine ⟨?_, named_planWithin, sumsUp_total, ?_, ?_⟩
  · intro a b c
    rw [covers_sub]
  · intro s s'
    exact ⟨s.sumsUp_value, Summation.value_eq_of_perm⟩
  · intro required a b ha hb
    exact slackTells ha hb

/-- Three allotments that no word holds the sum of, added in two ways; and two that fill a word,
of which the one with fewer cores is below the other and fits better. -/
theorem clipped_budgets_full :
    let full (cores : UInt32) : Resource := ⟨18446744073709551615, cores⟩
    let small : Resource := ⟨1024, 1⟩
    let s : Summation := .both (.one (full 4)) (.both (.one small) (.one (full 2)))
    let s' : Summation := .both (.both (.one (full 2)) (.one (full 4))) (.one small)
    s.summands.Perm s'.summands ∧ s.value = s'.value ∧ s.value = full 7 ∧
      (full 2).covers small = true ∧ (full 4).covers small = true ∧
      SlackTells small (full 2) (full 4) ∧ (full 2).Below (full 4) := by
  intro full small s s'
  obtain ⟨-, -, -, hsums, hslack⟩ := clipped_budgets
  have hperm : s.summands.Perm s'.summands := by decide
  have hleast : (full 2).covers small = true := by decide
  have hleast' : (full 4).covers small = true := by decide
  refine ⟨hperm, (hsums s s').2 hperm, by decide, hleast, hleast', ?_, ?_⟩
  · exact hslack small (full 2) (full 4) hleast hleast'
  · exact .right _ (by decide)

end Resource

end TaskFleet
