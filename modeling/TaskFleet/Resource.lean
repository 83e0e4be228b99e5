import TaskFleet.Word

/-!
# Allotments of memory and cores

A `Resource` is what a request asks for, what a container offers and what the
cluster has left.  Comparison is component-wise (`covers`), sums are clipped at the
word bounds and differences stop at zero, so budgets can be computed without
overflow.  The lemmas give the natural number behind each component.
-/

namespace TaskFleet

/-- Memory in megabytes and virtual cores. -/
@[ext] structure Resource where
  memoryMb : UInt64
  vcores : UInt32
deriving DecidableEq, Repr, Inhabited

namespace Resource

/-- The empty allotment. -/
def zero : Resource := ⟨0, 0⟩

/-- Nothing is left of either component. -/
def isZero (r : Resource) : Bool :=
  r.memoryMb == 0 && r.vcores == 0

/-- Every component is at least the one of `other`. -/
def covers (r other : Resource) : Bool :=
  decide (other.memoryMb ≤ r.memoryMb) && decide (other.vcores ≤ r.vcores)

/-- The component-wise sum, clipped at the word bounds. -/
def add (r other : Resource) : Resource where
  memoryMb := clip64 (r.memoryMb.toNat + other.memoryMb.toNat)
  vcores := clip32 (r.vcores.toNat + other.vcores.toNat)

/-- The component-wise difference, stopping at zero. -/
def sub (r other : Resource) : Resource where
  memoryMb := clip64 (r.memoryMb.toNat - other.memoryMb.toNat)
  vcores := clip32 (r.vcores.toNat - other.vcores.toNat)

instance : Add Resource := ⟨add⟩

instance : Sub Resource := ⟨sub⟩

/-- How much larger `r` is than `required`: memory first, then cores.  A component
in which `r` is the smaller one has no slack. -/
def slackOver (r required : Resource) : UInt64 × UInt32 :=
  let spare := r - required
  (spare.memoryMb, spare.vcores)

/-- The clipped sum of a list of allotments. -/
def total (rs : List Resource) : Resource :=
  rs.foldl (· + ·) zero

/-- An allotment as people read it. -/
def display (r : Resource) : String :=
  s!"<memory:{r.memoryMb.toNat}MB, vcores:{r.vcores.toNat}>"

/-! ## What the operations do to the components -/

theorem covers_iff {r other : Resource} :
    r.covers other = true ↔ other.memoryMb ≤ r.memoryMb ∧ other.vcores ≤ r.vcores := by
  simp [covers]

@[simp] theorem memoryMb_add (r other : Resource) :
    (r + other).memoryMb = clip64 (r.memoryMb.toNat + other.memoryMb.toNat) := rfl

@[simp] theorem vcores_add (r other : Resource) :
    (r + other).vcores = clip32 (r.vcores.toNat + other.vcores.toNat) := rfl

@[simp] theorem memoryMb_sub (r other : Resource) :
    (r - other).memoryMb = clip64 (r.memoryMb.toNat - other.memoryMb.toNat) := rfl

@[simp] theorem vcores_sub (r other : Resource) :
    (r - other).vcores = clip32 (r.vcores.toNat - other.vcores.toNat) := rfl

end Resource

end TaskFleet
