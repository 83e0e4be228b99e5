/-!
# Progress of the application

Progress is a single-precision fraction, kept as its bit pattern: one sign bit, eight
exponent bits and twenty-three fraction bits.  Patterns of one sign are ordered like the
numbers they stand for, so a progress is brought into the unit interval without
arithmetic.
-/

namespace TaskFleet

/-- A single-precision number by its bit pattern. -/
structure Progress where
  bits : UInt32
deriving DecidableEq, Repr, Inhabited

namespace Progress

/-- No progress. -/
def zero : Progress := ⟨0⟩

/-- All is done. -/
def one : Progress := ⟨0x3F800000⟩

/-- Zero with a minus sign. -/
def minusZero : Progress := ⟨0x80000000⟩

/-- The pattern stands for a number: its exponent bits are not all set. -/
def isFinite (p : Progress) : Bool :=
  decide ((p.bits.toNat >>> 23) % 256 ≠ 255)

/-- The nearest progress from zero to one.  Minus zero lies in the interval. -/
def clamped (p : Progress) : Progress :=
  if p = minusZero then p
  else if minusZero.bits < p.bits then zero
  else if one.bits < p.bits then one
  else p

end Progress

end TaskFleet
