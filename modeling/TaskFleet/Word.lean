/-!
# Clipping at the bounds of a machine word

Allotments and counters are 64- and 32-bit words.  Sums of them are taken in the
natural numbers and clipped at the largest word, so a sum that does not fit reads
as the maximum.  The lemmas say what clipping does to the natural number a word
stands for, which is all that later arguments need.
-/

namespace TaskFleet

/-- The largest 64-bit word. -/
def maxWord64 : Nat := UInt64.size - 1

/-- The largest 32-bit word. -/
def maxWord32 : Nat := UInt32.size - 1

/-- The 64-bit word nearest to `n`. -/
def clip64 (n : Nat) : UInt64 :=
  UInt64.ofNat (min n maxWord64)

/-- The 32-bit word nearest to `n`. -/
def clip32 (n : Nat) : UInt32 :=
  UInt32.ofNat (min n maxWord32)

@[simp] theorem toNat_clip64 (n : Nat) : (clip64 n).toNat = min n maxWord64 := by
  simp only [clip64, UInt64.toNat_ofNat', maxWord64, UInt64.size]
  omega

@[simp] theorem toNat_clip32 (n : Nat) : (clip32 n).toNat = min n maxWord32 := by
  simp only [clip32, UInt32.toNat_ofNat', maxWord32, UInt32.size]
  omega

theorem toNat_le_maxWord64 (w : UInt64) : w.toNat ≤ maxWord64 := by
  have := w.toNat_lt
  simp only [maxWord64, UInt64.size]
  omega

theorem toNat_le_maxWord32 (w : UInt32) : w.toNat ≤ maxWord32 := by
  have := w.toNat_lt
  simp only [maxWord32, UInt32.size]
  omega

/-- A word is its own clipping. -/
@[simp] theorem clip64_toNat (w : UInt64) : clip64 w.toNat = w := by
  apply UInt64.toNat_inj.mp
  have := toNat_le_maxWord64 w
  simp only [toNat_clip64]
  omega

/-- A word is its own clipping. -/
@[simp] theorem clip32_toNat (w : UInt32) : clip32 w.toNat = w := by
  apply UInt32.toNat_inj.mp
  have := toNat_le_maxWord32 w
  simp only [toNat_clip32]
  omega

end TaskFleet
