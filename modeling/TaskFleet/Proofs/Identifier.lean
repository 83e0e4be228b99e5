import Mathlib.Algebra.Group.Nat.Defs
import TaskFleet.Identifier

/-!
# Names are ordered as their bytes

Containers are sorted by name, and texts are compared character by character.  Whoever sorts
the same names by their bytes gets the same order (`ContainerId.lt_iff_bytes`), because of two
characters the smaller one has the smaller byte where they first differ.

A character is written as a first byte, which tells how many bytes follow, and then its last
digits to the base 64.  Longer characters have larger first bytes, and characters of one length
are compared like numbers with that many digits.
-/

namespace TaskFleet

/-! ## The digits of a character -/

/-- The last `k` digits of `n` to the base 64, the highest first, each marked as a byte that
follows another. -/
def following (n : Nat) : Nat → List UInt8
  | 0 => []
  | k + 1 => UInt8.ofNat (n / 64 ^ k % 64 + 128) :: following n k

theorem ofNat_lt_ofNat {a b : Nat} (hlt : a < b) (hb : b < 256) :
    UInt8.ofNat a < UInt8.ofNat b := by
  rw [UInt8.lt_iff_toNat_lt, UInt8.toNat_ofNat', UInt8.toNat_ofNat']
  omega

/-- Digits are compared like the number that they stand for. -/
theorem following_lt {n m : Nat} (k : Nat) (h : n % 64 ^ k < m % 64 ^ k) (u v : List UInt8) :
    following n k ++ u < following m k ++ v := by
  induction k with
  | zero => omega
  | succ k ih =>
      rw [following, following, List.cons_append, List.cons_append, List.cons_lt_cons_iff]
      rw [Nat.pow_succ, Nat.mod_mul, Nat.mod_mul] at h
      rcases Nat.lt_trichotomy (n / 64 ^ k % 64) (m / 64 ^ k % 64) with hlt | heq | hgt
      · left
        apply ofNat_lt_ofNat
        · omega
        · omega
      · right
        rw [heq] at h ⊢
        exact ⟨rfl, ih (by omega)⟩
      · -- a larger digit outweighs whatever comes after it
        have hrest : m % 64 ^ k < 64 ^ k := Nat.mod_lt _ (Nat.pow_pos (by omega))
        have hdigit : 64 ^ k * (m / 64 ^ k % 64 + 1) ≤ 64 ^ k * (n / 64 ^ k % 64) :=
          Nat.mul_le_mul_left _ hgt
        rw [Nat.mul_add] at hdigit
        omega

/-- How many bytes follow the first one of a character, and what marks the first one. -/
def spelling (n : Nat) : Nat × Nat :=
  if n ≤ 127 then (0, 0)
  else if n ≤ 2047 then (1, 192)
  else if n ≤ 65535 then (2, 224)
  else (3, 240)

/-- The first byte of a character. -/
def firstByte (n : Nat) : Nat :=
  n / 64 ^ (spelling n).1 + (spelling n).2

theorem spelling_cases (n : Nat) :
    (n ≤ 127 ∧ spelling n = (0, 0)) ∨ ((127 < n ∧ n ≤ 2047) ∧ spelling n = (1, 192)) ∨
      ((2047 < n ∧ n ≤ 65535) ∧ spelling n = (2, 224)) ∨ (65535 < n ∧ spelling n = (3, 240)) := by
  grind [spelling]

theorem firstByte_lt {n : Nat} (hn : n < 1114112) : firstByte n < 256 := by
  unfold firstByte
  rcases spelling_cases n with ⟨hlength, hs⟩ | ⟨hlength, hs⟩ | ⟨hlength, hs⟩ | ⟨hlength, hs⟩ <;>
    simp only [hs, Nat.reducePow] <;> omega

/-- A larger character has a larger first byte, or it is spelled like the smaller one and both
have the same first digits. -/
theorem firstByte_lt_or {n m : Nat} (h : n < m) : firstByte n < firstByte m ∨
    (spelling n).1 = (spelling m).1 ∧ firstByte n = firstByte m ∧
      n / 64 ^ (spelling m).1 = m / 64 ^ (spelling m).1 := by
  by_cases hs : spelling n = spelling m
  · have hdigits : n / 64 ^ (spelling m).1 ≤ m / 64 ^ (spelling m).1 :=
      Nat.div_le_div_right (Nat.le_of_lt h)
    unfold firstByte
    rw [hs]
    omega
  · left
    unfold firstByte
    rcases spelling_cases n with ⟨hn, hs'⟩ | ⟨hn, hs'⟩ | ⟨hn, hs'⟩ | ⟨hn, hs'⟩ <;>
      rcases spelling_cases m with ⟨hm, hs''⟩ | ⟨hm, hs''⟩ | ⟨hm, hs''⟩ | ⟨hm, hs''⟩ <;>
      simp only [hs', hs'', Nat.reducePow, not_true_eq_false] at hs ⊢ <;> omega

/-! ## The order of texts -/

theorem val_lt (c : Char) : c.val.toNat < 1114112 := by
  rcases c.valid with hlow | ⟨-, hhigh⟩
  · exact Nat.lt_trans hlow (by decide)
  · exact hhigh

theorem utf8EncodeChar_eq (c : Char) :
    String.utf8EncodeChar c =
      UInt8.ofNat (firstByte c.val.toNat) :: following c.val.toNat (spelling c.val.toNat).1 := by
  have hsmall := val_lt c
  unfold String.utf8EncodeChar firstByte
  generalize c.val.toNat = n at *
  rcases spelling_cases n with ⟨hn, hs⟩ | ⟨hn, hs⟩ | ⟨hn, hs⟩ | ⟨hn, hs⟩
  · simp [hn, hs, following]
  · have hfirst : n / 64 % 32 = n / 64 := Nat.mod_eq_of_lt (by omega)
    simp [hs, following, hfirst, hn, Nat.not_le.mpr hn.1]
  · have hfirst : n / 4096 % 16 = n / 4096 := Nat.mod_eq_of_lt (by omega)
    have hlong : ¬ n ≤ 127 := by omega
    simp [hs, following, hfirst, hn, hlong, Nat.not_le.mpr hn.1]
  · have hfirst : n / 262144 % 8 = n / 262144 := Nat.mod_eq_of_lt (by omega)
    have hlong : ¬ n ≤ 127 ∧ ¬ n ≤ 2047 := by omega
    simp [hs, following, hfirst, hlong, Nat.not_le.mpr hn]

/-- Of two characters the smaller one has the smaller byte where they first differ. -/
theorem utf8EncodeChar_lt {c d : Char} (h : c < d) (u v : List UInt8) :
    String.utf8EncodeChar c ++ u < String.utf8EncodeChar d ++ v := by
  have hlt : c.val.toNat < d.val.toNat := UInt32.lt_iff_toNat_lt.mp (Char.lt_def.mp h)
  rw [utf8EncodeChar_eq, utf8EncodeChar_eq, List.cons_append, List.cons_append,
    List.cons_lt_cons_iff]
  rcases firstByte_lt_or hlt with hfirst | ⟨hspelling, hfirst, hdigits⟩
  · exact .inl (ofNat_lt_ofNat hfirst (firstByte_lt (val_lt d)))
  · right
    rw [hspelling, hfirst]
    refine ⟨rfl, following_lt _ ?_ u v⟩
    have hc := Nat.div_add_mod c.val.toNat (64 ^ (spelling d.val.toNat).1)
    have hd := Nat.div_add_mod d.val.toNat (64 ^ (spelling d.val.toNat).1)
    rw [hdigits] at hc
    omega

/-- Texts in order have bytes in order. -/
theorem flatMap_utf8EncodeChar_lt {cs ds : List Char} (h : cs < ds) :
    cs.flatMap String.utf8EncodeChar < ds.flatMap String.utf8EncodeChar := by
  induction h with
  | nil =>
      rw [List.flatMap_nil, List.flatMap_cons, utf8EncodeChar_eq]
      exact List.nil_lt_cons ..
  | cons _ ih => exact List.append_left_lt ih
  | rel hlt => exact utf8EncodeChar_lt hlt _ _

namespace ContainerId

/-- The bytes of a name. -/
def bytes (id : ContainerId) : List UInt8 :=
  id.text.toUTF8.data.toList

theorem bytes_eq (id : ContainerId) :
    id.bytes = id.text.toList.flatMap String.utf8EncodeChar := by
  rw [bytes, String.toUTF8_eq_toByteArray]
  conv => lhs; rw [← String.ofList_toList (s := id.text)]
  rw [String.toByteArray_ofList, List.utf8Encode, List.data_toByteArray]

/-- The order of names is the order of their bytes. -/
theorem lt_iff_bytes {a b : ContainerId} : a < b ↔ a.bytes < b.bytes := by
  have hmono : ∀ a b : ContainerId, a < b → a.bytes < b.bytes := by
    intro a b hlt
    rw [bytes_eq, bytes_eq]
    exact flatMap_utf8EncodeChar_lt (String.lt_iff.mp hlt)
  refine ⟨hmono a b, fun hbytes => Classical.byContradiction fun hnot => ?_⟩
  by_cases hgt : b < a
  · exact List.lt_asymm hbytes (hmono b a hgt)
  · rw [Key.total hnot hgt] at hbytes
    exact List.lt_irrefl _ hbytes

end ContainerId

end TaskFleet
