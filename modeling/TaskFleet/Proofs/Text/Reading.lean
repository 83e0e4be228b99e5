import TaskFleet.Text.Reading

/-!
# Settings are read as they are written

A number is written in decimal, and reading takes the digits from the left again.  The number
read so far never exceeds the one that all the digits make (`le_ofDigitChars`), so a number
below the bound stays below it on the way, however close to the bound it is.

Blanks around a text do not matter as long as the text has none of its own.
-/

namespace TaskFleet.Text

/-! ## How settings are written -/

/-- A number in decimal. -/
def decimal (n : Nat) : String :=
  String.ofList (Nat.toDigits 10 n)

/-- The word for a switch. -/
def switch (on : Bool) : String :=
  if on then "true" else "false"

/-- `given` is `value`, perhaps with blanks before it and after it. -/
def Padded (value given : String) : Prop :=
  ∃ before after : List Char, before.all isBlank = true ∧ after.all isBlank = true ∧
    given.toList = before ++ value.toList ++ after

/-- A text that is not empty and has no blanks. -/
def IsWord (value : String) : Prop :=
  value.toList ≠ [] ∧ ∀ c ∈ value.toList, isBlank c = false

instance (value : String) : Decidable (IsWord value) :=
  decidable_of_iff (value.toList ≠ [] ∧ value.toList.all (fun c => !isBlank c) = true)
    (by simp [IsWord])

/-- A number in decimal has a first digit, and nothing but digits. -/
theorem toDigits_eq_cons (n : Nat) :
    ∃ c ds, Nat.toDigits 10 n = c :: ds ∧ ∀ d ∈ c :: ds, d.isDigit = true := by
  obtain ⟨c, ds, hcons⟩ := List.exists_cons_of_ne_nil (Nat.toDigits_ne_nil (n := n) (b := 10))
  exact ⟨c, ds, hcons, fun d hd =>
    Nat.isDigit_of_mem_toDigits (by decide) (by decide) (hcons ▸ hd)⟩

theorem isBlank_of_isDigit {c : Char} (h : c.isDigit = true) : isBlank c = false := by
  have hdigit : 48 ≤ c.toNat ∧ c.toNat ≤ 57 := by
    simpa [Char.isDigit, UInt32.le_iff_toNat_le] using h
  have houtside : ∀ n ∈ blanks, n < 48 ∨ 57 < n := by decide
  rw [isBlank, ← Bool.not_eq_true, List.contains_iff_mem]
  intro hmem
  have := houtside c.toNat hmem
  omega

theorem isWord_decimal (n : Nat) : IsWord (decimal n) := by
  obtain ⟨c, ds, hcons, hdigits⟩ := toDigits_eq_cons n
  rw [IsWord, decimal, String.toList_ofList, hcons]
  exact ⟨List.cons_ne_nil _ _, fun d hd => isBlank_of_isDigit (hdigits d hd)⟩

theorem isWord_switch (on : Bool) : IsWord (switch on) := by
  cases on <;> decide

/-! ## Blanks around a text -/

theorem trimmed_padded {before cs after : List Char} (hbefore : ∀ c ∈ before, isBlank c = true)
    (hafter : ∀ c ∈ after, isBlank c = true) (hne : cs ≠ [])
    (hcs : ∀ c ∈ cs, isBlank c = false) : trimmed (before ++ cs ++ after) = cs := by
  have hback : ∀ c ∈ after.reverse, isBlank c = true := fun c hc =>
    hafter c (List.mem_reverse.mp hc)
  -- dropping blanks stops at the first character of a text that has none
  have hstop : ∀ ds rest : List Char, ds ≠ [] → (∀ c ∈ ds, isBlank c = false) →
      (ds ++ rest).dropWhile isBlank = ds ++ rest := by
    intro ds rest hne hds
    obtain ⟨d, ds, rfl⟩ := List.exists_cons_of_ne_nil hne
    rw [List.cons_append, List.dropWhile_cons_of_neg]
    simp [hds d List.mem_cons_self]
  rw [trimmed, List.append_assoc, List.dropWhile_append_of_pos hbefore, hstop cs after hne hcs,
    List.reverse_append, List.dropWhile_append_of_pos hback]
  have hreverse := hstop cs.reverse [] (by simpa using hne) (by simpa using hcs)
  rw [List.append_nil] at hreverse
  rw [hreverse, List.reverse_reverse]

/-- Blanks around a word are not read. -/
theorem trim_padded {value given : String} (hvalue : IsWord value) (h : Padded value given) :
    trim given = value := by
  obtain ⟨before, after, hbefore, hafter, hgiven⟩ := h
  rw [List.all_eq_true] at hbefore hafter
  rw [trim, hgiven, trimmed_padded hbefore hafter hvalue.1 hvalue.2, String.ofList_toList]

theorem padded_refl (value : String) : Padded value value :=
  ⟨[], [], by simp, by simp, by simp⟩

theorem trim_word {value : String} (hvalue : IsWord value) : trim value = value :=
  trim_padded hvalue (padded_refl value)

/-! ## Numbers and switches -/

/-- More digits never make a number smaller. -/
theorem le_ofDigitChars (cs : List Char) (value : Nat) : value ≤ Nat.ofDigitChars 10 cs value := by
  rw [Nat.ofDigitChars_eq_ofDigitChars_zero]
  have hpow : 1 ≤ 10 ^ cs.length := Nat.one_le_pow _ _ (by decide)
  have hvalue : 1 * value ≤ 10 ^ cs.length * value := Nat.mul_le_mul_right value hpow
  omega

theorem readDigits_eq {bound value : Nat} {cs : List Char} (hcs : ∀ c ∈ cs, c.isDigit = true)
    (h : Nat.ofDigitChars 10 cs value < bound) :
    readDigits bound value cs = .ok (Nat.ofDigitChars 10 cs value) := by
  induction cs generalizing value with
  | nil => rfl
  | cons c cs ih =>
    rw [Nat.ofDigitChars_cons] at h ⊢
    have hnext := Nat.lt_of_le_of_lt (le_ofDigitChars cs _) h
    rw [readDigits, if_pos (hcs c List.mem_cons_self), if_pos hnext]
    exact ih (fun d hd => hcs d (List.mem_cons_of_mem _ hd)) h

/-- A number below the bound is read from its decimal form. -/
theorem readNat_decimal {bound n : Nat} (h : n < bound) :
    readNat bound (decimal n).toList = .ok n := by
  obtain ⟨c, ds, hcons, hdigits⟩ := toDigits_eq_cons n
  have hvalue : Nat.ofDigitChars 10 (c :: ds) 0 = n := by
    rw [← hcons, Nat.ofDigitChars_ten_toDigits]
  have hread : readDigits bound 0 (c :: ds) = .ok n := by
    rw [readDigits_eq hdigits (by rwa [hvalue]), hvalue]
  have hplus : c ≠ '+' := by
    rintro rfl
    exact absurd (hdigits '+' List.mem_cons_self) (by decide)
  rw [decimal, String.toList_ofList, hcons, readNat]
  · exact hread
  all_goals simp [hplus]

theorem readSwitch_switch (on : Bool) : readSwitch (switch on) = .ok on := by
  cases on <;> rfl

end TaskFleet.Text
