import Mathlib.Data.List.Chain
import TaskFleet.Json.Token
import TaskFleet.Proofs.Text.Reading

/-!
# Tokens are read back as they were written

A list of tokens is written one after the other without blanks, and `tokens?` cuts the text at
the same places again.  Two things could go wrong.  A character of a string could end the
string, or be taken for part of an escape; `quoted?_escape` goes through the ways in which a
character is written.  And a token could swallow the beginning of the next one.  Only a number
has no end of its own, and only digits, a point or the letter of an exponent would prolong it,
so it is enough that no number follows another (`Token.Apart`).
-/

namespace TaskFleet.Json

/-! ## Strings -/

/-- A piece of quoted text that adds one character to whatever comes after it. -/
def Piece.Spells (p : Piece) (c : Char) : Prop :=
  ∀ pieces, spell (p :: pieces) = (spell pieces).map (c :: ·)

theorem Piece.spells_char (c : Char) : (Piece.char c).Spells c := fun _ => rfl

/-- A unit below the halves of pairs is a character by itself. -/
theorem Piece.spells_unit {c : Char} (h : c.toNat < 0xD800) : (Piece.unit c.toNat).Spells c := by
  have hhigh : isHighHalf c.toNat = false := by
    simp only [isHighHalf, Bool.and_eq_false_iff, decide_eq_false_iff_not]
    omega
  have hlow : isLowHalf c.toNat = false := by
    simp only [isLowHalf, Bool.and_eq_false_iff, decide_eq_false_iff_not]
    omega
  intro pieces
  cases pieces with
  | nil => simp [spell, hhigh, hlow]
  | cons next pieces => cases next <;> simp [spell, hhigh, hlow]

theorem hexDigit?_digitChar : ∀ n < 16, hexDigit? (Nat.digitChar n) = some n := by
  decide

/-- A control character is written as its number. -/
theorem hexUnit?_control {n : Nat} (h : n < 32) :
    hexUnit? '0' '0' (Nat.digitChar (n / 16)) (Nat.digitChar (n % 16)) = some n := by
  have hzero : hexDigit? '0' = some 0 := by decide
  have hfirst := hexDigit?_digitChar (n / 16) (by omega)
  have hsecond := hexDigit?_digitChar (n % 16) (by omega)
  simp only [hexUnit?, hzero, hfirst, hsecond, Option.bind_eq_bind, Option.bind_some, pure,
    Option.some.injEq]
  omega

/-- A character is written by a letter of its own, by its number, or as it is. -/
theorem escape_cases (c : Char) :
    (∃ e, e ≠ 'u' ∧ shortEscape? e = some c ∧ escape c = ['\\', e]) ∨
    (c.toNat < 32 ∧ escape c =
      ['\\', 'u', '0', '0', Nat.digitChar (c.toNat / 16), Nat.digitChar (c.toNat % 16)]) ∨
    (c ≠ '"' ∧ c ≠ '\\' ∧ 32 ≤ c.toNat ∧ escape c = [c]) := by
  unfold escape
  split
  · next h => exact .inl ⟨'"', by decide, by rw [h]; rfl, rfl⟩
  next hquote =>
  split
  · next h => exact .inl ⟨'\\', by decide, by rw [h]; rfl, rfl⟩
  next hback =>
  split
  · next h => exact .inl ⟨'n', by decide, by rw [h]; rfl, rfl⟩
  split
  · next h => exact .inl ⟨'r', by decide, by rw [h]; rfl, rfl⟩
  split
  · next h => exact .inl ⟨'t', by decide, by rw [h]; rfl, rfl⟩
  split
  · next h => exact .inl ⟨'b', by decide, by rw [h]; rfl, rfl⟩
  split
  · next h => exact .inl ⟨'f', by decide, by rw [h]; rfl, rfl⟩
  split
  · next h => exact .inr (.inl ⟨h, rfl⟩)
  · next h => exact .inr (.inr ⟨hquote, hback, by omega, rfl⟩)

/-- However a character is written between quotes, it is read as one piece that spells it. -/
theorem quoted?_escape (c : Char) {rest after : List Char} {pieces : List Piece}
    (h : quoted? rest = some (pieces, after)) :
    ∃ p : Piece, p.Spells c ∧ quoted? (escape c ++ rest) = some (p :: pieces, after) := by
  rcases escape_cases c with ⟨e, hu, hshort, hescape⟩ | ⟨hcontrol, hescape⟩ |
    ⟨hquote, hback, hlarge, hescape⟩
  · refine ⟨.char c, Piece.spells_char c, ?_⟩
    rw [hescape, List.cons_append, List.singleton_append, quoted?, hshort, h]
    intro a b d f tail heq
    exact absurd heq hu
  · refine ⟨.unit c.toNat, Piece.spells_unit (by omega), ?_⟩
    simp only [hescape, List.cons_append, List.nil_append, quoted?, hexUnit?_control hcontrol, h]
  · refine ⟨.char c, Piece.spells_char c, ?_⟩
    have hplain : ¬ (c = '\\' ∨ c.toNat < 32) := by
      rintro (heq | hsmall)
      · exact hback heq
      · omega
    rw [hescape, List.singleton_append, quoted?, if_neg hplain, h]
    · exact hquote
    · exact fun _ _ _ _ _ heq => absurd heq hback
    · exact fun _ _ heq => absurd heq hback

/-- A string between quotes is read up to its closing quote, and spelled as it was. -/
theorem quoted?_quote (cs rest : List Char) :
    ∃ pieces, spell pieces = some cs ∧
      quoted? (cs.flatMap escape ++ '"' :: rest) = some (pieces, rest) := by
  induction cs with
  | nil => exact ⟨[], rfl, rfl⟩
  | cons c cs ih =>
    obtain ⟨pieces, hspell, hquoted⟩ := ih
    obtain ⟨p, hp, hfirst⟩ := quoted?_escape c hquoted
    refine ⟨p :: pieces, ?_, ?_⟩
    · rw [hp, hspell, Option.map_some]
    · rw [List.flatMap_cons, List.append_assoc, hfirst]

/-! ## Numbers -/

/-- Digits, at least one. -/
def IsDigits (ds : List Char) : Prop :=
  ds ≠ [] ∧ ∀ c ∈ ds, c.isDigit = true

/-- A point and digits, or nothing. -/
inductive IsFraction : List Char → Prop
  | none : IsFraction []
  | point {ds : List Char} : IsDigits ds → IsFraction ('.' :: ds)

/-- The letter of an exponent, perhaps a sign, and digits, or nothing. -/
inductive IsExponent : List Char → Prop
  | none : IsExponent []
  | power {letter : Char} {sign ds : List Char} : letter = 'e' ∨ letter = 'E' →
      sign = [] ∨ sign = ['+'] ∨ sign = ['-'] → IsDigits ds → IsExponent (letter :: (sign ++ ds))

/-- What may stand after the whole part of a number. -/
def IsTail (tail : List Char) : Prop :=
  ∃ fraction exponent, IsFraction fraction ∧ IsExponent exponent ∧ tail = fraction ++ exponent

/-- The characters that would prolong a number. -/
def prolongs (c : Char) : Bool :=
  c.isDigit || c == '.' || c == 'e' || c == 'E'

/-- Nothing at the beginning of a text has the property `p`. -/
def StartsOff (p : Char → Bool) (cs : List Char) : Prop :=
  ∀ c ∈ cs.head?, p c = false

theorem takeWhile_run {p : Char → Bool} {ds rest : List Char} (hds : ∀ c ∈ ds, p c = true)
    (hrest : StartsOff p rest) :
    (ds ++ rest).takeWhile p = ds ∧ (ds ++ rest).dropWhile p = rest := by
  rw [List.takeWhile_append_of_pos hds, List.dropWhile_append_of_pos hds]
  cases rest with
  | nil => simp
  | cons c rest => simp [hrest c (by simp)]

theorem StartsOff.mono {p q : Char → Bool} {cs : List Char} (h : StartsOff p cs)
    (hpq : ∀ c, q c = true → p c = true) : StartsOff q cs := by
  intro c hc
  have hoff := h c hc
  cases hq : q c with
  | false => rfl
  | true => rw [hpq c hq] at hoff; cases hoff

theorem startsOff_cons {p : Char → Bool} {c : Char} {cs : List Char} (h : p c = false) :
    StartsOff p (c :: cs) := by
  simpa [StartsOff] using h

/-- The first digit of a number other than zero is no zero. -/
theorem toDigits_head {n : Nat} (h : n ≠ 0) : ∀ c ∈ (Nat.toDigits 10 n).head?, c ≠ '0' := by
  induction n using Nat.strongRecOn with
  | ind n ih =>
    by_cases hsmall : n < 10
    · rw [Nat.toDigits_of_lt_base hsmall]
      have hdigit : ∀ n < 10, n ≠ 0 → Nat.digitChar n ≠ '0' := by decide
      simpa using hdigit n hsmall h
    · obtain ⟨c, ds, hdigits, _⟩ := Text.toDigits_eq_cons (n / 10)
      have hhead := ih (n / 10) (by omega) (by omega)
      rw [Nat.toDigits_of_base_le (by decide) (by omega)]
      rwa [hdigits] at hhead ⊢

theorem whole?_toDigits (n : Nat) {rest : List Char} (h : StartsOff Char.isDigit rest) :
    whole? (Nat.toDigits 10 n ++ rest) = some (n, rest) := by
  by_cases hzero : n = 0
  · subst hzero
    rw [Nat.toDigits_zero, List.singleton_append, whole?]
  · obtain ⟨c, ds, hdigits, hall⟩ := Text.toDigits_eq_cons n
    have hfirst : c ≠ '0' := toDigits_head hzero c (by simp [hdigits])
    obtain ⟨htake, hdrop⟩ := takeWhile_run (fun d hd => hall d (List.mem_cons_of_mem _ hd)) h
    rw [hdigits, List.cons_append, whole?, if_pos (hall c List.mem_cons_self), htake, hdrop,
      ← hdigits, Nat.ofDigitChars_ten_toDigits]
    intro heq
    exact absurd heq hfirst

/-- A fraction is read up to its last digit. -/
theorem fraction?_append {fraction rest : List Char} (h : IsFraction fraction)
    (hdigit : StartsOff Char.isDigit rest) (hpoint : StartsOff (· == '.') rest) :
    fraction? (fraction ++ rest) = some (fraction, rest) := by
  cases h with
  | none =>
    cases rest with
    | nil => rfl
    | cons c rest =>
      have hc : c ≠ '.' := by simpa using hpoint c (by simp)
      rw [List.nil_append, fraction?]
      intro cs heq
      exact hc (List.cons.inj heq).1
  | @point ds hds =>
    obtain ⟨htake, hdrop⟩ := takeWhile_run hds.2 hdigit
    simp only [List.cons_append, fraction?, htake, hdrop, List.isEmpty_iff, hds.1, if_false]

theorem exponentSign_append {sign ds rest : List Char}
    (h : sign = [] ∨ sign = ['+'] ∨ sign = ['-']) (hds : IsDigits ds) :
    exponentSign (sign ++ (ds ++ rest)) = (sign, ds ++ rest) := by
  rcases h with rfl | rfl | rfl
  · obtain ⟨d, ds, rfl⟩ := List.exists_cons_of_ne_nil hds.1
    have hd := hds.2 d List.mem_cons_self
    rw [List.nil_append, List.cons_append, exponentSign]
    · rintro cs heq
      rw [(List.cons.inj heq).1] at hd
      exact absurd hd (by decide)
    · rintro cs heq
      rw [(List.cons.inj heq).1] at hd
      exact absurd hd (by decide)
  · rfl
  · rfl

/-- An exponent is read up to its last digit. -/
theorem exponent?_append {exponent rest : List Char} (h : IsExponent exponent)
    (hdigit : StartsOff Char.isDigit rest)
    (hletter : StartsOff (fun c => c == 'e' || c == 'E') rest) :
    exponent? (exponent ++ rest) = some (exponent, rest) := by
  cases h with
  | none =>
    cases rest with
    | nil => rfl
    | cons c rest =>
      have hc : ¬ (c = 'e' ∨ c = 'E') := by simpa using hletter c (by simp)
      rw [List.nil_append, exponent?, if_neg hc]
  | @power letter sign ds hletters hsign hds =>
    obtain ⟨htake, hdrop⟩ := takeWhile_run hds.2 hdigit
    simp only [List.cons_append, List.append_assoc, exponent?, if_pos hletters,
      exponentSign_append hsign hds, htake, hdrop, List.isEmpty_iff, hds.1, if_false]

/-! ## Single tokens -/

/-- What a token must be to be written: the tail of a number is a fraction and an exponent. -/
def Token.IsLegal : Token → Prop
  | .number _ _ tail => IsTail tail
  | _ => True

/-- The token is a number. -/
def Token.isNumber : Token → Bool
  | .number .. => true
  | _ => false

theorem unsigned?_append (negative : Bool) (magnitude : Nat) {tail rest : List Char}
    (htail : IsTail tail) (hrest : StartsOff prolongs rest) :
    unsigned? negative (Nat.toDigits 10 magnitude ++ (tail ++ rest)) =
      some (.number negative magnitude tail, rest) := by
  have hdigit : StartsOff Char.isDigit rest := hrest.mono fun c hc => by grind [prolongs]
  have hpoint : StartsOff (· == '.') rest := hrest.mono fun c hc => by grind [prolongs]
  have hletter : StartsOff (fun c => c == 'e' || c == 'E') rest :=
    hrest.mono fun c hc => by grind [prolongs]
  obtain ⟨fraction, exponent, hfraction, hexponent, rfl⟩ := htail
  -- what comes before a part is ended by whatever that part begins with
  have hdigitExponent : StartsOff Char.isDigit (exponent ++ rest) := by
    cases hexponent with
    | none => exact hdigit
    | power hletters _ _ => rcases hletters with rfl | rfl <;> exact startsOff_cons (by decide)
  have hpointExponent : StartsOff (· == '.') (exponent ++ rest) := by
    cases hexponent with
    | none => exact hpoint
    | power hletters _ _ => rcases hletters with rfl | rfl <;> exact startsOff_cons (by decide)
  have hdigitFraction : StartsOff Char.isDigit (fraction ++ (exponent ++ rest)) := by
    cases hfraction with
    | none => exact hdigitExponent
    | point _ => exact startsOff_cons (by decide)
  rw [List.append_assoc, unsigned?, whole?_toDigits magnitude hdigitFraction]
  simp only [Option.bind_eq_bind, Option.bind_some, fraction?_append hfraction hdigitExponent hpointExponent,
    exponent?_append hexponent hdigit hletter, pure]

theorem token?_of_isDigit {c : Char} (cs : List Char) (h : c.isDigit = true) :
    token? (c :: cs) = unsigned? false (c :: cs) := by
  rw [token?]
  -- each other token begins with a character that is no digit
  all_goals
    intro rest heq
    rw [(List.cons.inj heq).1] at h
    exact absurd h (by decide)

/-- A token is read as it was written, unless it is a number that what follows prolongs. -/
theorem token?_text {t : Token} {rest : List Char} (ht : t.IsLegal)
    (hrest : t.isNumber = true → StartsOff prolongs rest) :
    token? (t.text ++ rest) = some (t, rest) := by
  cases t with
  | string content =>
    cases content with
    | none => rfl
    | some s =>
      obtain ⟨pieces, hspell, hquoted⟩ := quoted?_quote s.toList rest
      simp only [Token.text, quote, List.cons_append, List.append_assoc, List.nil_append, token?,
        hquoted, hspell, Option.map_some, String.ofList_toList]
  | number negative magnitude tail =>
    have hunsigned := unsigned?_append negative magnitude ht (hrest rfl)
    cases negative with
    | true => simpa [Token.text, token?] using hunsigned
    | false =>
      obtain ⟨c, ds, hdigits, hall⟩ := Text.toDigits_eq_cons magnitude
      have hc : c.isDigit = true := hall c List.mem_cons_self
      rw [hdigits, List.cons_append] at hunsigned
      simp only [Token.text, Bool.false_eq_true, if_false, List.nil_append, hdigits,
        List.append_assoc, List.cons_append]
      rw [token?_of_isDigit _ hc, hunsigned]
  | bool b => cases b <;> rfl
  | null | openBrace | closeBrace | openBracket | closeBracket | colon | comma => rfl

/-! ## Lists of tokens -/

/-- Two tokens that may be written one after the other. -/
def Token.Apart (t u : Token) : Prop :=
  ¬ (t.isNumber = true ∧ u.isNumber = true)

/-- A token is written with at least one character, and does not begin with a blank. -/
theorem Token.text_eq_cons (t : Token) : ∃ c cs, t.text = c :: cs ∧ isBlank c = false := by
  cases t with
  | string content => cases content <;> exact ⟨_, _, rfl, by decide⟩
  | bool b => cases b <;> exact ⟨_, _, rfl, by decide⟩
  | number negative magnitude tail =>
    cases negative with
    | true => exact ⟨_, _, rfl, by decide⟩
    | false =>
      obtain ⟨c, ds, hdigits, hall⟩ := Text.toDigits_eq_cons magnitude
      have hc : c.isDigit = true := hall c List.mem_cons_self
      refine ⟨c, ds ++ tail, by simp [Token.text, hdigits], ?_⟩
      cases hblank : isBlank c with
      | false => rfl
      | true =>
        simp only [isBlank, Bool.or_eq_true, beq_iff_eq] at hblank
        rcases hblank with ((rfl | rfl) | rfl) | rfl <;> exact absurd hc (by decide)
  | null | openBrace | closeBrace | openBracket | closeBracket | colon | comma =>
    exact ⟨_, _, rfl, by decide⟩

/-- What is no number prolongs none. -/
theorem Token.startsOff_text {t : Token} (h : t.isNumber = false) (rest : List Char) :
    StartsOff prolongs (t.text ++ rest) := by
  cases t with
  | number => cases h
  | string content => cases content <;> exact startsOff_cons (by decide)
  | bool b => cases b <;> exact startsOff_cons (by decide)
  | null | openBrace | closeBrace | openBracket | closeBracket | colon | comma =>
    exact startsOff_cons (by decide)

theorem tokensWithin_text {ts : List Token} (hlegal : ∀ t ∈ ts, t.IsLegal)
    (happart : ts.IsChain Token.Apart) {fuel : Nat}
    (hfuel : (ts.flatMap Token.text).length ≤ fuel) :
    tokensWithin fuel (ts.flatMap Token.text) = some ts := by
  induction ts generalizing fuel with
  | nil => cases fuel <;> rfl
  | cons t ts ih =>
    obtain ⟨c, cs, htext, hblank⟩ := t.text_eq_cons
    have hrest : t.isNumber = true → StartsOff prolongs (ts.flatMap Token.text) := by
      intro hnumber
      cases ts with
      | nil => simp [StartsOff]
      | cons u ts =>
        have hu : u.isNumber = false := by
          have hapart := (List.isChain_cons_cons.mp happart).1
          cases hu : u.isNumber with
          | false => rfl
          | true => exact absurd ⟨hnumber, hu⟩ hapart
        exact Token.startsOff_text hu _
    have hfirst := token?_text (hlegal t List.mem_cons_self) hrest
    rw [List.flatMap_cons, htext, List.cons_append] at hfuel ⊢
    rw [htext, List.cons_append] at hfirst
    cases fuel with
    | zero => simp at hfuel
    | succ fuel =>
      have hfuel' : (ts.flatMap Token.text).length ≤ fuel := by
        simp only [List.length_cons, List.length_append] at hfuel
        omega
      have hlegal' : ∀ u ∈ ts, u.IsLegal := fun u hu => hlegal u (List.mem_cons_of_mem _ hu)
      rw [tokensWithin, hblank, if_neg Bool.false_ne_true, hfirst]
      simp only [ih hlegal' happart.tail hfuel', Option.map_some]

/-- Tokens that are written one after the other are read as they were. -/
theorem tokens?_text {ts : List Token} (hlegal : ∀ t ∈ ts, t.IsLegal)
    (happart : ts.IsChain Token.Apart) : tokens? (ts.flatMap Token.text) = some ts :=
  tokensWithin_text hlegal happart (Nat.le_refl _)

end TaskFleet.Json
