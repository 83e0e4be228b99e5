import TaskFleet.Text.Blank

/-!
# Reading numbers and switches from settings

A whole number is written in decimal, perhaps with a plus sign.  Digits are taken from
the left; reading stops at the first character that is no digit or at the first digit
with which the number leaves the bound, whichever comes first.  A switch is `true` or
`false` and nothing else.
-/

namespace TaskFleet.Text

/-- Why a setting cannot be read. -/
inductive ReadError where
  | emptyNumber
  | invalidDigit
  | tooLarge
  | notSwitch
  | unknownMatcher (text : String)
deriving DecidableEq, Repr

/-- The wording of a cause. -/
def ReadError.message : ReadError → String
  | .emptyNumber => "cannot parse integer from empty string"
  | .invalidDigit => "invalid digit found in string"
  | .tooLarge => "number too large to fit in target type"
  | .notSwitch => "provided string was not `true` or `false`"
  | .unknownMatcher text => s!"unknown matcher `{text}`"

/-- Read more digits after those that make `value`, staying below `bound`. -/
def readDigits (bound : Nat) (value : Nat) : List Char → Except ReadError Nat
  | [] => .ok value
  | c :: cs =>
    if c.isDigit then
      let next := 10 * value + (c.toNat - '0'.toNat)
      if next < bound then readDigits bound next cs else .error .tooLarge
    else .error .invalidDigit

/-- Read a whole number below `bound`. -/
def readNat (bound : Nat) : List Char → Except ReadError Nat
  | [] => .error .emptyNumber
  | ['+'] => .error .invalidDigit
  | '+' :: cs => readDigits bound 0 cs
  | cs => readDigits bound 0 cs

/-- Read a switch. -/
def readSwitch (s : String) : Except ReadError Bool :=
  if s = "true" then .ok true
  else if s = "false" then .ok false
  else .error .notSwitch

end TaskFleet.Text
