import TaskFleet.Text.Hidden

/-!
# Strings in diagnostics

Diagnostics show a string between quotes.  A quote, a backslash, a tab and a line end
have an escape of one letter, and so has the character zero; every other hidden
character is named by its code point.
-/

namespace TaskFleet.Text

/-- How one character is shown between quotes. -/
def shown (c : Char) : List Char :=
  if c = '"' then ['\\', '"']
  else if c = '\\' then ['\\', '\\']
  else if c = '\t' then ['\\', 't']
  else if c = '\r' then ['\\', 'r']
  else if c = '\n' then ['\\', 'n']
  else if c.toNat = 0 then ['\\', '0']
  else if isHidden c then
    ['\\', 'u', '\x7b'] ++ Nat.toDigits 16 c.toNat ++ ['\x7d']
  else [c]

/-- A string as diagnostics show it. -/
def quoted (s : String) : String :=
  String.ofList ('"' :: (s.toList.flatMap shown ++ ['"']))

end TaskFleet.Text
