import ScriptLex.Text.Basic

/-!
# Hexadecimal numerals

Escapes name a character by its code in a fixed number of lower-case hexadecimal digits.
-/

namespace ScriptLex.Hex

/-- The digit of a value below sixteen. -/
def digit (n : Nat) : Char := Nat.digitChar n

/-- The value of a digit in either case. -/
def value? (c : Char) : Option Nat :=
  if '0' ≤ c ∧ c ≤ '9' then some (c.toNat - '0'.toNat)
  else if 'a' ≤ c ∧ c ≤ 'f' then some (c.toNat - 'a'.toNat + 10)
  else if 'A' ≤ c ∧ c ≤ 'F' then some (c.toNat - 'A'.toNat + 10)
  else none

/-- The last `width` digits of `n`, most significant first. -/
def fixed : (width : Nat) → (n : Nat) → Text
  | 0, _ => []
  | width + 1, n => fixed width (n / 16) ++ [digit (n % 16)]

/-- The number that the digits spell, none if one of them is no digit. -/
def read? (digits : Text) : Option Nat :=
  digits.foldl (fun n c => do return 16 * (← n) + (← value? c)) (some 0)

end ScriptLex.Hex
