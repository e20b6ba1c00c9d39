import ScriptLex.Text.Basic

/-!
# Decimal numerals

Integers are written in base ten without leading zeros; a minus sign precedes the digits
of a negative one.
-/

namespace ScriptLex.Decimal

/-- The most digits of an integer that is read or written. Only reading meets it: no line or
column of a text that fits on a machine has nearly as many. -/
def digitLimit : Nat := 4300

def ofNat (n : Nat) : Text := Nat.toDigits 10 n

def ofInt : Int → Text
  | .ofNat n => ofNat n
  | .negSucc n => '-' :: ofNat (n + 1)

end ScriptLex.Decimal
