import ScriptLex.Text.Decimal
import ScriptLex.Text.Hex

/-!
# UTF-8

Texts as bytes. Decoding stops at the first byte that cannot be part of a character, and
its fault names the bytes in doubt: the longest start of a character that was still right,
or the single byte that can start none.
-/

namespace ScriptLex.Utf8

def encode (t : Text) : List UInt8 := t.flatMap String.utf8EncodeChar

inductive Fault.Reason where
  | invalidStart
  | invalidContinuation
  | unexpectedEnd
deriving DecidableEq, Repr

def Fault.Reason.message : Fault.Reason → Text
  | invalidStart => "invalid start byte"
  | invalidContinuation => "invalid continuation byte"
  | unexpectedEnd => "unexpected end of data"

/-- Where decoding failed: at `first` and the bytes after it that still fitted. -/
structure Fault where
  reason : Fault.Reason
  position : Nat
  first : UInt8
  fitting : List UInt8
deriving DecidableEq, Repr

namespace Fault

/-- The byte or the range of bytes in doubt. -/
def place (f : Fault) : Text :=
  match f.fitting with
  | [] => "byte 0x" ++ Hex.fixed 2 f.first.toNat ++ " in position " ++ Decimal.ofNat f.position
  | fitting =>
    "bytes in position " ++ Decimal.ofNat f.position ++ '-' ::
      Decimal.ofNat (f.position + fitting.length)

def message (f : Fault) : Text :=
  "\x27utf-8\x27 codec can\x27t decode " ++ f.place ++ ": " ++ f.reason.message

end Fault

/-- How many bytes follow the first byte of a character, and the bounds of the first of
them. The bounds keep out long forms, surrogates and codes above the last character. -/
def follow? (first : UInt8) : Option (Nat × UInt8 × UInt8) :=
  if first < 0x80 then some (0, 0x80, 0xbf)
  else if first < 0xc2 then none
  else if first < 0xe0 then some (1, 0x80, 0xbf)
  else if first = 0xe0 then some (2, 0xa0, 0xbf)
  else if first = 0xed then some (2, 0x80, 0x9f)
  else if first < 0xf0 then some (2, 0x80, 0xbf)
  else if first = 0xf0 then some (3, 0x90, 0xbf)
  else if first < 0xf4 then some (3, 0x80, 0xbf)
  else if first = 0xf4 then some (3, 0x80, 0x8f)
  else none

/-- Takes `count` following bytes off a list, the first of them within the bounds. A
failure comes with the bytes that still fitted. -/
def takeFollowing :
    (count : Nat) → (low high : UInt8) → List UInt8 →
      Except (Fault.Reason × List UInt8) (List UInt8 × List UInt8)
  | 0, _, _, bytes => .ok ([], bytes)
  | _ + 1, _, _, [] => .error (.unexpectedEnd, [])
  | count + 1, low, high, b :: bytes =>
    if low ≤ b ∧ b ≤ high then
      match takeFollowing count 0x80 0xbf bytes with
      | .ok (following, rest) => .ok (b :: following, rest)
      | .error (reason, fitting) => .error (reason, b :: fitting)
    else .error (.invalidContinuation, [])

theorem length_le_of_takeFollowing {count : Nat} {low high : UInt8}
    {bytes following rest : List UInt8}
    (h : takeFollowing count low high bytes = .ok (following, rest)) :
    rest.length ≤ bytes.length := by
  induction count generalizing low high bytes following with
  | zero =>
    obtain ⟨-, rfl⟩ : [] = following ∧ bytes = rest := by simpa [takeFollowing] using h
    exact Nat.le_refl _
  | succ count ih =>
    cases bytes with
    | nil => simp [takeFollowing] at h
    | cons b bytes =>
      unfold takeFollowing at h
      split at h
      · split at h
        · rename_i eq
          obtain ⟨-, rfl⟩ : _ ∧ _ = rest := by simpa using h
          exact Nat.le_succ_of_le (ih eq)
        · simp at h
      · simp at h

/-- The bits of the first byte that belong to the code, before `count` following bytes. -/
def leadBits (count : Nat) (first : UInt8) : Nat :=
  match count with
  | 0 => first.toNat
  | 1 => first.toNat - 0xc0
  | 2 => first.toNat - 0xe0
  | _ => first.toNat - 0xf0

/-- The character of a first byte and those that follow it. -/
def assemble (first : UInt8) (following : List UInt8) : Char :=
  Char.ofNat (following.foldl (fun code b => code * 64 + (b.toNat - 0x80))
    (leadBits following.length first))

/-- Decodes the bytes from `position` on. -/
def decodeFrom (position : Nat) : List UInt8 → Except Fault Text
  | [] => .ok []
  | first :: bytes =>
    match follow? first with
    | none => .error ⟨.invalidStart, position, first, []⟩
    | some (count, low, high) =>
      match _split : takeFollowing count low high bytes with
      | .error (reason, fitting) => .error ⟨reason, position, first, fitting⟩
      | .ok (following, rest) =>
        match decodeFrom (position + 1 + count) rest with
        | .ok t => .ok (assemble first following :: t)
        | .error fault => .error fault
termination_by bytes => bytes.length
decreasing_by
  have := length_le_of_takeFollowing _split
  simp only [List.length_cons]
  omega

def decode (bytes : List UInt8) : Except Fault Text := decodeFrom 0 bytes

end ScriptLex.Utf8
