import ScriptLex.Text.Decimal
import ScriptLex.Toml.Reader

/-!
# Reading TOML: numbers, dates and times

These forms have no end mark. Each is the longest start of the text that has the form, and
what follows has to be in place behind a value.
-/

namespace ScriptLex.Toml

/-! ## Dates and times -/

/-- Two digits with a value between `low` and `high`, and the text behind them. -/
def twoDigits? (low high : Nat) : Text → Option (Nat × Text)
  | a :: b :: rest =>
    if isDigit a && isDigit b then
      let n := 10 * (a.toNat - '0'.toNat) + (b.toNat - '0'.toNat)
      if low ≤ n ∧ n ≤ high then some (n, rest) else none
    else none
  | _ => none

/-- What follows `c`, if the text starts with it. -/
def after? (c : Char) : Text → Option Text
  | x :: rest => if x = c then some rest else none
  | [] => none

structure Date where
  year : Nat
  month : Nat
  day : Nat
deriving DecidableEq, Repr

namespace Date

def isLeap (year : Nat) : Bool := year % 4 = 0 && (year % 100 ≠ 0 || year % 400 = 0)

def daysIn (year month : Nat) : Nat :=
  if month = 2 then (if isLeap year then 29 else 28)
  else if month = 4 ∨ month = 6 ∨ month = 9 ∨ month = 11 then 30
  else 31

/-- There is no year zero, and no month is longer than it is. -/
def isValid (d : Date) : Bool := 1 ≤ d.year && d.day ≤ daysIn d.year d.month

end Date

/-- A date such as `1979-05-27`. -/
def date? (t : Text) : Option (Date × Text) := do
  let (century, t) ← twoDigits? 0 99 t
  let (year, t) ← twoDigits? 0 99 t
  let (month, t) ← twoDigits? 1 12 (← after? '-' t)
  let (day, t) ← twoDigits? 1 31 (← after? '-' t)
  return (⟨100 * century + year, month, day⟩, t)

/-- What follows a point and the digits behind it, of which there must be one. -/
def afterFraction (t : Text) : Text :=
  match t with
  | '.' :: digit :: rest => if isDigit digit then rest.dropWhile isDigit else t
  | _ => t

/-- What follows a time such as `07:32:00.5`. -/
def afterTime? (t : Text) : Option Text := do
  let (_, t) ← twoDigits? 0 23 t
  let (_, t) ← twoDigits? 0 59 (← after? ':' t)
  let (_, t) ← twoDigits? 0 59 (← after? ':' t)
  return afterFraction t

/-- What follows an offset such as `-07:00`. -/
def afterOffset? (t : Text) : Option Text := do
  let (_, t) ← twoDigits? 0 23 t
  let (_, t) ← twoDigits? 0 59 (← after? ':' t)
  return t

/-- What follows a zone, which may be left out. -/
def afterZone (t : Text) : Text :=
  match t with
  | c :: rest =>
    if c = 'Z' ∨ c = 'z' then rest
    else if c = '+' ∨ c = '-' then (afterOffset? rest).getD t
    else t
  | [] => t

/-- What follows the time that belongs to a date, which may be left out. -/
def afterDateTime (t : Text) : Text :=
  match t with
  | c :: rest =>
    if c = 'T' ∨ c = 't' ∨ c = ' ' then
      match afterTime? rest with
      | some behind => afterZone behind
      | none => t
    else t
  | [] => t

/-! ## Numbers -/

/-- Further digits, each with at most one underscore before it, and the text behind them. -/
def moreDigits (p : Char → Bool) : Text → Text × Text
  | [] => ([], [])
  | '_' :: c :: t =>
    if p c then
      let (digits, rest) := moreDigits p t
      (c :: digits, rest)
    else ([], '_' :: c :: t)
  | c :: t =>
    if p c then
      let (digits, rest) := moreDigits p t
      (c :: digits, rest)
    else ([], c :: t)

/-- Digits with single underscores between them. -/
def digits? (p : Char → Bool) : Text → Option (Text × Text)
  | [] => none
  | c :: t =>
    if p c then
      let (digits, rest) := moreDigits p t
      some (c :: digits, rest)
    else none

def isHexDigit (c : Char) : Bool := (Hex.value? c).isSome

/-- The number that digits spell in a base of at most sixteen. -/
def ofDigits (base : Nat) (digits : Text) : Nat :=
  digits.foldl (fun n c => n * base + (Hex.value? c).getD 0) 0

/-- An integer with the letter of its base. -/
def based? : Text → Option (Nat × Text)
  | '0' :: 'x' :: t => (digits? isHexDigit t).map fun (ds, rest) => (ofDigits 16 ds, rest)
  | '0' :: 'o' :: t =>
    (digits? (fun c => '0' ≤ c && c ≤ '7') t).map fun (ds, rest) => (ofDigits 8 ds, rest)
  | '0' :: 'b' :: t =>
    (digits? (fun c => c = '0' || c = '1') t).map fun (ds, rest) => (ofDigits 2 ds, rest)
  | _ => none

/-- The part before the point: no zero stands before another digit. -/
def whole? (t : Text) : Option (Text × Text) :=
  match t with
  | '0' :: rest => some (['0'], rest)
  | t => digits? isDigit t

/-- What follows a point with digits or an exponent, each of which may be left out. -/
def afterFloatPart (t : Text) : Text :=
  let t :=
    match t with
    | '.' :: rest => ((digits? isDigit rest).map Prod.snd).getD t
    | _ => t
  match t with
  | c :: rest =>
    if c = 'e' ∨ c = 'E' then
      let unsigned :=
        match rest with
        | s :: behind => if s = '+' ∨ s = '-' then behind else rest
        | [] => rest
      ((digits? isDigit unsigned).map Prod.snd).getD t
    else t
  | [] => t

/-- The sign of a number and the text behind it. -/
def splitSign : Text → Bool × Text
  | '-' :: t => (true, t)
  | '+' :: t => (false, t)
  | t => (false, t)

/-- What `t` has before its ending `rest`. -/
def writtenBefore (t rest : Text) : Text := t.take (t.length - rest.length)

namespace Reader

/-- A decimal number: a float if it has a point or an exponent, an integer otherwise. -/
def decimal (t digits behind : Text) (negative : Bool) : Reader Value := do
  let rest := afterFloatPart behind
  set rest
  if rest.length < behind.length then return .float (writtenBefore t rest)
  if Decimal.digitLimit < digits.length then throw (.integerTooLong digits.length)
  let n : Int := ofDigits 10 digits
  return .integer (if negative then -n else n)

/-- The floats without digits. -/
def specialFloat : Reader Value := do
  let t ← get
  let (_, unsigned) := splitSign t
  if ("inf" : Text).isPrefixOf unsigned ∨ ("nan" : Text).isPrefixOf unsigned then
    let rest := unsigned.drop 3
    set rest
    return .float (writtenBefore t rest)
  else malformed

/-- A date, a time or a number. -/
def scalar : Reader Value := do
  let t ← get
  match date? t with
  | some (date, behind) =>
    let rest := afterDateTime behind
    set rest
    if date.isValid then return .moment (writtenBefore t rest) else malformed
  | none =>
    match afterTime? t with
    | some rest =>
      set rest
      return .moment (writtenBefore t rest)
    | none =>
      match based? t with
      | some (n, rest) =>
        set rest
        return .integer n
      | none =>
        let (negative, unsigned) := splitSign t
        match whole? unsigned with
        | some (digits, behind) => decimal t digits behind negative
        | none => specialFloat

end Reader

end ScriptLex.Toml
