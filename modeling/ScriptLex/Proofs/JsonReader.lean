import ScriptLex.Proofs.Escape
import ScriptLex.Token.Json

/-!
# Reading JSON

A reader for any JSON text, by the rules of the format and not by how token streams are laid out.
Integers are read as such, and numbers with a fraction or an exponent are kept as they are
written. A code above sixteen bits is spelled in two halves. A half alone spells no character.

No value is deeper, and no list in it longer, than it has characters. What a text spells is
therefore stated for any depth from its length on, and for any text behind it that ends a value.
-/

namespace ScriptLex.Json

/-! ## The reader -/

inductive Value where
  | null
  | boolean (b : Bool)
  | integer (n : Int)
  /-- A number with a fraction or an exponent. -/
  | real (written : Text)
  | string (t : Text)
  | array (items : List Value)
  | object (members : List (Text × Value))

def isSpace (c : Char) : Bool := c = ' ' || c = '\t' || c = '\n' || c = '\r'

def skipSpace (t : Text) : Text := t.dropWhile isSpace

/-- What a letter stands for behind a backslash. -/
def ofLetter? (c : Char) : Option Char :=
  if c = '\x22' ∨ c = '\\' ∨ c = '/' then some c
  else if c = 'b' then some '\x08'
  else if c = 'f' then some '\x0c'
  else if c = 'n' then some '\n'
  else if c = 'r' then some '\r'
  else if c = 't' then some '\t'
  else none

/-- A unit of sixteen bits that is the first half of a code. -/
def isFirstHalf (n : Nat) : Bool := 0xd800 ≤ n && n < 0xdc00

/-- The second half of a code, whose unit is escaped like the first. -/
def secondHalf? : Text → Option (Nat × Text)
  | '\\' :: 'u' :: t =>
    match Hex.take? 4 t with
    | some (n, rest) => if 0xdc00 ≤ n ∧ n < 0xe000 then some (n, rest) else none
    | none => none
  | _ => none

/-- The character of a unit, or of a first half and the second half behind it. -/
def ofUnit? (n : Nat) (t : Text) : Option (Char × Text) :=
  if isFirstHalf n then
    match secondHalf? t with
    | some (m, rest) =>
      (charOf? (0x10000 + (n - 0xd800) * 0x400 + (m - 0xdc00))).map fun c => (c, rest)
    | none => none
  else (charOf? n).map fun c => (c, t)

/-- What follows a backslash. -/
def unescape? : Text → Option (Char × Text)
  | [] => none
  | c :: t =>
    if c = 'u' then
      match Hex.take? 4 t with
      | some (n, rest) => ofUnit? n rest
      | none => none
    else (ofLetter? c).map fun x => (x, t)

theorem length_le_of_secondHalf? {n : Nat} {t rest : Text} (h : secondHalf? t = some (n, rest)) :
    rest.length ≤ t.length := by
  unfold secondHalf? at h
  split at h
  next t =>
    split at h
    next m behind htake =>
      split at h
      next =>
        obtain ⟨-, rfl⟩ := Prod.mk.inj (Option.some.inj h)
        have hle := Hex.length_le_of_take? htake
        simp only [List.length_cons]
        omega
      next => cases h
    next => cases h
  next => cases h

theorem length_le_of_ofUnit? {n : Nat} {t rest : Text} {c : Char}
    (h : ofUnit? n t = some (c, rest)) : rest.length ≤ t.length := by
  unfold ofUnit? at h
  split at h
  next =>
    split at h
    next m behind hsecond =>
      obtain ⟨x, -, hpair⟩ := Option.map_eq_some_iff.mp h
      obtain ⟨-, rfl⟩ := Prod.mk.inj hpair
      exact length_le_of_secondHalf? hsecond
    next => cases h
  next =>
    obtain ⟨x, -, hpair⟩ := Option.map_eq_some_iff.mp h
    obtain ⟨-, rfl⟩ := Prod.mk.inj hpair
    exact Nat.le_refl _

theorem length_lt_of_unescape? {t rest : Text} {c : Char}
    (h : unescape? t = some (c, rest)) : rest.length < t.length := by
  cases t with
  | nil => cases h
  | cons x t =>
      rw [unescape?] at h
      split at h
      next =>
        split at h
        next n behind htake =>
          exact Nat.lt_succ_of_le
            (Nat.le_trans (length_le_of_ofUnit? h) (Hex.length_le_of_take? htake))
        next => cases h
      next =>
        obtain ⟨y, -, hpair⟩ := Option.map_eq_some_iff.mp h
        obtain ⟨-, rfl⟩ := Prod.mk.inj hpair
        exact Nat.lt_succ_self _

/-- One character of a string. Control characters have to be escaped. -/
def charReader : CharReader where
  read?
    | [] => none
    | c :: t =>
      if c = '\\' then unescape? t
      else if c < ' ' then none
      else some (c, t)
  length_lt := by
    intro t c rest h
    cases t with
    | nil => cases h
    | cons x t =>
        dsimp only at h
        split at h
        next => exact Nat.lt_succ_of_lt (length_lt_of_unescape? h)
        next =>
          split at h
          next => cases h
          next =>
            obtain ⟨-, rfl⟩ := Prod.mk.inj (Option.some.inj h)
            exact Nat.lt_succ_self _

/-- The characters of a string, behind its first quote, and the text behind its last. -/
def stringBody? (t : Text) : Option (Text × Text) := charReader.upTo? '\x22' t

/-- What follows digits, of which there is one at least. -/
def afterDigits? (t : Text) : Option Text :=
  if t.takeWhile Char.isDigit = [] then none else some (t.dropWhile Char.isDigit)

def afterMinus : Text → Text
  | '-' :: t => t
  | t => t

def afterSign : Text → Text
  | '+' :: t => t
  | t => afterMinus t

/-- What follows the digits before the point: no zero stands before another digit. -/
def afterWhole? : Text → Option Text
  | '0' :: t => some t
  | t => afterDigits? t

/-- What follows a fraction, which may be left out. -/
def afterFraction? : Text → Option Text
  | '.' :: t => afterDigits? t
  | t => some t

/-- What follows an exponent, which may be left out. -/
def afterExponent? : Text → Option Text
  | [] => some []
  | c :: t =>
    if c = 'e' ∨ c = 'E' then afterDigits? (afterSign t) else some (c :: t)

def number? (t : Text) : Option (Value × Text) := do
  let behind ← afterWhole? (afterMinus t)
  let rest ← afterExponent? (← afterFraction? behind)
  let written := t.take (t.length - rest.length)
  if rest.length = behind.length then
    let n ← Decimal.read? written
    return (.integer n, rest)
  else return (.real written, rest)

/-- The values that are words. -/
def words : List (Text × Value) :=
  [("null", .null), ("true", .boolean true), ("false", .boolean false)]

def word? (t : Text) : Option (Value × Text) :=
  words.findSome? fun (word, v) =>
    if word.isPrefixOf t then some (v, t.drop word.length) else none

/-- A value that is neither an array nor an object. -/
def scalar? : Text → Option (Value × Text)
  | '\x22' :: t => (stringBody? t).map fun (s, rest) => (.string s, rest)
  | t => (word? t).or (number? t)

/-- The name of a member, and the text behind the colon. -/
def key? (t : Text) : Option (Text × Text) :=
  match skipSpace t with
  | '\x22' :: t =>
    match stringBody? t with
    | some (key, t) =>
      match skipSpace t with
      | ':' :: t => some (key, t)
      | _ => none
    | none => none
  | _ => none

/-- A member of an object, the value of which is read by `value?`. -/
def member? (value? : Text → Option (Value × Text)) (t : Text) :
    Option ((Text × Value) × Text) :=
  match key? t with
  | none => none
  | some (key, t) => (value? t).map fun (v, rest) => ((key, v), rest)

/-- Elements up to the end of a list of them, with commas between them. There is one at least. -/
def sequence? {α : Type} (element? : Text → Option (α × Text)) (close : Char) :
    (steps : Nat) → Text → Option (List α × Text)
  | 0, _ => none
  | steps + 1, t =>
    match element? t with
    | none => none
    | some (x, t) =>
      match skipSpace t with
      | [] => none
      | c :: t =>
        if c = close then some ([x], t)
        else if c = ',' then
          (sequence? element? close steps t).map fun (xs, rest) => (x :: xs, rest)
        else none

/-- The elements of a list, behind its first bracket. -/
def elements? {α : Type} (element? : Text → Option (α × Text)) (close : Char) (t : Text) :
    Option (List α × Text) :=
  match skipSpace t with
  | [] => none
  | c :: rest =>
    if c = close then some ([], rest) else sequence? element? close (t.length + 1) t

/-- A value behind the space in front of it, and the text behind it. The depth is that of the
arrays and objects in one another. -/
def value? : (depth : Nat) → Text → Option (Value × Text)
  | 0, _ => none
  | depth + 1, t =>
    match skipSpace t with
    | [] => none
    | c :: t =>
      if c = '[' then
        (elements? (value? depth) ']' t).map fun (items, rest) => (.array items, rest)
      else if c = '\x7b' then
        (elements? (member? (value? depth)) '\x7d' t).map fun (members, rest) =>
          (.object members, rest)
      else scalar? (c :: t)

/-- The value of a text that has nothing but space behind it. -/
def parse (t : Text) : Option Value :=
  match value? (t.length + 1) t with
  | some (v, rest) => if skipSpace rest = [] then some v else none
  | none => none

/-! ## Strings -/

theorem read?_backslash (t : Text) : charReader.read? ('\\' :: t) = unescape? t := rfl

theorem read?_letter {c x : Char} (hcode : c ≠ 'u') (hletter : ofLetter? c = some x) (t : Text) :
    charReader.read? ('\\' :: c :: t) = some (x, t) := by
  rw [read?_backslash, unescape?, if_neg hcode, hletter, Option.map_some]

theorem read?_plain {c : Char} (hslash : c ≠ '\\') (hcontrol : ¬ c < ' ') (t : Text) :
    charReader.read? (c :: t) = some (c, t) := by
  show (if c = '\\' then unescape? t else if c < ' ' then none else some (c, t)) = _
  rw [if_neg hslash, if_neg hcontrol]

theorem read?_unitEscape {n : Nat} (h : n < 16 ^ 4) (t : Text) :
    charReader.read? (unitEscape n ++ t) = ofUnit? n t := by
  rw [unitEscape, List.cons_append, List.cons_append, read?_backslash, unescape?, if_pos rfl,
    Hex.take?_fixed h]

/-- No character has a half for its code. -/
theorem ofUnit?_toNat (c : Char) (t : Text) : ofUnit? c.toNat t = some (c, t) := by
  have hvalid : c.toNat.isValidChar := c.valid
  have hwhole : isFirstHalf c.toNat = false := by
    simp only [Nat.isValidChar] at hvalid
    simp only [isFirstHalf, Bool.and_eq_false_iff, decide_eq_false_iff_not]
    omega
  rw [ofUnit?, hwhole, charOf?_toNat]
  rfl

theorem secondHalf?_unitEscape {n : Nat} (hle : 0xdc00 ≤ n) (hlt : n < 0xe000) (t : Text) :
    secondHalf? (unitEscape n ++ t) = some (n, t) := by
  have htake : Hex.take? 4 (Hex.fixed 4 n ++ t) = some (n, t) := Hex.take?_fixed (by omega) t
  rw [unitEscape, List.cons_append, List.cons_append, secondHalf?, htake]
  simp only [hle, hlt, and_self, if_true]

/-- Two halves make a character. -/
theorem read?_halves {c : Char} (h : 0x10000 ≤ c.toNat) (t : Text) :
    charReader.read? (unitEscape (0xd800 + (c.toNat - 0x10000) / 0x400) ++
      (unitEscape (0xdc00 + (c.toNat - 0x10000) % 0x400) ++ t)) = some (c, t) := by
  have hvalid : c.toNat.isValidChar := c.valid
  simp only [Nat.isValidChar] at hvalid
  have hfirst : isFirstHalf (0xd800 + (c.toNat - 0x10000) / 0x400) = true := by
    simp only [isFirstHalf, Bool.and_eq_true, decide_eq_true_eq]
    omega
  have hcode : 0x10000 + (0xd800 + (c.toNat - 0x10000) / 0x400 - 0xd800) * 0x400 +
      (0xdc00 + (c.toNat - 0x10000) % 0x400 - 0xdc00) = c.toNat := by omega
  rw [read?_unitEscape (by omega), ofUnit?, if_pos hfirst,
    secondHalf?_unitEscape (by omega) (by omega)]
  simp only [hcode, charOf?_toNat, Option.map_some]

/-- The ways to write a character. -/
inductive Written (c : Char) : Text → Prop where
  | letter {x : Char} (hcode : x ≠ 'u') (hletter : ofLetter? x = some c) (hx : x.toNat < 128) :
      Written c ['\\', x]
  | plain (hquote : c ≠ '\x22') (hslash : c ≠ '\\') (hcontrol : ' ' ≤ c) (hc : c.toNat < 128) :
      Written c [c]
  | unit (hc : c.toNat < 0x10000) : Written c (unitEscape c.toNat)
  | halves (hc : 0x10000 ≤ c.toNat) :
      Written c (unitEscape (0xd800 + (c.toNat - 0x10000) / 0x400) ++
        unitEscape (0xdc00 + (c.toNat - 0x10000) % 0x400))

theorem written_escape (c : Char) : Written c (escape c) := by
  unfold escape
  split
  next h =>
    rcases h with rfl | rfl
    · exact .letter (by decide) rfl (by decide)
    · exact .letter (by decide) rfl (by decide)
  next hself =>
  split
  next h => exact .letter (by decide) (by rw [h]; rfl) (by decide)
  next =>
  split
  next h => exact .letter (by decide) (by rw [h]; rfl) (by decide)
  next =>
  split
  next h => exact .letter (by decide) (by rw [h]; rfl) (by decide)
  next =>
  split
  next h => exact .letter (by decide) (by rw [h]; rfl) (by decide)
  next =>
  split
  next h => exact .letter (by decide) (by rw [h]; rfl) (by decide)
  next =>
  split
  next h =>
    have htilde : c.toNat ≤ '~'.toNat := h.2
    exact .plain (fun hquote => hself (.inl hquote)) (fun hslash => hself (.inr hslash)) h.1
      (Nat.lt_of_le_of_lt htilde (by decide))
  next =>
  split
  next h => exact .unit h
  next h => exact .halves (Nat.le_of_not_lt h)

/-- A character is read for what it is, -/
theorem read?_escape (c : Char) (t : Text) :
    charReader.read? (escape c ++ t) = some (c, t) := by
  have hwritten := written_escape c
  generalize escape c = w at hwritten ⊢
  cases hwritten with
  | letter hcode hletter _ => exact read?_letter hcode hletter t
  | plain _ hslash hcontrol _ => exact read?_plain hslash (Char.not_lt.mpr hcontrol) t
  | unit hc => rw [read?_unitEscape (by omega), ofUnit?_toNat]
  | halves hc => rw [List.append_assoc, read?_halves hc]

/-- and what is written for it does not start like the end of the string. -/
theorem head?_escape (c : Char) : (escape c).head? ≠ some '\x22' := by
  have hwritten := written_escape c
  generalize escape c = w at hwritten ⊢
  cases hwritten with
  | plain hquote _ _ _ => exact fun h => hquote (Option.some.inj h)
  | letter | unit | halves => exact fun h => absurd (Option.some.inj h) (by decide)

theorem stringBody?_flatMap (t rest : Text) :
    stringBody? (t.flatMap escape ++ '\x22' :: rest) = some (t, rest) :=
  CharReader.upTo?_flatMap (fun c _ => read?_escape c) (fun c _ => head?_escape c) rest

/-! ## Numbers -/

/-- What can stand right behind a value. -/
def isStop (c : Char) : Bool := isSpace c || c = ',' || c = ']' || c = '\x7d'

/-- The text does not go on with the value in front of it. -/
def Stops (rest : Text) : Prop := ∀ c ∈ rest.head?, isStop c = true

theorem Stops.afterFraction? {rest : Text} (h : Stops rest) : afterFraction? rest = some rest := by
  unfold Json.afterFraction?
  split
  next t => exact absurd (h '.' rfl) (by decide)
  next => rfl

theorem Stops.afterExponent? {rest : Text} (h : Stops rest) : afterExponent? rest = some rest := by
  cases rest with
  | nil => rfl
  | cons c t =>
      have hne : ¬ (c = 'e' ∨ c = 'E') := by
        rintro (rfl | rfl)
        · exact absurd (h 'e' rfl) (by decide)
        · exact absurd (h 'E' rfl) (by decide)
      rw [Json.afterExponent?, if_neg hne]

theorem isDigit_of_isStop {c : Char} (h : isStop c = true) : c.isDigit = false := by
  simp only [isStop, isSpace, Bool.or_eq_true, decide_eq_true_eq] at h
  rcases h with ((((((rfl | rfl) | rfl) | rfl) | rfl) | rfl) | rfl) <;> decide

theorem Stops.afterWhole? {rest : Text} (h : Stops rest) (n : Nat) :
    afterWhole? (Decimal.ofNat n ++ rest) = some rest := by
  by_cases hn : n = 0
  · rw [hn]
    rfl
  · have hrun : Text.Run Char.isDigit (Decimal.ofNat n) rest :=
      ⟨fun c hc => Decimal.isDigit_of_mem_ofNat hc, fun c hc => isDigit_of_isStop (h c hc)⟩
    have hzero : ∀ t, Decimal.ofNat n ++ rest = '0' :: t → False := by
      intro t ht
      apply Decimal.head?_ofNat_ne_zero hn
      rw [← Decimal.head?_ofNat_append n rest, ht]
      rfl
    rw [Json.afterWhole?.eq_2 _ hzero, afterDigits?, hrun.takeWhile_eq, hrun.dropWhile_eq,
      if_neg (Decimal.ofNat_ne_nil n)]

theorem afterMinus_ofNat_append (n : Nat) (rest : Text) :
    afterMinus (Decimal.ofNat n ++ rest) = Decimal.ofNat n ++ rest := by
  apply afterMinus.eq_2
  intro t ht
  have hhead : (Decimal.ofNat n).head? = some '-' := by
    rw [← Decimal.head?_ofNat_append n rest, ht]
    rfl
  exact absurd (Decimal.isDigit_of_mem_ofNat (List.mem_of_head? hhead)) (by decide)

theorem number?_ofInt {rest : Text} (h : Stops rest) (n : Int) :
    number? (Decimal.ofInt n ++ rest) = some (.integer n, rest) := by
  have hwhole : afterWhole? (afterMinus (Decimal.ofInt n ++ rest)) = some rest := by
    cases n with
    | ofNat n => rw [Decimal.ofInt, afterMinus_ofNat_append, h.afterWhole?]
    | negSucc n => exact h.afterWhole? (n + 1)
  have hwritten : (Decimal.ofInt n ++ rest).take
      ((Decimal.ofInt n ++ rest).length - rest.length) = Decimal.ofInt n := by
    rw [List.length_append, Nat.add_sub_cancel, List.take_left]
  simp only [number?, hwhole, h.afterFraction?, h.afterExponent?, Option.bind_eq_bind,
    Option.bind_some, hwritten, Decimal.read?_ofInt, if_true, Option.pure_def]

/-! ## Values -/

/-- The text is a way to write the value: wherever the value ends behind it, it is read as that,
and all of it is. -/
def Spells (t : Text) (v : Value) : Prop :=
  ∀ (depth : Nat) (rest : Text), t.length ≤ depth → Stops rest →
    value? depth (t ++ rest) = some (v, rest)

theorem skipSpace_append {w : Text} (hw : w.all isSpace = true) (t : Text) :
    skipSpace (w ++ t) = skipSpace t :=
  List.dropWhile_append_of_pos (List.all_eq_true.mp hw)

theorem skipSpace_cons {c : Char} (hc : isSpace c = false) (t : Text) :
    skipSpace (c :: t) = c :: t :=
  List.dropWhile_cons_of_neg (by simp [hc])

theorem Spells.space {w t : Text} {v : Value} (h : Spells t v) (hw : w.all isSpace = true) :
    Spells (w ++ t) v := by
  intro depth rest hle hrest
  rw [List.length_append] at hle
  have hread := h depth rest (by omega) hrest
  cases depth with
  | zero => exact absurd hread (by simp [value?])
  | succ depth =>
      rw [value?] at hread
      rw [List.append_assoc, value?, skipSpace_append hw, hread]

/-- A text that starts like no array and no object. -/
theorem spells_scalar {c : Char} {t : Text} {v : Value} (hspace : isSpace c = false)
    (harray : c ≠ '[') (hobject : c ≠ '\x7b')
    (h : ∀ rest, Stops rest → scalar? (c :: t ++ rest) = some (v, rest)) : Spells (c :: t) v := by
  intro depth rest hle hrest
  cases depth with
  | zero => exact absurd hle (by simp)
  | succ depth =>
      have hread := h rest hrest
      rw [List.cons_append] at hread ⊢
      rw [value?, skipSpace_cons hspace]
      simp only [harray, hobject, if_false, hread]

theorem spells_null : Spells "null" .null := by
  apply spells_scalar (c := 'n') (by decide) (by decide) (by decide)
  intro rest hrest
  rfl

theorem spells_string (t : Text) : Spells (string t) (.string t) := by
  show Spells ('\x22' :: (t.flatMap escape ++ ['\x22'])) _
  apply spells_scalar (by decide) (by decide) (by decide)
  intro rest hrest
  rw [List.cons_append, scalar?, List.append_assoc, List.singleton_append, stringBody?_flatMap]
  rfl

/-- What starts a numeral starts nothing else. -/
theorem ne_of_numeral {c x : Char} (hc : c = '-' ∨ c.isDigit = true)
    (hx : ¬ (x = '-' ∨ x.isDigit = true)) : c ≠ x := by
  rintro rfl
  exact hx hc

theorem scalar?_number {c : Char} (hc : c = '-' ∨ c.isDigit = true) (t : Text) :
    scalar? (c :: t) = number? (c :: t) := by
  have hn : 'n' ≠ c := (ne_of_numeral hc (by decide)).symm
  have ht : 't' ≠ c := (ne_of_numeral hc (by decide)).symm
  have hf : 'f' ≠ c := (ne_of_numeral hc (by decide)).symm
  have hword : word? (c :: t) = none := by simp [word?, words, hn, ht, hf]
  have hquote : ∀ u, c :: t = '\x22' :: u → False := by
    intro u hu
    exact ne_of_numeral hc (by decide) (List.cons.inj hu).1
  rw [scalar?.eq_2 _ hquote, hword, Option.none_or]

theorem spells_integer (n : Int) : Spells (Decimal.ofInt n) (.integer n) := by
  obtain ⟨c, t, hcons⟩ := List.exists_cons_of_ne_nil (Decimal.ofInt_ne_nil n)
  have hc : c = '-' ∨ c.isDigit = true := by
    apply Decimal.mem_ofInt (n := n)
    rw [hcons]
    exact List.mem_cons_self
  have hspace : isSpace c = false := by
    have hblank : c ≠ ' ' := ne_of_numeral hc (by decide)
    have htab : c ≠ '\t' := ne_of_numeral hc (by decide)
    have hfeed : c ≠ '\n' := ne_of_numeral hc (by decide)
    have hreturn : c ≠ '\r' := ne_of_numeral hc (by decide)
    simp [isSpace, hblank, htab, hfeed, hreturn]
  rw [hcons]
  refine spells_scalar hspace (ne_of_numeral hc (by decide)) (ne_of_numeral hc (by decide)) ?_
  intro rest hrest
  rw [List.cons_append, scalar?_number hc, ← List.cons_append, ← hcons, number?_ofInt hrest]

/-! ## Arrays and objects -/

/-- A bracket that ends a list, with or without space in front of it, ends its last element. -/
theorem stops_append {w : Text} {close : Char} (hw : w.all isSpace = true)
    (hclose : isStop close = true) (rest : Text) : Stops (w ++ close :: rest) := by
  cases w with
  | nil =>
      intro c hc
      obtain rfl : close = c := by simpa using hc
      exact hclose
  | cons x w =>
      intro c hc
      obtain rfl : x = c := by simpa using hc
      have hx := List.all_eq_true.mp hw x List.mem_cons_self
      simp [isStop, hx]

theorem length_le_of_mem_intercalate {t : Text} {ts : List Text} (h : t ∈ ts) :
    t.length ≤ (List.intercalate [','] ts).length := by
  induction ts with
  | nil => cases h
  | cons u ts ih =>
      cases ts with
      | nil =>
          obtain rfl := List.mem_singleton.mp h
          rw [List.intercalate_singleton]
      | cons v ts =>
          rw [List.intercalate_cons_cons, List.length_append, List.length_append]
          rcases List.mem_cons.mp h with rfl | h
          · omega
          · have hle := ih h
            omega

theorem length_le_intercalate {α : Type} (xs : List (Text × α)) :
    xs.length ≤ (List.intercalate [','] (xs.map Prod.fst)).length + 1 := by
  induction xs with
  | nil => exact Nat.zero_le _
  | cons x xs ih =>
      cases xs with
      | nil => exact Nat.le_add_left 1 _
      | cons y xs =>
          rw [List.map_cons, List.map_cons, List.intercalate_cons_cons, ← List.map_cons]
          simp only [List.length_append, List.length_cons, List.length_nil] at ih ⊢
          omega

section Lists

variable {α : Type} {element? : Text → Option (α × Text)} {close : Char} {w : Text}

/-- An element of a list as it is written: it is read for what it is wherever it ends, and it does
not start like the end of the list. -/
structure IsElement (element? : Text → Option (α × Text)) (close : Char) (t : Text) (x : α) :
    Prop where
  read : ∀ rest, Stops rest → element? (t ++ rest) = some (x, rest)
  start : ∀ rest, Stops rest → ∃ c u, c ≠ close ∧ skipSpace (t ++ rest) = c :: u

/-- A bracket that ends a list. -/
structure IsClose (close : Char) : Prop where
  stop : isStop close = true
  space : isSpace close = false
  ne_comma : close ≠ ','

/-- The first element ends at a comma or at the bracket. -/
theorem exists_stops_intercalate (hclose : IsClose close) (hw : w.all isSpace = true)
    (x : Text × α) (xs : List (Text × α)) (rest : Text) :
    ∃ r, Stops r ∧ List.intercalate [','] ((x :: xs).map Prod.fst) ++ (w ++ close :: rest) =
      x.1 ++ r := by
  cases xs with
  | nil =>
      refine ⟨_, stops_append hw hclose.stop rest, ?_⟩
      rw [List.map_singleton, List.intercalate_singleton]
  | cons y xs =>
      refine ⟨',' :: (List.intercalate [','] ((y :: xs).map Prod.fst) ++ (w ++ close :: rest)),
        stops_append (w := []) rfl rfl _, ?_⟩
      rw [List.map_cons, List.map_cons, List.intercalate_cons_cons, List.append_assoc,
        List.append_assoc, List.singleton_append]

theorem sequence?_intercalate (hclose : IsClose close) (hw : w.all isSpace = true)
    {xs : List (Text × α)} (hne : xs ≠ []) (hxs : ∀ x ∈ xs, IsElement element? close x.1 x.2)
    {steps : Nat} (hsteps : xs.length ≤ steps) (rest : Text) :
    sequence? element? close steps
      (List.intercalate [','] (xs.map Prod.fst) ++ (w ++ close :: rest)) =
        some (xs.map Prod.snd, rest) := by
  induction xs generalizing steps with
  | nil => exact absurd rfl hne
  | cons x xs ih =>
      have hx := (hxs x List.mem_cons_self).read
      cases steps with
      | zero => exact absurd hsteps (by simp)
      | succ steps =>
          cases xs with
          | nil =>
              rw [List.map_singleton, List.intercalate_singleton, sequence?,
                hx _ (stops_append hw hclose.stop rest)]
              simp only [skipSpace_append hw, skipSpace_cons hclose.space, if_true,
                List.map_singleton]
          | cons y xs =>
              have hrest := ih (by simp) (fun z hz => hxs z (List.mem_cons_of_mem x hz))
                (Nat.le_of_succ_le_succ hsteps)
              have hstop : ∀ u, Stops (',' :: u) := stops_append (w := []) rfl rfl
              rw [List.map_cons, List.map_cons, List.intercalate_cons_cons, ← List.map_cons,
                List.append_assoc, List.append_assoc, List.singleton_append, sequence?,
                hx _ (hstop _)]
              simp only [skipSpace_cons (c := ',') rfl, Ne.symm hclose.ne_comma, if_false, if_true]
              rw [hrest]
              rfl

theorem elements?_intercalate (hclose : IsClose close) (hw : w.all isSpace = true)
    {xs : List (Text × α)} (hne : xs ≠ []) (hxs : ∀ x ∈ xs, IsElement element? close x.1 x.2)
    (rest : Text) :
    elements? element? close (List.intercalate [','] (xs.map Prod.fst) ++ (w ++ close :: rest)) =
      some (xs.map Prod.snd, rest) := by
  obtain ⟨c, u, hc, hskip⟩ : ∃ c u, c ≠ close ∧
      skipSpace (List.intercalate [','] (xs.map Prod.fst) ++ (w ++ close :: rest)) = c :: u := by
    obtain ⟨x, ys, rfl⟩ := List.exists_cons_of_ne_nil hne
    obtain ⟨r, hr, heq⟩ := exists_stops_intercalate hclose hw x ys rest
    rw [heq]
    exact (hxs x List.mem_cons_self).start r hr
  have hsteps := length_le_intercalate xs
  rw [elements?, hskip]
  simp only [hc, if_false]
  apply sequence?_intercalate hclose hw hne hxs
  rw [List.length_append]
  omega

end Lists

/-- No value starts like the end of a list. -/
theorem Spells.start {t rest : Text} {v : Value} (h : Spells t v) (hrest : Stops rest) :
    ∃ c u, c ≠ ']' ∧ skipSpace (t ++ rest) = c :: u := by
  have hread := h (t.length + 1) rest (Nat.le_succ _) hrest
  rw [value?] at hread
  cases hskip : skipSpace (t ++ rest) with
  | nil =>
      rw [hskip] at hread
      cases hread
  | cons c u =>
      refine ⟨c, u, ?_, rfl⟩
      rintro rfl
      rw [hskip] at hread
      dsimp only at hread
      have hnone : scalar? (']' :: u) = none := rfl
      rw [if_neg (by decide), if_neg (by decide), hnone] at hread
      cases hread

theorem spells_empty_array : Spells "[]" (.array []) := by
  intro depth rest hle hrest
  cases depth with
  | zero => exact absurd hle (by decide)
  | succ depth => rfl

theorem spells_array {w : Text} (hw : w.all isSpace = true) {xs : List (Text × Value)}
    (hne : xs ≠ []) (hxs : ∀ x ∈ xs, Spells x.1 x.2) :
    Spells ('[' :: List.intercalate [','] (xs.map Prod.fst) ++ w ++ [']'])
      (.array (xs.map Prod.snd)) := by
  intro depth rest hle hrest
  cases depth with
  | zero => exact absurd hle (by simp)
  | succ depth =>
      have helements : ∀ x ∈ xs, IsElement (value? depth) ']' x.1 x.2 := by
        intro x hx
        have hshort := length_le_of_mem_intercalate (List.mem_map_of_mem (f := Prod.fst) hx)
        simp only [List.length_append, List.length_cons] at hle
        exact ⟨fun rest => hxs x hx depth rest (by omega), fun rest => (hxs x hx).start⟩
      rw [List.append_assoc, List.append_assoc, List.cons_append, List.singleton_append, value?,
        skipSpace_cons (by decide)]
      simp only [if_true]
      rw [elements?_intercalate ⟨by decide, by decide, by decide⟩ hw hne helements]
      rfl

theorem member_append (name text rest : Text) :
    member name text ++ rest = "\n    ".toList ++
      ('\x22' :: (name.flatMap escape ++ '\x22' :: ':' :: (' ' :: text ++ rest))) := by
  have hcolon : (": " : Text) = [':', ' '] := by decide
  delta member string
  rw [hcolon]
  simp only [List.append_assoc, List.cons_append, List.nil_append]

theorem key?_member (name text rest : Text) :
    key? (member name text ++ rest) = some (name, ' ' :: text ++ rest) := by
  rw [member_append, key?, skipSpace_append (by decide), skipSpace_cons (by decide)]
  simp only [stringBody?_flatMap]
  rfl

theorem isElement_member {depth : Nat} {name text : Text} {v : Value} (h : Spells text v)
    (hle : (member name text).length ≤ depth) :
    IsElement (member? (value? depth)) '\x7d' (member name text) (name, v) where
  read rest hrest := by
    have hvalue : Spells (' ' :: text) v := h.space (w := [' ']) (by decide)
    have hshort : (' ' :: text).length ≤ depth := by
      have hlength := congrArg List.length (member_append name text [])
      simp only [List.append_nil, List.length_append, List.length_cons] at hlength ⊢
      omega
    rw [member?, key?_member]
    dsimp only
    rw [hvalue depth rest hshort hrest]
    rfl
  start rest _ := by
    rw [member_append, skipSpace_append (by decide), skipSpace_cons (by decide)]
    exact ⟨_, _, by decide, rfl⟩

theorem spells_object {w : Text} (hw : w.all isSpace = true) {xs : List (Text × Text × Value)}
    (hne : xs ≠ []) (hxs : ∀ x ∈ xs, Spells x.2.1 x.2.2) :
    Spells ('\x7b' :: List.intercalate [','] (xs.map fun x => member x.1 x.2.1) ++ w ++ ['\x7d'])
      (.object (xs.map fun x => (x.1, x.2.2))) := by
  intro depth rest hle hrest
  cases depth with
  | zero => exact absurd hle (by simp)
  | succ depth =>
      -- the members as elements: how each is written, and its name with its value
      let ys : List (Text × (Text × Value)) := xs.map fun x => (member x.1 x.2.1, (x.1, x.2.2))
      have hfst : xs.map (fun x => member x.1 x.2.1) = ys.map Prod.fst := by simp [ys]
      have hsnd : xs.map (fun x => (x.1, x.2.2)) = ys.map Prod.snd := by simp [ys]
      have helements : ∀ y ∈ ys, IsElement (member? (value? depth)) '\x7d' y.1 y.2 := by
        intro y hy
        obtain ⟨x, hx, rfl⟩ := List.mem_map.mp hy
        have hshort := length_le_of_mem_intercalate
          (List.mem_map_of_mem (f := fun x => member x.1 x.2.1) hx)
        simp only [List.length_append, List.length_cons] at hle
        exact isElement_member (hxs x hx) (by omega)
      rw [hfst, hsnd, List.append_assoc, List.append_assoc, List.cons_append,
        List.singleton_append, value?, skipSpace_cons (by decide)]
      simp only [if_true]
      rw [elements?_intercalate ⟨by decide, by decide, by decide⟩ hw (by simpa [ys] using hne)
        helements]
      rfl

/-- **What a text spells is what is read.** Space may stand behind it. -/
theorem Spells.parse {t w : Text} {v : Value} (h : Spells t v) (hw : w.all isSpace = true) :
    parse (t ++ w) = some v := by
  have hstop : Stops w := by
    intro c hc
    have hspace := List.all_eq_true.mp hw c (List.mem_of_head? hc)
    simp [isStop, hspace]
  have hskip : skipSpace w = [] := List.dropWhile_eq_nil_iff.mpr (List.all_eq_true.mp hw)
  have hle : t.length ≤ (t ++ w).length + 1 := by
    rw [List.length_append]
    omega
  rw [Json.parse, h _ w hle hstop]
  simp only [hskip, if_true]

end ScriptLex.Json
