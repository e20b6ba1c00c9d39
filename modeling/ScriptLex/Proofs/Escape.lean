import ScriptLex.Proofs.Numeral
import ScriptLex.Text.Quoted

/-!
# Reading escaped text

A text between delimiters is written character by character. It is read back in the same way,
whatever the escapes are, as long as every written character is read for what it is and none of
them starts with the delimiter. Quoted text is one such form.
-/

namespace ScriptLex

/-- The character with a code, if there is one. -/
def charOf? (n : Nat) : Option Char := if n.isValidChar then some (Char.ofNat n) else none

theorem charOf?_toNat (c : Char) : charOf? c.toNat = some c := by
  have hvalid : c.toNat.isValidChar := c.valid
  rw [charOf?, if_pos hvalid, Char.ofNat_toNat]

/-! ## Written characters -/

/-- Takes a written character off a text: a character that stands for itself, or an escape. -/
structure CharReader where
  read? : Text → Option (Char × Text)
  length_lt : ∀ {t : Text} {c : Char} {rest : Text}, read? t = some (c, rest) →
    rest.length < t.length

namespace CharReader

/-- The characters up to a delimiter, and the text behind it. -/
def upTo? (r : CharReader) (delim : Char) : Text → Option (Text × Text)
  | [] => none
  | c :: t =>
    if c = delim then some ([], t)
    else
      match _split : r.read? (c :: t) with
      | none => none
      | some (x, rest) => (upTo? r delim rest).map fun (value, behind) => (x :: value, behind)
termination_by t => t.length
decreasing_by exact r.length_lt _split

variable {r : CharReader} {delim : Char} {write : Char → Text}

theorem upTo?_append {c : Char} {written : Text}
    (hread : ∀ rest, r.read? (written ++ rest) = some (c, rest))
    (hdelim : written.head? ≠ some delim) (rest : Text) :
    r.upTo? delim (written ++ rest) =
      (r.upTo? delim rest).map fun (value, behind) => (c :: value, behind) := by
  cases written with
  | nil =>
      -- what takes no character off is no reader
      have hlt := r.length_lt (hread [])
      exact absurd hlt (Nat.lt_irrefl 0)
  | cons x written =>
      have hx : x ≠ delim := by simpa using hdelim
      have hcons := hread rest
      rw [List.cons_append] at hcons
      rw [List.cons_append, upTo?, if_neg hx]
      split
      next hnone => cases hcons.symm.trans hnone
      next hsome =>
        obtain ⟨rfl, rfl⟩ := Prod.mk.inj (Option.some.inj (hcons.symm.trans hsome))
        rfl

/-- **Written characters are read back.** -/
theorem upTo?_flatMap {t : Text}
    (hread : ∀ c ∈ t, ∀ rest, r.read? (write c ++ rest) = some (c, rest))
    (hdelim : ∀ c ∈ t, (write c).head? ≠ some delim) (rest : Text) :
    r.upTo? delim (t.flatMap write ++ delim :: rest) = some (t, rest) := by
  induction t with
  | nil => rw [List.flatMap_nil, List.nil_append, upTo?, if_pos rfl]
  | cons c t ih =>
      have hread' : ∀ x ∈ t, ∀ rest, r.read? (write x ++ rest) = some (x, rest) :=
        fun x hx => hread x (List.mem_cons_of_mem c hx)
      have hdelim' : ∀ x ∈ t, (write x).head? ≠ some delim :=
        fun x hx => hdelim x (List.mem_cons_of_mem c hx)
      rw [List.flatMap_cons, List.append_assoc,
        upTo?_append (hread c List.mem_cons_self) (hdelim c List.mem_cons_self),
        ih hread' hdelim']
      rfl

end CharReader

/-! ## Quoted text -/

namespace Quoted

/-- The character whose code comes next, in so many digits. -/
def ofCode? (width : Nat) (t : Text) : Option (Char × Text) :=
  match Hex.take? width t with
  | none => none
  | some (n, rest) => (charOf? n).map fun c => (c, rest)

/-- How many digits follow the letter of a code. -/
def codeWidth? (c : Char) : Option Nat :=
  if c = 'x' then some 2
  else if c = 'u' then some 4
  else if c = 'U' then some 8
  else none

/-- What any other character stands for behind a backslash. -/
def ofLetter? (c : Char) : Option Char :=
  if c = 'n' then some '\n'
  else if c = 'r' then some '\r'
  else if c = 't' then some '\t'
  else if c = '\\' ∨ c = apostrophe ∨ c = doubleQuote then some c
  else none

/-- What follows a backslash. -/
def unescape? : Text → Option (Char × Text)
  | [] => none
  | c :: t =>
    match codeWidth? c with
    | some width => ofCode? width t
    | none => (ofLetter? c).map fun x => (x, t)

theorem length_le_of_ofCode? {width : Nat} {t rest : Text} {c : Char}
    (h : ofCode? width t = some (c, rest)) : rest.length ≤ t.length := by
  rw [ofCode?] at h
  split at h
  next => cases h
  next n behind htake =>
    obtain ⟨x, -, hpair⟩ := Option.map_eq_some_iff.mp h
    obtain ⟨-, rfl⟩ := Prod.mk.inj hpair
    exact Hex.length_le_of_take? htake

theorem length_lt_of_unescape? {t rest : Text} {c : Char}
    (h : unescape? t = some (c, rest)) : rest.length < t.length := by
  cases t with
  | nil => cases h
  | cons x t =>
      rw [unescape?] at h
      split at h
      next => exact Nat.lt_succ_of_le (length_le_of_ofCode? h)
      next =>
        obtain ⟨y, -, hpair⟩ := Option.map_eq_some_iff.mp h
        obtain ⟨-, rfl⟩ := Prod.mk.inj hpair
        exact Nat.lt_succ_self _

/-- One character of a quoted text. -/
def charReader : CharReader where
  read?
    | [] => none
    | c :: t => if c = '\\' then unescape? t else some (c, t)
  length_lt := by
    intro t c rest h
    cases t with
    | nil => cases h
    | cons x t =>
        dsimp only at h
        split at h
        next => exact Nat.lt_succ_of_lt (length_lt_of_unescape? h)
        next =>
          obtain ⟨-, rfl⟩ := Prod.mk.inj (Option.some.inj h)
          exact Nat.lt_succ_self _

/-- The text that is quoted, if there is nothing behind it. -/
def read? : Text → Option Text
  | [] => none
  | delim :: t =>
    if delim = apostrophe ∨ delim = doubleQuote then
      match charReader.upTo? delim t with
      | some (value, []) => some value
      | _ => none
    else none

theorem delimiter_eq (t : Text) : delimiter t = apostrophe ∨ delimiter t = doubleQuote := by
  unfold delimiter
  split
  next => exact .inr rfl
  next => exact .inl rfl

theorem read?_backslash (t : Text) : charReader.read? ('\\' :: t) = unescape? t := rfl

theorem read?_plain {c : Char} (hslash : c ≠ '\\') (t : Text) :
    charReader.read? (c :: t) = some (c, t) :=
  if_neg hslash

theorem read?_letter {c x : Char} (hwidth : codeWidth? c = none) (hletter : ofLetter? c = some x)
    (t : Text) : charReader.read? ('\\' :: c :: t) = some (x, t) := by
  rw [read?_backslash, unescape?, hwidth]
  simp only [hletter, Option.map_some]

theorem read?_code {letter c : Char} {width : Nat} (hwidth : codeWidth? letter = some width)
    (hcode : c.toNat < 16 ^ width) (rest : Text) :
    charReader.read? ('\\' :: letter :: Hex.fixed width c.toNat ++ rest) = some (c, rest) := by
  rw [List.cons_append, List.cons_append, read?_backslash, unescape?, hwidth]
  simp only [ofCode?, Hex.take?_fixed hcode, charOf?_toNat, Option.map_some]

theorem read?_codeEscape (c : Char) (rest : Text) :
    charReader.read? (codeEscape c ++ rest) = some (c, rest) := by
  have hcode : c.toNat < 0x110000 := by
    have hvalid : c.toNat.isValidChar := c.valid
    simp only [Nat.isValidChar] at hvalid
    omega
  unfold codeEscape
  split
  next htwo => exact read?_code rfl (by omega) rest
  next =>
    split
    next hfour => exact read?_code rfl (by omega) rest
    next => exact read?_code rfl (by omega) rest

/-- A character is read for what it is, -/
theorem read?_escape {delim : Char} (hdelim : delim = apostrophe ∨ delim = doubleQuote)
    (c : Char) (rest : Text) : charReader.read? (escape delim c ++ rest) = some (c, rest) := by
  have hquote : codeWidth? delim = none ∧ ofLetter? delim = some delim := by
    rcases hdelim with rfl | rfl
    · decide
    · decide
  unfold escape
  split_ifs with hself hfeed hreturn htab hprintable
  · rcases hself with rfl | rfl
    · exact read?_letter hquote.1 hquote.2 rest
    · exact read?_letter rfl rfl rest
  · rw [hfeed]
    exact read?_letter rfl rfl rest
  · rw [hreturn]
    exact read?_letter rfl rfl rest
  · rw [htab]
    exact read?_letter rfl rfl rest
  · exact read?_plain (fun hslash => hself (.inr hslash)) rest
  · exact read?_codeEscape c rest

/-- and what is written for it does not start like the end of the text. -/
theorem head?_escape {delim : Char} (hdelim : delim = apostrophe ∨ delim = doubleQuote)
    (c : Char) : (escape delim c).head? ≠ some delim := by
  have hslash : '\\' ≠ delim := by
    rcases hdelim with rfl | rfl
    · decide
    · decide
  unfold escape codeEscape
  split_ifs with hself
  case pos => simpa using hslash
  all_goals simp_all

/-- **Quoted text is read back.** -/
theorem read?_quote (t : Text) : read? (quote t) = some t := by
  have hdelim := delimiter_eq t
  rw [quote, List.cons_append, read?, if_pos hdelim,
    CharReader.upTo?_flatMap (fun c _ => read?_escape hdelim c) (fun c _ => head?_escape hdelim c)]

/-! ## Quoted text stays on its line -/

theorem lineFeed_notMem_fixed (width n : Nat) : '\n' ∉ Hex.fixed width n := by
  intro h
  obtain ⟨d, hd, hfeed⟩ := Hex.mem_fixed h
  have hne : ∀ d < 16, '\n' ≠ Hex.digit d := by decide
  exact hne d hd hfeed

theorem lineFeed_notMem_escape {delim : Char} (hdelim : delim ≠ '\n') (c : Char) :
    '\n' ∉ escape delim c := by
  unfold escape codeEscape
  split_ifs with hself hfeed
  · rcases hself with rfl | rfl
    · simpa using hdelim.symm
    · decide
  all_goals simp [lineFeed_notMem_fixed, eq_comm, hfeed]

theorem lineFeed_notMem_quote (t : Text) : '\n' ∉ quote t := by
  have hdelim : delimiter t ≠ '\n' := by
    rcases delimiter_eq t with h | h
    · rw [h]
      decide
    · rw [h]
      decide
  have hbody : '\n' ∉ t.flatMap (escape (delimiter t)) := by
    intro h
    obtain ⟨c, -, hc⟩ := List.mem_flatMap.mp h
    exact lineFeed_notMem_escape hdelim c hc
  rw [quote, List.cons_append, List.mem_cons, List.mem_append, List.mem_singleton]
  rintro (h | h | h)
  · exact hdelim h.symm
  · exact hbody h
  · exact hdelim h.symm

end Quoted

end ScriptLex
