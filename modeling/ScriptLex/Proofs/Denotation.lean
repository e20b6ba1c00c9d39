import ScriptLex.Proofs.Boundary
import ScriptLex.Proofs.Trivia

/-!
# What string literals denote

Not every text is the value of a string literal. A backslash comes into a value only in front
of a character that it does not escape, and it brings that character with it. So the
backslashes of a value pair off, from left to right, each with the character behind it. Every
text whose backslashes do so is a value: its pairs stand for themselves in the body, and all
else can be escaped or copied.
-/

namespace ScriptLex

namespace StringLiteral

/-- Read from the left, each backslash that is not yet part of a pair is followed by a character
that it does not escape, and makes a pair with it. -/
def pairsOff (delim : Char) : Text → Bool
  | [] => true
  | c :: v =>
    if c = '\\' then
      match v with
      | [] => false
      | x :: v => x ≠ delim && x ≠ 'n' && x ≠ '#' && pairsOff delim v
    else pairsOff delim v

/-- How a character that belongs to no pair is written. -/
def encodeChar (delim c : Char) : Text :=
  if c = delim then ['\\', delim]
  else if c = '#' then ['\\', '#']
  else if c = '\n' then ['\\', 'n']
  else [c]

/-- A body for a value: its pairs as they are, and every other character so that it denotes
itself. A backslash at the end has no pair, and no body denotes it. -/
def encode (delim : Char) : Text → Text
  | [] => []
  | c :: v =>
    if c = '\\' then
      match v with
      | [] => ['\\']
      | x :: v => '\\' :: x :: encode delim v
    else encodeChar delim c ++ encode delim v

/-- Between two delimiters some text stands that is lexed to this value and nothing more. -/
def Denotable (mode : Mode) (delim : Char) (value : Text) : Prop :=
  ∃ body tokens, tokenize mode (delim :: (body ++ [delim])) = .ok tokens ∧
    tokens.map ValuedToken.shape = [(.stringLiteral, some value), (.endOfInput, none)]

variable {delim c : Char} {body value : Text}

/-! ## Pairs in a value -/

theorem pairsOff_cons (hslash : c ≠ '\\') (v : Text) :
    pairsOff delim (c :: v) = pairsOff delim v := by
  rw [pairsOff.eq_def]
  simp [hslash]

theorem pairsOff_pair (hdelim : c ≠ delim) (hn : c ≠ 'n') (hhash : c ≠ '#') (v : Text) :
    pairsOff delim ('\\' :: c :: v) = pairsOff delim v := by
  rw [pairsOff.eq_def]
  simp [hdelim, hn, hhash]

theorem pairsOff_append {u : Text} (hslash : '\\' ∉ u) (v : Text) :
    pairsOff delim (u ++ v) = pairsOff delim v := by
  induction u with
  | nil => rfl
  | cons c u ih =>
      rw [List.mem_cons, not_or] at hslash
      rw [List.cons_append, pairsOff_cons (Ne.symm hslash.1), ih hslash.2]

/-- A first backslash that escapes something, or nothing at all, stays without a pair. -/
theorem pairsOff_eq_false {u rest : Text} (hslash : '\\' ∉ u)
    (hrest : rest = [] ∨ rest.head? = some 'n' ∨ rest.head? = some '#') :
    pairsOff delim (u ++ '\\' :: rest) = false := by
  rw [pairsOff_append hslash, pairsOff.eq_def]
  rcases hrest with rfl | hhead | hhead
  · rfl
  · obtain ⟨v, rfl⟩ := List.head?_eq_some_iff.mp hhead
    simp
  · obtain ⟨v, rfl⟩ := List.head?_eq_some_iff.mp hhead
    simp

/-- Unit by unit: only a backslash in front of a character that it does not escape puts a
backslash into the value, and with it that character. -/
theorem Body.pairsOff_eq_true (hdelim : isDelimiter delim = true)
    (h : Body delim body value) : pairsOff delim value = true := by
  induction h with
  | nil => rfl
  | plain _ hslash _ _ ih => rw [pairsOff_cons hslash, ih]
  | hash _ ih => rw [pairsOff_cons (by decide), ih]
  | escapedDelim _ ih => rw [pairsOff_cons (delimiter_ne hdelim).1, ih]
  | escapedN _ ih => rw [pairsOff_cons (by decide), ih]
  | escapedHash _ ih => rw [pairsOff_cons (by decide), ih]
  | escapedOther hdelim hn hhash _ ih => rw [pairsOff_pair hdelim hn hhash, ih]

/-! ## Encoding -/

/-- What is written for a character denotes it. -/
theorem Body.encodeChar (hslash : c ≠ '\\') (h : Body delim body value) :
    Body delim (StringLiteral.encodeChar delim c ++ body) (c :: value) := by
  unfold StringLiteral.encodeChar
  by_cases hdelim : c = delim
  · rw [if_pos hdelim, hdelim]
    exact .escapedDelim h
  · by_cases hhash : c = '#'
    · rw [if_neg hdelim, if_pos hhash, hhash]
      exact .escapedHash h
    · by_cases hfeed : c = '\n'
      · rw [if_neg hdelim, if_neg hhash, if_pos hfeed, hfeed]
        exact .escapedN h
      · rw [if_neg hdelim, if_neg hhash, if_neg hfeed]
        exact .plain hdelim hslash hhash h

/-- **Encoding.** Reading undoes it wherever backslashes pair off. -/
theorem body_encode (h : pairsOff delim value = true) :
    Body delim (encode delim value) value := by
  fun_induction encode delim value with
  | case1 => exact .nil
  | case2 => cases h
  | case3 x v ih =>
      rw [pairsOff.eq_def] at h
      simp only [if_true, Bool.and_eq_true, decide_eq_true_eq] at h
      obtain ⟨⟨⟨hdelim, hn⟩, hhash⟩, hv⟩ := h
      exact .escapedOther hdelim hn hhash (ih hv)
  | case4 c v hslash ih =>
      rw [pairsOff_cons hslash] at h
      exact (ih h).encodeChar hslash

/-! ## Literals as sources -/

/-- A literal and nothing else is one token, with the value of its body. -/
theorem Body.tokenize (hdelim : isDelimiter delim = true) (h : Body delim body value)
    (mode : Mode) :
    tokenize mode (delim :: (body ++ [delim])) =
      .ok [⟨⟨.stringLiteral, 1, 1⟩, some value⟩, .endOf (delim :: (body ++ [delim]))] := by
  have hcut : Segment.AllCut mode.joinElseIf []
      [⟨[], delim :: (body ++ [delim]), .stringLiteral, some value⟩] :=
    ⟨⟨.nil, .string hdelim h⟩, trivial⟩
  have htokens := Lexer.tokenize_texts mode hcut
  rw [Segment.texts_cons, Segment.texts_nil, List.append_nil] at htokens
  exact htokens

end StringLiteral

open StringLiteral

/-- A lexeme that is a string literal is a body between two delimiters. -/
theorem IsLexeme.exists_body {join : Bool} {lexeme after value : Text}
    (h : IsLexeme join lexeme .stringLiteral (some value) after) :
    ∃ delim body, isDelimiter delim = true ∧ Body delim body value ∧
      lexeme = delim :: (body ++ [delim]) := by
  generalize hkind : Kind.stringLiteral = kind at h
  generalize hsome : some value = v at h
  cases h with
  | symbol hlongest => cases hsome
  | keyword => cases hsome
  | name => cases hkind
  | elseIf => cases hsome
  | number => cases hkind
  | string hdelim hbody =>
      obtain rfl := Option.some.inj hsome
      exact ⟨_, _, hdelim, hbody, rfl⟩

/-- In front of a delimiter there is no gap: a segment that starts with one is a literal. -/
theorem Segment.IsCut.exists_body {join : Bool} {s : Segment} {after value t : Text}
    {delim : Char} (h : s.IsCut join after) (hdelim : isDelimiter delim = true)
    (hkind : s.shape = (.stringLiteral, some value)) (htext : s.text ++ after = delim :: t) :
    ∃ body, Body delim body value := by
  obtain ⟨gap, lexeme, kind, v⟩ := s
  obtain ⟨rfl, rfl⟩ := Prod.mk.inj hkind
  obtain ⟨d, body, -, hbody, hlexeme⟩ := h.lexeme.exists_body
  have hnone : Gap.afterPiece? (delim :: t) = none :=
    Gap.afterPiece?_of_class hdelim (by decide) (by decide) (by decide) t
  have hrest : lexeme ++ after = delim :: t := by
    rw [← h.gap.rest_eq h.lexeme.afterPiece?, ← List.append_assoc]
    exact (congrArg Gap.rest htext).trans (Gap.rest_of_none hnone)
  have hlexeme' : lexeme = d :: (body ++ [d]) := hlexeme
  rw [hlexeme'] at hrest
  obtain ⟨rfl, -⟩ := List.cons.inj hrest
  exact ⟨body, hbody⟩

namespace StringLiteral

variable {mode : Mode} {delim : Char} {value : Text}

/-- The body that gives a denotable value need not be the whole text between the delimiters: a
comment may follow it. -/
theorem Denotable.pairsOff_eq_true (h : Denotable mode delim value)
    (hdelim : isDelimiter delim = true) : pairsOff delim value = true := by
  obtain ⟨body, tokens, hok, hshape⟩ := h
  obtain ⟨c, -, rfl⟩ := exists_cut_of_ok hok
  rw [Cut.stream, List.map_append, Segment.map_shape_tokens] at hshape
  have hend : c.segments.map Segment.shape ++ [(.endOfInput, none)] =
      [(.stringLiteral, some value)] ++ [(.endOfInput, none)] := hshape
  have hsegments := List.append_cancel_right hend
  obtain ⟨s, rest, hcons, hs, -⟩ := List.map_eq_cons_iff.mp hsegments
  have hcut := c.allCut
  have hsource := c.source_eq
  rw [hcons] at hcut hsource
  rw [Segment.texts_cons, List.append_assoc] at hsource
  obtain ⟨body', hbody⟩ := hcut.1.exists_body hdelim hs hsource.symm
  exact hbody.pairsOff_eq_true hdelim

theorem denotable_of_pairsOff (hdelim : isDelimiter delim = true)
    (h : pairsOff delim value = true) : Denotable mode delim value :=
  ⟨encode delim value, _, (body_encode h).tokenize hdelim mode, rfl⟩

/-- **Values of string literals.** A value can be written between two delimiters exactly if its
backslashes pair off, and then the encoding of the value writes it. So a value without a
backslash can be written with either delimiter, and with neither one whose first backslash is
the last character or has an `n` or a `#` behind it. -/
theorem denotable_iff_pairsOff (mode : Mode) (delim : Char)
    (hdelim : isDelimiter delim = true) (value : Text) :
    (Denotable mode delim value ↔ pairsOff delim value = true) ∧
    (pairsOff delim value = true →
      tokenize mode (delim :: (encode delim value ++ [delim])) =
        .ok [⟨⟨.stringLiteral, 1, 1⟩, some value⟩,
          .endOf (delim :: (encode delim value ++ [delim]))]) ∧
    ('\\' ∉ value → Denotable mode delim value) ∧
    ∀ before behind, value = before ++ '\\' :: behind → '\\' ∉ before →
      (behind = [] ∨ behind.head? = some 'n' ∨ behind.head? = some '#') →
      ¬ Denotable mode delim value := by
  have hiff : Denotable mode delim value ↔ pairsOff delim value = true :=
    ⟨fun h => h.pairsOff_eq_true hdelim, denotable_of_pairsOff hdelim⟩
  refine ⟨hiff, ?_, ?_, ?_⟩
  · intro h
    exact (body_encode h).tokenize hdelim mode
  · intro hslash
    rw [hiff, ← List.append_nil value, pairsOff_append hslash]
    rfl
  · rintro before behind rfl hslash hbehind
    rw [hiff, pairsOff_eq_false hslash hbehind]
    exact Bool.false_ne_true

/-- Two backslashes are a pair, so it takes a third one to escape the quote behind them. -/
theorem denotable_backslashes :
    encode '\x22' "\\\\\"#\n\\t" = "\\\\\\\"\\#\\n\\t".toList ∧
    tokenize {} ('\x22' :: (encode '\x22' "\\\\\"#\n\\t" ++ ['\x22'])) =
      .ok [⟨⟨.stringLiteral, 1, 1⟩, some "\\\\\"#\n\\t"⟩,
        .endOf ('\x22' :: (encode '\x22' "\\\\\"#\n\\t" ++ ['\x22']))] ∧
    ¬ Denotable {} '\x22' "a\\n" := by
  refine ⟨by decide +kernel, ?_, ?_⟩
  · exact (denotable_iff_pairsOff {} '\x22' (by decide) _).2.1 (by decide +kernel)
  · exact (denotable_iff_pairsOff {} '\x22' (by decide) "a\\n").2.2.2 ['a'] ['n']
      (by decide +kernel) (by decide) (.inr (.inl rfl))

end StringLiteral

end ScriptLex
