import ScriptLex.Proofs.Head
import ScriptLex.Proofs.Gap
import ScriptLex.Proofs.StringLiteral
import ScriptLex.Proofs.Symbol

/-!
# The grammar of lexemes

Which texts are lexemes, of which kind and with which value, depends on what follows them:
every form takes as much as it can. The rules are stated on the lexeme and the text behind
it. They exclude one another, and the head of a text is decided by them.
-/

namespace ScriptLex

/-- Blanks, at least one, and the whole word `if`. -/
inductive TrailingIf : (words after : Text) → Prop
  | intro {blanks after : Text} (hne : blanks ≠ []) (hblanks : ∀ c ∈ blanks, isBlank c = true)
      (hafter : ∀ c ∈ after.head?, isWordChar c = false) :
      TrailingIf (blanks ++ ['i', 'f']) after

/-- A word that starts with no digit and is not continued. -/
structure WholeWord (word after : Text) : Prop where
  start : ∃ c ∈ word.head?, isDigit c = false
  run : Text.Run isWordChar word after

/-- In front of `after` the text is one lexeme, of this kind and with this value. Only the
words `else` and `if` depend on whether they are joined. -/
inductive IsLexeme (joinElseIf : Bool) :
    (lexeme : Text) → (kind : Kind) → (value : Option Text) → (after : Text) → Prop
  | symbol {s : Symbol} {after : Text}
      (hlongest : Symbol.Longest Symbol.script s (s.pattern ++ after))
      (hline : ¬ ['/', '/'] <+: s.pattern ++ after)
      (hblock : ¬ ['/', '*'] <+: s.pattern ++ after) :
      IsLexeme joinElseIf s.pattern s.kind none after
  | keyword {word after : Text} {kind : Kind} (hword : WholeWord word after)
      (hkind : Keyword.kind? word = some kind)
      (halone : joinElseIf = true → word = ['e', 'l', 's', 'e'] →
        ∀ words rest, after = words ++ rest → ¬ TrailingIf words rest) :
      IsLexeme joinElseIf word kind none after
  | name {word after : Text} (hword : WholeWord word after)
      (hkind : Keyword.kind? word = none) :
      IsLexeme joinElseIf word .identifier (some word) after
  | elseIf {words after : Text} (hjoin : joinElseIf = true)
      (hwords : TrailingIf words after) :
      IsLexeme joinElseIf (['e', 'l', 's', 'e'] ++ words) .elseIfWords none after
  | number {digits after : Text} (hstart : ∃ c ∈ digits.head?, isDigit c = true)
      (hrun : Text.Run isNumeral digits after) :
      IsLexeme joinElseIf digits .realLiteral (some digits) after
  | string {delim : Char} {body value after : Text}
      (hdelim : StringLiteral.isDelimiter delim = true)
      (hbody : StringLiteral.Body delim body value) :
      IsLexeme joinElseIf (delim :: (body ++ [delim])) .stringLiteral (some value) after

/-- What may stand where a gap has ended, said for each head of a text. -/
def Head.Fits (mode : Mode) (t : Text) : Head → Prop
  | .endOfInput => t = []
  | .lexeme kind value after => ∃ lexeme, t = lexeme ++ after ∧
      IsLexeme mode.joinElseIf lexeme kind value after
  | .openComment => ∃ body, t = '/' :: '*' :: body ∧ ¬ ['*', '/'] <:+: body
  | .openString => StringLiteral.Open t
  | .hexColor digits => ∃ run after, t = '$' :: (run ++ after) ∧
      Text.Run isAlphanumeric run after ∧ digits = run.length
  | .stray c => ∃ after, t = c :: after ∧ isBlank c = false ∧
      StringLiteral.isDelimiter c = false ∧ c ≠ '$' ∧ isDigit c = false ∧
      isLetter c = false ∧ c ≠ '_' ∧ ∀ s ∈ Symbol.script, ¬ s.pattern <+: t

/-! ## Classes of first characters -/

theorem ne_of_class {p : Char → Bool} {c x : Char} (hc : p c = true) (hx : p x = false) :
    c ≠ x := by
  rintro rfl
  rw [hc] at hx
  cases hx

theorem isDigit_iff {c : Char} : isDigit c = true ↔ 48 ≤ c.toNat ∧ c.toNat ≤ 57 := by
  simp only [isDigit, Bool.and_eq_true, decide_eq_true_eq]
  exact Iff.rfl

theorem isLetter_iff {c : Char} :
    isLetter c = true ↔ 97 ≤ c.toNat ∧ c.toNat ≤ 122 ∨ 65 ≤ c.toNat ∧ c.toNat ≤ 90 := by
  simp only [isLetter, Bool.or_eq_true, Bool.and_eq_true, decide_eq_true_eq]
  exact Iff.rfl

theorem isDigit_of_isWordStart {c : Char} (h : isWordStart c = true) : isDigit c = false := by
  rw [Bool.eq_false_iff, ne_eq, isDigit_iff]
  rw [isWordStart, Bool.or_eq_true, isLetter_iff, decide_eq_true_eq] at h
  rcases h with h | rfl
  · omega
  · decide

theorem isWordStart_of_isWordChar {c : Char} (h : isWordChar c = true)
    (hdigit : isDigit c = false) : isWordStart c = true := by
  simpa [isWordChar, isAlphanumeric, isWordStart, hdigit] using h

theorem isDelimiter_of_class {p : Char → Bool} {c : Char} (hc : p c = true)
    (hdouble : p '\x22' = false) (hsingle : p '\x27' = false) :
    StringLiteral.isDelimiter c = false := by
  simp [StringLiteral.isDelimiter, ne_of_class hc hdouble, ne_of_class hc hsingle]

/-! ## Keywords -/

theorem Keyword.mem_table_of_kind? {word : Text} {kind : Kind}
    (h : Keyword.kind? word = some kind) : (word, kind) ∈ Keyword.table := by
  obtain ⟨l₁, l₂, htable, -⟩ := List.lookup_eq_some_iff.mp h
  rw [htable]
  simp

theorem Keyword.eq_else_of_kind? {word : Text} (h : Keyword.kind? word = some .elseWord) :
    word = ['e', 'l', 's', 'e'] := by
  have hall : ∀ p ∈ Keyword.table, p.2 = .elseWord → p.1 = ['e', 'l', 's', 'e'] := by
    decide +kernel
  exact hall _ (Keyword.mem_table_of_kind? h) rfl

theorem Keyword.kind?_else : Keyword.kind? ['e', 'l', 's', 'e'] = some .elseWord := by
  decide +kernel

/-! ## Which form the first character decides -/

namespace Head

variable {mode : Mode} {c : Char}

theorem ofText_string (mode : Mode) (h : StringLiteral.isDelimiter c = true) (t : Text) :
    ofText mode (c :: t) = ofString c t := by
  have hslash : c ≠ '/' := ne_of_class h (by decide)
  simp [ofText, hslash, h]

theorem ofText_number (mode : Mode) (h : isDigit c = true) (t : Text) :
    ofText mode (c :: t) = ofNumber (c :: t) := by
  have hslash : c ≠ '/' := ne_of_class h (by decide)
  have hdollar : c ≠ '$' := ne_of_class h (by decide)
  have hdelim := isDelimiter_of_class h (by decide) (by decide)
  simp [ofText, hslash, hdollar, hdelim, h]

theorem ofText_word (mode : Mode) (h : isWordStart c = true) (t : Text) :
    ofText mode (c :: t) = ofWord mode (c :: t) := by
  have hslash : c ≠ '/' := ne_of_class h (by decide)
  have hdollar : c ≠ '$' := ne_of_class h (by decide)
  have hdelim := isDelimiter_of_class h (by decide) (by decide)
  simp [ofText, hslash, hdollar, hdelim, isDigit_of_isWordStart h, h]

theorem ofText_symbol (mode : Mode) {t : Text} (hblock : ¬ ['/', '*'] <+: c :: t)
    (hdelim : StringLiteral.isDelimiter c = false) (hdollar : c ≠ '$')
    (hdigit : isDigit c = false) (hword : isWordStart c = false) :
    ofText mode (c :: t) = ofSymbol c (c :: t) := by
  have hcomment : ¬ (c = '/' ∧ t.head? = some '*') := by
    rintro ⟨rfl, hhead⟩
    obtain ⟨t', rfl⟩ := List.head?_eq_some_iff.mp hhead
    exact hblock (List.prefix_append ['/', '*'] t')
  simp [ofText, hcomment, hdelim, hdollar, hdigit, hword]

end Head

/-! ## No lexeme starts like a gap -/

theorem Gap.afterPiece?_eq_none {c : Char} {t : Text} (hblank : isBlank c = false)
    (hline : ¬ ['/', '/'] <+: c :: t) (hblock : ¬ ['/', '*'] <+: c :: t) :
    Gap.afterPiece? (c :: t) = none := by
  unfold Gap.afterPiece?
  split
  next body heq =>
    exact absurd (heq ▸ List.prefix_append ['/', '/'] body) hline
  next body heq =>
    exact absurd (heq ▸ List.prefix_append ['/', '*'] body) hblock
  next heq =>
    obtain ⟨rfl, -⟩ := List.cons.inj heq
    simp [hblank]
  next => rfl

theorem Gap.afterPiece?_of_ne_slash {c : Char} {t : Text} (hblank : isBlank c = false)
    (hslash : c ≠ '/') : Gap.afterPiece? (c :: t) = none := by
  apply Gap.afterPiece?_eq_none hblank
  · intro h
    exact hslash (List.cons_prefix_cons.mp h).1.symm
  · intro h
    exact hslash (List.cons_prefix_cons.mp h).1.symm

/-- No gap starts with a character of a class that has neither blanks nor the slash. -/
theorem Gap.afterPiece?_of_class {p : Char → Bool} {c : Char} (hc : p c = true)
    (hspace : p ' ' = false) (htab : p '\t' = false) (hslash : p '/' = false) (t : Text) :
    Gap.afterPiece? (c :: t) = none := by
  have hblank : isBlank c = false := by
    simp [isBlank, ne_of_class hc hspace, ne_of_class hc htab]
  exact Gap.afterPiece?_of_ne_slash hblank (ne_of_class hc hslash)

theorem WholeWord.exists_cons {word after : Text} (h : WholeWord word after) :
    ∃ c t, word = c :: t ∧ isWordStart c = true := by
  obtain ⟨c, hc, hdigit⟩ := h.start
  obtain ⟨t, rfl⟩ := List.head?_eq_some_iff.mp hc
  exact ⟨c, t, rfl, isWordStart_of_isWordChar (h.run.all c (by simp)) hdigit⟩

theorem WholeWord.ne_nil {word after : Text} (h : WholeWord word after) : word ≠ [] := by
  obtain ⟨c, t, rfl, -⟩ := h.exists_cons
  exact List.cons_ne_nil c t

theorem WholeWord.afterPiece? {word after : Text} (h : WholeWord word after) :
    Gap.afterPiece? (word ++ after) = none := by
  obtain ⟨c, t, rfl, hc⟩ := h.exists_cons
  exact Gap.afterPiece?_of_class hc (by decide) (by decide) (by decide) (t ++ after)

variable {mode : Mode} {join : Bool} {lexeme after : Text} {kind : Kind} {value : Option Text}

theorem IsLexeme.ne_nil (h : IsLexeme join lexeme kind value after) : lexeme ≠ [] := by
  cases h with
  | symbol hlongest =>
      obtain ⟨c, p, hp, -⟩ := Symbol.script_head hlongest.mem
      simp [hp]
  | keyword hword => exact hword.ne_nil
  | name hword => exact hword.ne_nil
  | elseIf => simp
  | number hstart =>
      obtain ⟨c, hc, -⟩ := hstart
      rintro rfl
      cases hc
  | string => simp

/-- The end of the input is no lexeme. -/
theorem IsLexeme.kind_ne_endOfInput (h : IsLexeme join lexeme kind value after) :
    kind ≠ .endOfInput := by
  cases h with
  | symbol hlongest =>
      have hall : ∀ s ∈ Symbol.script, s.kind ≠ .endOfInput := by decide +kernel
      exact hall _ hlongest.mem
  | keyword _ hkind =>
      have hall : ∀ p ∈ Keyword.table, p.2 ≠ .endOfInput := by decide +kernel
      exact hall _ (Keyword.mem_table_of_kind? hkind)
  | name => decide
  | elseIf => decide
  | number => decide
  | string => decide

/-- Names and literals have a value, and no other lexeme has one. -/
theorem IsLexeme.isSome_value (h : IsLexeme join lexeme kind value after) :
    value.isSome = kind.carriesValue := by
  cases h with
  | symbol hlongest =>
      have hall : ∀ s ∈ Symbol.script, s.kind.carriesValue = false := by decide +kernel
      exact (hall _ hlongest.mem).symm
  | keyword _ hkind =>
      have hall : ∀ p ∈ Keyword.table, p.2.carriesValue = false := by decide +kernel
      exact (hall _ (Keyword.mem_table_of_kind? hkind)).symm
  | name => rfl
  | elseIf => rfl
  | number => rfl
  | string => rfl

theorem IsLexeme.afterPiece? (h : IsLexeme join lexeme kind value after) :
    Gap.afterPiece? (lexeme ++ after) = none := by
  cases h with
  | @symbol s _ hlongest hline hblock =>
      obtain ⟨c, p, hp, hblank, -⟩ := Symbol.script_head hlongest.mem
      rw [hp] at hline hblock ⊢
      exact Gap.afterPiece?_eq_none hblank hline hblock
  | keyword hword => exact hword.afterPiece?
  | name hword => exact hword.afterPiece?
  | elseIf => exact Gap.afterPiece?_of_ne_slash (by decide) (by decide)
  | number hstart =>
      obtain ⟨c, hc, hdigit⟩ := hstart
      obtain ⟨t, rfl⟩ := List.head?_eq_some_iff.mp hc
      exact Gap.afterPiece?_of_class hdigit (by decide) (by decide) (by decide) _
  | string hdelim => exact Gap.afterPiece?_of_class hdelim (by decide) (by decide) (by decide) _

/-! ## The rules decide the head -/

theorem TrailingIf.afterIf? {words after : Text} (h : TrailingIf words after) :
    Head.afterIf? (words ++ after) = some after := by
  cases h with
  | @intro blanks _ hne hblanks hafter =>
      have hrun : Text.Run isBlank blanks ('i' :: 'f' :: after) :=
        ⟨hblanks, by simp [isBlank]⟩
      have hany : after.head?.any isWordChar = false := by
        cases after with
        | nil => rfl
        | cons c after => exact hafter c rfl
      obtain ⟨b, bs, rfl⟩ := List.exists_cons_of_ne_nil hne
      unfold Head.afterIf?
      rw [List.append_assoc, show ['i', 'f'] ++ after = 'i' :: 'f' :: after from rfl,
        hrun.takeWhile_eq, hrun.dropWhile_eq]
      simp [hany]

theorem exists_trailingIf_of_afterIf? {t after : Text} (h : Head.afterIf? t = some after) :
    ∃ words, TrailingIf words after ∧ t = words ++ after := by
  unfold Head.afterIf? at h
  split at h
  next b bs rest htake hdrop =>
    split at h
    next => cases h
    next hany =>
      obtain rfl : rest = after := by simpa using h
      have hrun := Text.run_takeWhile isBlank t
      refine ⟨t.takeWhile isBlank ++ ['i', 'f'], .intro ?_ hrun.all ?_, ?_⟩
      · rw [htake]
        simp
      · intro c hc
        have hc' : rest.head? = some c := hc
        simpa [hc'] using hany
      · rw [List.append_assoc]
        show t = t.takeWhile isBlank ++ 'i' :: 'f' :: rest
        rw [← hdrop, List.takeWhile_append_dropWhile]
  next => cases h

theorem Head.ofText_wholeWord (mode : Mode) {word after : Text} (h : WholeWord word after) :
    Head.ofText mode (word ++ after) =
      match Keyword.kind? word with
      | none => .lexeme .identifier (some word) after
      | some kind =>
        if kind = .elseWord ∧ mode.joinElseIf then
          match Head.afterIf? after with
          | some behind => .lexeme .elseIfWords none behind
          | none => .lexeme kind none after
        else .lexeme kind none after := by
  obtain ⟨c, t, hcons, hc⟩ := h.exists_cons
  have hword : Head.ofText mode (word ++ after) = Head.ofWord mode (word ++ after) := by
    rw [hcons]
    exact Head.ofText_word mode hc (t ++ after)
  unfold Head.ofWord at hword
  rewrite [h.run.takeWhile_eq, h.run.dropWhile_eq] at hword
  exact hword

theorem TrailingIf.wholeWord_else {words after : Text} (h : TrailingIf words after) :
    WholeWord ['e', 'l', 's', 'e'] (words ++ after) where
  start := ⟨'e', rfl, by decide⟩
  run := by
    cases h with
    | @intro blanks _ hne hblanks _ =>
        obtain ⟨b, bs, rfl⟩ := List.exists_cons_of_ne_nil hne
        refine ⟨List.all_eq_true.mp (by decide), ?_⟩
        intro c hc
        obtain rfl : b = c := by simpa using hc
        have hb : isBlank b = true := hblanks b (by simp)
        rcases (by simpa [isBlank] using hb : b = ' ' ∨ b = '\t') with rfl | rfl
        · decide
        · decide

/-- A lexeme is what stands at the head. -/
theorem IsLexeme.ofText (h : IsLexeme mode.joinElseIf lexeme kind value after) :
    Head.ofText mode (lexeme ++ after) = .lexeme kind value after := by
  cases h with
  | @symbol s _ hlongest _ hblock =>
      obtain ⟨c, p, hp, -, hdelim, hdollar, hdigit, hword⟩ := Symbol.script_head hlongest.mem
      have hofText : Head.ofText mode (s.pattern ++ after) =
          Head.ofSymbol c (s.pattern ++ after) := by
        rw [hp] at hblock ⊢
        exact Head.ofText_symbol mode hblock hdelim hdollar hdigit hword
      rw [hofText, Head.ofSymbol, SymbolTable.script_match_eq_some_iff.mpr hlongest]
      simp
  | @keyword word _ kind hword hkind halone =>
      rw [Head.ofText_wholeWord mode hword, hkind]
      by_cases helse : kind = .elseWord ∧ mode.joinElseIf = true
      · have hnone : Head.afterIf? after = none := by
          cases hif : Head.afterIf? after with
          | none => rfl
          | some rest =>
              -- an `if` that could be joined is excluded by the rule for keywords
              obtain ⟨words, hwords, hafter⟩ := exists_trailingIf_of_afterIf? hif
              have hword := Keyword.eq_else_of_kind? (helse.1 ▸ hkind)
              exact absurd hwords (halone helse.2 hword words rest hafter)
        simp [hnone]
      · simp [helse]
  | @name word _ hword hkind => rw [Head.ofText_wholeWord mode hword, hkind]
  | @elseIf words _ hjoin hwords =>
      rw [List.append_assoc, Head.ofText_wholeWord mode hwords.wholeWord_else,
        Keyword.kind?_else, hwords.afterIf?]
      simp [hjoin]
  | @number digits _ hstart hrun =>
      obtain ⟨c, hc, hdigit⟩ := hstart
      obtain ⟨t, rfl⟩ := List.head?_eq_some_iff.mp hc
      have hnumber := Head.ofText_number mode hdigit (t ++ after)
      rw [List.cons_append, hnumber, Head.ofNumber, ← List.cons_append, hrun.takeWhile_eq,
        hrun.dropWhile_eq]
  | @string delim body v _ hdelim hbody =>
      have hread := hbody.read? hdelim after
      rw [List.cons_append, Head.ofText_string mode hdelim, Head.ofString, List.append_assoc]
      rw [show [delim] ++ after = delim :: after from rfl, hread]

theorem Head.Fits.ofText {t : Text} {head : Head} (h : head.Fits mode t) :
    Gap.afterPiece? t = none ∧ Head.ofText mode t = head := by
  cases head with
  | endOfInput =>
      obtain rfl : t = [] := h
      exact ⟨rfl, rfl⟩
  | lexeme kind value after =>
      obtain ⟨lexeme, rfl, hlexeme⟩ := h
      exact ⟨hlexeme.afterPiece?, hlexeme.ofText⟩
  | openComment =>
      obtain ⟨body, rfl, hbody⟩ := h
      exact ⟨Gap.afterClose?_eq_none_iff.mpr hbody, by simp [Head.ofText]⟩
  | openString =>
      obtain ⟨delim, rest, rfl, hdelim, -⟩ := id h
      refine ⟨Gap.afterPiece?_of_class hdelim (by decide) (by decide) (by decide) rest, ?_⟩
      rw [Head.ofText_string mode hdelim, Head.ofString, (StringLiteral.open_cons_iff.mp h).2]
  | hexColor digits =>
      obtain ⟨run, after, rfl, hrun, rfl⟩ := h
      refine ⟨Gap.afterPiece?_of_ne_slash (by decide) (by decide), ?_⟩
      simp [Head.ofText, StringLiteral.isDelimiter, hrun.takeWhile_eq]
  | stray c =>
      obtain ⟨after, rfl, hblank, hdelim, hdollar, hdigit, hletter, hunder, hnone⟩ := h
      -- the slash is a symbol by itself, so a stray character starts no comment
      have hslash : c ≠ '/' := by
        rintro rfl
        exact hnone ⟨['/'], .divide⟩ (by decide +kernel) (List.prefix_append ['/'] after)
      have hword : isWordStart c = false := by simp [isWordStart, hletter, hunder]
      have hblock : ¬ ['/', '*'] <+: c :: after := fun hpre =>
        hslash (List.cons_prefix_cons.mp hpre).1.symm
      refine ⟨Gap.afterPiece?_of_ne_slash hblank hslash, ?_⟩
      rw [Head.ofText_symbol mode hblock hdelim hdollar hdigit hword, Head.ofSymbol,
        SymbolTable.script_match_eq_none_iff.mpr hnone]

/-! ## Some rule always applies -/

theorem Gap.of_afterPiece?_eq_none {c : Char} {t : Text} (h : Gap.afterPiece? (c :: t) = none) :
    isBlank c = false ∧ ¬ ['/', '/'] <+: c :: t := by
  constructor
  · by_contra hblank
    have hpiece : Gap.Piece [c] t := .blank (by simpa using hblank)
    rw [show c :: t = [c] ++ t from rfl, hpiece.afterPiece?] at h
    cases h
  · rintro ⟨body, hbody⟩
    rw [← hbody] at h
    cases h

theorem exists_wholeWord {c : Char} (hc : isWordStart c = true) (t : Text) :
    ∃ word after, c :: t = word ++ after ∧ WholeWord word after := by
  have hchar : isWordChar c = true := by
    rw [isWordStart, Bool.or_eq_true] at hc
    rw [isWordChar, isAlphanumeric, Bool.or_eq_true, Bool.or_eq_true]
    tauto
  refine ⟨_, _, (List.takeWhile_append_dropWhile (p := isWordChar)).symm, ?_,
    Text.run_takeWhile isWordChar (c :: t)⟩
  exact ⟨c, by simp [hchar], isDigit_of_isWordStart hc⟩

theorem Head.fits_wholeWord {word after : Text} (hword : WholeWord word after) :
    (Head.ofText mode (word ++ after)).Fits mode (word ++ after) := by
  rw [Head.ofText_wholeWord mode hword]
  split
  next hkind => exact ⟨word, rfl, .name hword hkind⟩
  next kind hkind =>
    split
    next helse =>
      split
      next behind hif =>
        obtain ⟨words, hwords, rfl⟩ := exists_trailingIf_of_afterIf? hif
        obtain rfl := Keyword.eq_else_of_kind? (helse.1 ▸ hkind)
        exact ⟨_, (List.append_assoc _ words behind).symm, .elseIf helse.2 hwords⟩
      -- an `else` that stays alone, first for want of an `if`, then because none is joined
      next hif =>
        refine ⟨word, rfl, .keyword hword hkind ?_⟩
        intro _ _ words rest hafter hwords
        rw [hafter, hwords.afterIf?] at hif
        cases hif
    next helse =>
      refine ⟨word, rfl, .keyword hword hkind ?_⟩
      intro hjoin hword'
      rw [hword', Keyword.kind?_else] at hkind
      exact absurd ⟨(Option.some.inj hkind).symm, hjoin⟩ helse

theorem Head.fits_ofNumber {c : Char} {t : Text} (hc : isDigit c = true) :
    (Head.ofNumber (c :: t)).Fits mode (c :: t) := by
  have hstart : ∃ d ∈ ((c :: t).takeWhile isNumeral).head?, isDigit d = true :=
    ⟨c, by simp [isNumeral, hc], hc⟩
  exact ⟨_, List.takeWhile_append_dropWhile.symm,
    .number hstart (Text.run_takeWhile isNumeral (c :: t))⟩

theorem Head.fits_ofString {delim : Char} {t : Text}
    (hdelim : StringLiteral.isDelimiter delim = true) :
    (Head.ofString delim t).Fits mode (delim :: t) := by
  unfold Head.ofString
  split
  next value rest hread =>
    obtain ⟨body, hbody, rfl⟩ := StringLiteral.exists_body_of_read? hread
    exact ⟨_, by simp, .string hdelim hbody⟩
  next hread => exact StringLiteral.open_cons_iff.mpr ⟨hdelim, hread⟩

theorem Head.fits_ofSymbol {c : Char} {t : Text} (hblank : isBlank c = false)
    (hline : ¬ ['/', '/'] <+: c :: t) (hblock : ¬ ['/', '*'] <+: c :: t)
    (hdelim : StringLiteral.isDelimiter c = false) (hdollar : c ≠ '$')
    (hdigit : isDigit c = false) (hword : isWordStart c = false) :
    (Head.ofSymbol c (c :: t)).Fits mode (c :: t) := by
  unfold Head.ofSymbol
  split
  next s hmatch =>
    have hlongest := SymbolTable.script_match_eq_some_iff.mp hmatch
    obtain ⟨after, hafter⟩ := hlongest.starts
    rw [← hafter] at hlongest hline hblock ⊢
    exact ⟨s.pattern, by simp, by simpa using .symbol hlongest hline hblock⟩
  next hmatch =>
    rw [isWordStart, Bool.or_eq_false_iff] at hword
    exact ⟨t, rfl, hblank, hdelim, hdollar, hdigit, hword.1, by simpa using hword.2,
      SymbolTable.script_match_eq_none_iff.mp hmatch⟩

/-- Where no gap starts, what is read fits. The cases are those of the first character. -/
theorem Head.fits_ofText {t : Text} (hgap : Gap.afterPiece? t = none) :
    (Head.ofText mode t).Fits mode t := by
  cases t with
  | nil => rfl
  | cons c t =>
      obtain ⟨hblank, hline⟩ := Gap.of_afterPiece?_eq_none hgap
      by_cases hdelim : StringLiteral.isDelimiter c = true
      · rw [Head.ofText_string mode hdelim]
        exact Head.fits_ofString hdelim
      by_cases hdigit : isDigit c = true
      · rw [Head.ofText_number mode hdigit]
        exact Head.fits_ofNumber hdigit
      by_cases hword : isWordStart c = true
      · obtain ⟨word, after, hsplit, hwhole⟩ := exists_wholeWord hword t
        rw [hsplit]
        exact Head.fits_wholeWord hwhole
      rw [Bool.not_eq_true] at hdelim hdigit hword
      by_cases hdollar : c = '$'
      · subst hdollar
        have hhex : Head.ofText mode ('$' :: t) =
            .hexColor (t.takeWhile isAlphanumeric).length := by
          simp [Head.ofText, StringLiteral.isDelimiter]
        rw [hhex]
        exact ⟨_, _, by rw [List.takeWhile_append_dropWhile],
          Text.run_takeWhile isAlphanumeric t, rfl⟩
      by_cases hblock : ['/', '*'] <+: c :: t
      · -- a block comment that were closed would be a gap
        obtain ⟨body, hbody⟩ := hblock
        rw [← hbody] at hgap ⊢
        exact ⟨body, rfl, Gap.afterClose?_eq_none_iff.mp hgap⟩
      · rw [Head.ofText_symbol mode hblock hdelim hdollar hdigit hword]
        exact Head.fits_ofSymbol hblank hline hblock hdelim hdollar hdigit hword

end ScriptLex
