import ScriptLex.Proofs.Cut

/-!
# What a lexeme sees of the text behind it

Where a lexeme ends depends on what follows it, but never on what follows behind a blank or
a line feed. A segment therefore stays one when a line feed and any text are added to the
source, and, with one exception, when the source is cut short or a blank is put behind a
lexeme. The exception is an `else` whose `if` was the start of a longer word or becomes the
next word; it does not arise where this happens behind a lexeme.
-/

namespace ScriptLex

open Text (FirstLineIn)

/-- The text starts with blanks and the whole word `if`. -/
def StartsIf (t : Text) : Prop := ∃ words rest, t = words ++ rest ∧ TrailingIf words rest

variable {join : Bool} {t u : Text}

/-! ## Separators -/

/-- Blanks and line feeds. Of all lexemes only strings have them inside. -/
def isSeparator (c : Char) : Bool := isBlank c || c = '\n'

/-- Both texts start alike, up to where the first one ends or goes on with a separator. -/
def Text.UpToSeparator (t u : Text) : Prop :=
  ∃ common rest rest', t = common ++ rest ∧ u = common ++ rest' ∧
    ∀ c ∈ rest.head?, isSeparator c = true

namespace Text.UpToSeparator

theorem cutShort (a b : Text) : UpToSeparator a (a ++ b) :=
  ⟨a, [], b, by simp, rfl, by simp⟩

theorem continued {c : Char} (hc : isSeparator c = true) (a b b' : Text) :
    UpToSeparator (a ++ c :: b) (a ++ b') :=
  ⟨a, c :: b, b', rfl, rfl, by simpa using hc⟩

theorem append (h : UpToSeparator t u) (s : Text) : UpToSeparator (s ++ t) (s ++ u) := by
  obtain ⟨common, rest, rest', rfl, rfl, hrest⟩ := h
  exact ⟨s ++ common, rest, rest', by simp, by simp, hrest⟩

/-- A class without separators is not gone on with. -/
theorem stop {p : Char → Bool} (h : UpToSeparator t u) (hspace : p ' ' = false)
    (htab : p '\t' = false) (hfeed : p '\n' = false)
    (hstop : ∀ c ∈ u.head?, p c = false) : ∀ c ∈ t.head?, p c = false := by
  obtain ⟨common, rest, rest', rfl, rfl, hrest⟩ := h
  cases common with
  | cons x common => exact hstop
  | nil =>
      intro c hc
      have hsep : (c = ' ' ∨ c = '\t') ∨ c = '\n' := by
        simpa [isSeparator, isBlank] using hrest c hc
      rcases hsep with (rfl | rfl) | rfl
      · exact hspace
      · exact htab
      · exact hfeed

theorem starts {q : Text} (h : UpToSeparator t u)
    (hclear : ∀ c ∈ q, isSeparator c = false) (hq : q <+: t) : q <+: u := by
  obtain ⟨common, rest, rest', rfl, rfl, hrest⟩ := h
  rcases List.prefix_or_prefix_of_prefix hq (List.prefix_append common rest) with
    hshort | ⟨r, rfl⟩
  · exact hshort.trans (List.prefix_append common rest')
  · rw [List.prefix_append_right_inj] at hq ⊢
    -- a character behind the common part would be a separator
    cases r with
    | nil => simp
    | cons x r =>
        obtain ⟨y, hy⟩ := hq
        have hsep : isSeparator x = true := hrest x (by rw [← hy]; rfl)
        rw [hclear x (by simp)] at hsep
        cases hsep

end Text.UpToSeparator

/-! ## Gaps -/

theorem Gap.Piece.of_firstLineIn {piece : Text} (h : Piece piece u) (hline : FirstLineIn t u) :
    Piece piece t := by
  cases h with
  | blank hc => exact .blank hc
  | blockComment hbody => exact .blockComment hbody
  | lineComment hbody => exact .lineComment (hbody.of_firstLineIn hline (by decide))

theorem Gap.IsGap.of_firstLineIn {gap : Text} (h : IsGap gap u) (hline : FirstLineIn t u) :
    IsGap gap t := by
  induction h with
  | nil => exact .nil
  | @cons piece gap u hpiece _ ih =>
      exact .cons (hpiece.of_firstLineIn (hline.append gap)) (ih hline)

/-- A gap in front of a lexeme does not see what follows the lexeme. -/
theorem Gap.IsGap.of_head? {gap : Text} (h : IsGap gap u) (hhead : t.head? = u.head?) :
    IsGap gap t := by
  induction h with
  | nil => exact .nil
  | @cons piece gap u hpiece _ ih =>
      refine .cons ?_ (ih hhead)
      have happend : (gap ++ t).head? = (gap ++ u).head? := by
        rw [List.head?_append, List.head?_append, hhead]
      cases hpiece with
      | blank hc => exact .blank hc
      | blockComment hbody => exact .blockComment hbody
      | lineComment hbody => exact .lineComment ⟨hbody.all, happend ▸ hbody.stop⟩

/-! ## Lexemes -/

open Text (UpToSeparator)

theorem WholeWord.of_upToSeparator {word : Text} (h : WholeWord word u)
    (hup : UpToSeparator t u) : WholeWord word t :=
  ⟨h.start, h.run.all, hup.stop (by decide) (by decide) (by decide) h.run.stop⟩

theorem TrailingIf.of_upToSeparator {words : Text} (h : TrailingIf words u)
    (hup : UpToSeparator t u) : TrailingIf words t := by
  obtain ⟨hne, hblanks, hafter⟩ := h
  exact .intro hne hblanks (hup.stop (by decide) (by decide) (by decide) hafter)

/-- Only the symbol that is a line feed has a separator in it, and no symbol is shorter. -/
theorem Symbol.Longest.of_upToSeparator {s : Symbol} (h : Longest script s (s.pattern ++ u))
    (hup : UpToSeparator t u) : Longest script s (s.pattern ++ t) where
  mem := h.mem
  starts := List.prefix_append s.pattern t
  longest s' hs' hstarts := by
    have hshort : ∀ s ∈ script, s.pattern.any isSeparator = true → s.pattern.length = 1 := by
      decide +kernel
    by_cases hsep : s'.pattern.any isSeparator = true
    · obtain ⟨c, r, hpattern, -⟩ := script_head h.mem
      rw [hshort s' hs' hsep, hpattern]
      simp
    · refine h.longest s' hs' ((hup.append s.pattern).starts ?_ hstarts)
      simpa using hsep

/-- A lexeme stays one, unless an `if` is now to be joined. -/
theorem IsLexeme.of_upToSeparator {lexeme : Text} {kind : Kind} {value : Option Text}
    (h : IsLexeme join lexeme kind value u) (hup : UpToSeparator t u)
    (hif : (∀ c ∈ u.head?, isWordChar c = false) → StartsIf t → StartsIf u) :
    IsLexeme join lexeme kind value t := by
  cases h with
  | @symbol s _ hlongest hslashes hblock =>
      have hstarts := hup.append s.pattern
      refine .symbol (hlongest.of_upToSeparator hup) ?_ ?_
      · exact fun h => hslashes (hstarts.starts (by simp [isSeparator, isBlank]) h)
      · exact fun h => hblock (hstarts.starts (by simp [isSeparator, isBlank]) h)
  | keyword hword hkind halone =>
      refine .keyword (hword.of_upToSeparator hup) hkind ?_
      intro hjoin helse words rest ht hwords
      obtain ⟨words', rest', hu, hwords'⟩ := hif hword.run.stop ⟨words, rest, ht, hwords⟩
      exact halone hjoin helse words' rest' hu hwords'
  | name hword hkind => exact .name (hword.of_upToSeparator hup) hkind
  | elseIf hjoin hwords => exact .elseIf hjoin (hwords.of_upToSeparator hup)
  | number hstart hrun =>
      exact .number hstart ⟨hrun.all, hup.stop (by decide) (by decide) (by decide) hrun.stop⟩
  | string hdelim hbody => exact .string hdelim hbody

theorem Segment.IsCut.of_upToSeparator {s : Segment} (h : s.IsCut join u)
    (hup : UpToSeparator t u)
    (hif : (∀ c ∈ u.head?, isWordChar c = false) → StartsIf t → StartsIf u) :
    s.IsCut join t := by
  have hhead : (s.lexeme ++ t).head? = (s.lexeme ++ u).head? := by
    obtain ⟨c, lexeme, hcons⟩ := List.exists_cons_of_ne_nil h.lexeme.ne_nil
    rw [hcons]
    rfl
  exact ⟨h.gap.of_head? hhead, h.lexeme.of_upToSeparator hup hif⟩

/-! ## Continuing behind a line feed -/

theorem TrailingIf.lineFeed_notMem {words rest : Text} (h : TrailingIf words rest) :
    '\n' ∉ words := by
  obtain ⟨-, hblanks, -⟩ := h
  intro hfeed
  rcases List.mem_append.mp hfeed with hblank | hif
  · exact absurd (hblanks _ hblank) (by decide)
  · exact absurd hif (by decide)

theorem StartsIf.of_append_lineFeed {a b : Text} (h : StartsIf (a ++ '\n' :: b)) :
    StartsIf a := by
  obtain ⟨words, rest, hsplit, hwords⟩ := h
  have hstarts : words <+: a := Text.append_lineFeed_firstLineIn a b words
    hwords.lineFeed_notMem ⟨rest, hsplit.symm⟩
  obtain ⟨after, rfl⟩ := hstarts
  obtain rfl : after ++ '\n' :: b = rest := by simpa using hsplit
  exact ⟨words, after, rfl, hwords.of_upToSeparator (.cutShort after _)⟩

theorem Segment.AllCut.append_lineFeed {after : Text} {segments : List Segment}
    (h : AllCut join after segments) (b : Text) :
    AllCut join (after ++ '\n' :: b) segments := by
  induction segments with
  | nil => trivial
  | cons s rest ih =>
      refine ⟨?_, ih h.2⟩
      have hup := UpToSeparator.continued (c := '\n') (by decide) (texts rest ++ after) b []
      rw [List.append_nil, List.append_assoc] at hup
      refine h.1.of_upToSeparator hup fun _ hif => ?_
      rw [← List.append_assoc] at hif
      exact hif.of_append_lineFeed

/-! ## Cutting short behind a lexeme -/

/-- No lexeme that ends in this letter is continued by a word. -/
theorem IsLexeme.stop_of_getLast? {lexeme after : Text} {kind : Kind} {value : Option Text}
    (h : IsLexeme join lexeme kind value after) (hlast : lexeme.getLast? = some 'f') :
    ∀ c ∈ after.head?, isWordChar c = false := by
  cases h with
  | symbol hlongest _ _ =>
      have hnone : ∀ s ∈ Symbol.script, s.pattern.getLast? ≠ some 'f' := by decide +kernel
      exact absurd hlast (hnone _ hlongest.mem)
  -- a word stops where no word goes on; numbers and strings end in other characters
  | keyword hword _ _ => exact hword.run.stop
  | name hword _ => exact hword.run.stop
  | elseIf _ hwords =>
      obtain ⟨-, -, hafter⟩ := hwords
      exact hafter
  | number _ hrun => exact absurd (hrun.all _ (List.mem_of_getLast? hlast)) (by decide)
  | @string delim body _ _ hdelim _ =>
      have hquote : delim = 'f' := by simpa [List.getLast?_cons] using hlast
      rw [hquote] at hdelim
      exact absurd hdelim (by decide)

/-- What ends in a character has a last lexeme that ends in it. -/
theorem Segment.AllCut.exists_isCut_of_getLast? {after : Text} {segments : List Segment}
    {c : Char} (h : AllCut join after segments) (hlast : (texts segments).getLast? = some c) :
    ∃ s : Segment, s.IsCut join after ∧ s.lexeme.getLast? = some c := by
  rcases List.eq_nil_or_concat' segments with rfl | ⟨init, s, rfl⟩
  · cases hlast
  · have hs : s.IsCut join after := (allCut_append.mp h).2.1
    rw [texts_append, texts_cons, texts_nil, List.append_nil, text, ← List.append_assoc,
      List.getLast?_append_of_ne_nil _ hs.lexeme.ne_nil] at hlast
    exact ⟨s, hs, hlast⟩

theorem Segment.AllCut.stop_of_getLast? {after : Text} {segments : List Segment}
    (h : AllCut join after segments) (hlast : (texts segments).getLast? = some 'f') :
    ∀ c ∈ after.head?, isWordChar c = false := by
  obtain ⟨s, hs, hlexeme⟩ := h.exists_isCut_of_getLast? hlast
  exact hs.lexeme.stop_of_getLast? hlexeme

/-- An `if` that ends the last lexeme is a whole word already. -/
theorem Segment.AllCut.startsIf_append {after : Text} {segments : List Segment}
    (h : AllCut join after segments) (hif : StartsIf (texts segments)) :
    StartsIf (texts segments ++ after) := by
  obtain ⟨words, rest, htexts, hwords⟩ := hif
  refine ⟨words, rest ++ after, by rw [htexts, List.append_assoc], ?_⟩
  obtain ⟨hne, hblanks, hrest⟩ := hwords
  refine .intro hne hblanks ?_
  cases rest with
  | nil => exact h.stop_of_getLast? (by simp [htexts])
  | cons c rest => exact hrest

theorem Segment.AllCut.truncate {after : Text} {segments : List Segment}
    (h : AllCut join after segments) : AllCut join [] segments := by
  induction segments with
  | nil => trivial
  | cons s rest ih =>
      refine ⟨?_, ih h.2⟩
      rw [List.append_nil]
      exact h.1.of_upToSeparator (.cutShort _ after) fun _ => h.2.startsIf_append

end ScriptLex
