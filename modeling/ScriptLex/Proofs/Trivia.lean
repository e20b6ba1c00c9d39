import ScriptLex.Proofs.Lookahead
import ScriptLex.Proofs.Pulls

/-!
# Trivia between tokens

Blanks and block comments may be put before the first lexeme or behind any other without any
effect on what the tokens are. The first character put there has to be a blank: a comment
right behind a slash would make a line comment of it. What was inserted joins the gap before
the next lexeme, and no lexeme before it sees further than to the blank.
-/

namespace ScriptLex

open Gap (IsGap)

/-- A concatenation of blanks and complete block comments. -/
inductive Trivia : Text → Prop
  | nil : Trivia []
  | blank {c : Char} {w : Text} (hc : isBlank c = true) (hw : Trivia w) : Trivia (c :: w)
  | blockComment {body w : Text} (hbody : ¬ ['*', '/'] <:+: body) (hw : Trivia w) :
      Trivia ('/' :: '*' :: (body ++ ['*', '/']) ++ w)

variable {join : Bool} {w after : Text}

theorem Trivia.isGap_append {gap : Text} (hw : Trivia w) (hgap : IsGap gap after) :
    IsGap (w ++ gap) after := by
  induction hw with
  | nil => exact hgap
  | @blank c w hc _ ih =>
      have hpiece : Gap.Piece [c] ((w ++ gap) ++ after) := .blank hc
      exact @IsGap.cons [c] (w ++ gap) after hpiece ih
  | @blockComment body w hbody _ ih =>
      have hpiece : Gap.Piece ('/' :: '*' :: (body ++ ['*', '/'])) ((w ++ gap) ++ after) :=
        .blockComment hbody
      rw [List.append_assoc]
      exact .cons hpiece ih

/-! ## An `if` behind what was inserted -/

/-- The text starts with the whole word `if`, or with blanks and that word. -/
def StartsIfWord (t : Text) : Prop :=
  ∃ blanks rest, t = blanks ++ 'i' :: 'f' :: rest ∧ (∀ c ∈ blanks, isBlank c = true) ∧
    ∀ c ∈ rest.head?, isWordChar c = false

theorem StartsIf.startsIfWord {t : Text} (h : StartsIf t) : StartsIfWord t := by
  obtain ⟨_, rest, rfl, ⟨_, hblanks, hrest⟩⟩ := h
  exact ⟨_, rest, by simp, hblanks, hrest⟩

/-- Where no word goes on, the `if` is behind blanks. -/
theorem StartsIfWord.startsIf {t : Text} (h : StartsIfWord t)
    (hstop : ∀ c ∈ t.head?, isWordChar c = false) : StartsIf t := by
  obtain ⟨blanks, rest, rfl, hblanks, hrest⟩ := h
  have hne : blanks ≠ [] := by
    rintro rfl
    exact absurd (hstop 'i' rfl) (by decide)
  exact ⟨blanks ++ ['i', 'f'], rest, by simp, .intro hne hblanks hrest⟩

/-- Comments hide it, and blanks do not add one. -/
theorem Trivia.startsIfWord_of_append {t : Text} (hw : Trivia w) (h : StartsIfWord (w ++ t)) :
    StartsIfWord t := by
  induction hw with
  | nil => exact h
  | @blank c w hc _ ih =>
      apply ih
      obtain ⟨blanks, rest, heq, hblanks, hrest⟩ := h
      cases blanks with
      | nil =>
          obtain ⟨rfl, -⟩ := List.cons.inj heq
          exact absurd hc (by decide)
      | cons b blanks =>
          obtain ⟨-, htail⟩ := List.cons.inj heq
          exact ⟨blanks, rest, htail, fun c hc => hblanks c (List.mem_cons_of_mem b hc), hrest⟩
  | blockComment =>
      obtain ⟨blanks, rest, heq, hblanks, -⟩ := h
      cases blanks with
      | nil => exact absurd (List.cons.inj heq).1 (by decide)
      | cons b blanks =>
          obtain ⟨rfl, -⟩ := List.cons.inj heq
          exact absurd (hblanks '/' (by simp)) (by decide)

/-- A blank behind a text that is not all blanks does not stand in front of an `if`. -/
theorem TrailingIf.exists_of_blank {words rest x r : Text} {b : Char}
    (h : TrailingIf words rest) (heq : x ++ b :: r = words ++ rest) (hb : isBlank b = true)
    (hx : ∃ c ∈ x, isBlank c = false) : ∃ v, x = words ++ v ∧ rest = v ++ b :: r := by
  rcases List.append_eq_append_iff.mp heq with ⟨v, hwords, htail⟩ | hsplit
  · cases v with
    | nil => exact ⟨[], by rw [hwords, List.append_nil, List.append_nil], htail.symm⟩
    | cons d v =>
        obtain ⟨rfl, -⟩ := List.cons.inj htail
        cases h with
        | @intro blanks _ hne hblanks hrest =>
            -- the blank would stand in the word, or behind nothing but blanks
            rcases List.append_eq_append_iff.mp hwords with ⟨u, -, hword⟩ | ⟨u, hall, -⟩
            · have hmem : b ∈ ['i', 'f'] := by
                rw [hword]
                simp
              rcases (by simpa using hmem : b = 'i' ∨ b = 'f') with rfl | rfl
              · exact absurd hb (by decide)
              · exact absurd hb (by decide)
            · obtain ⟨c, hc, hnot⟩ := hx
              have hblank := hblanks c (by rw [hall]; exact List.mem_append_left u hc)
              rw [hnot] at hblank
              cases hblank
  · exact hsplit

/-! ## Segments in front of what was inserted -/

namespace Segment

/-- A lexeme starts with no blank. -/
theorem AllCut.exists_not_blank {segments : List Segment} (h : AllCut join after segments)
    (hne : segments ≠ []) : ∃ c ∈ texts segments, isBlank c = false := by
  obtain ⟨s, rest, rfl⟩ := List.exists_cons_of_ne_nil hne
  obtain ⟨c, lexeme, hlexeme⟩ := List.exists_cons_of_ne_nil h.1.lexeme.ne_nil
  have hstop := h.1.lexeme.afterPiece?
  rw [hlexeme] at hstop
  exact ⟨c, by simp [text, hlexeme], (Gap.of_afterPiece?_eq_none hstop).1⟩

/-- Segments that start with an `if` have all of it. -/
theorem AllCut.startsIf_of_blank {segments : List Segment} (h : AllCut join after segments)
    (hne : segments ≠ []) {b : Char} (hb : isBlank b = true) {r : Text}
    (hif : StartsIf (texts segments ++ b :: r)) : StartsIf (texts segments ++ after) := by
  obtain ⟨words, rest, heq, hwords⟩ := hif
  obtain ⟨v, htexts, rfl⟩ := hwords.exists_of_blank heq hb (h.exists_not_blank hne)
  exact h.startsIf_append ⟨words, v, htexts, hwords.of_upToSeparator (.cutShort v _)⟩

/-- **Segments do not see trivia behind them.** -/
theorem AllCut.insert {segments : List Segment} (h : AllCut join after segments)
    (hw : Trivia w) (hblank : ∀ c ∈ w.head?, isBlank c = true) :
    AllCut join (w ++ after) segments := by
  cases w with
  | nil => exact h
  | cons b w =>
      have hb : isBlank b = true := hblank b rfl
      have hsep : isSeparator b = true := by simp [isSeparator, hb]
      induction segments with
      | nil => trivial
      | cons s rest ih =>
          refine ⟨?_, ih h.2⟩
          refine h.1.of_upToSeparator (.continued hsep (texts rest) (w ++ after) after) ?_
          intro hstop hif
          -- behind the last segment the trivia itself has to be looked through
          cases rest with
          | nil => exact (hw.startsIfWord_of_append hif.startsIfWord).startsIf hstop
          | cons s' rest => exact h.2.startsIf_of_blank (List.cons_ne_nil s' rest) hb hif

end Segment

/-! ## Cuts with trivia in them -/

/-- What a token is, wherever it stands. -/
def ValuedToken.shape (t : ValuedToken) : Kind × Option Text := (t.token.kind, t.value)

def Segment.shape (s : Segment) : Kind × Option Text := (s.kind, s.value)

theorem Segment.map_shape_tokens (before : Text) (segments : List Segment) :
    (tokens before segments).map ValuedToken.shape = segments.map shape := by
  induction segments generalizing before with
  | nil => rfl
  | cons s rest ih =>
      rw [tokens, List.map_cons, List.map_cons, ih]
      rfl

/-- The second error has the cause, message and length of the first one, `chars` characters
further on. -/
structure LexError.Later (chars : Nat) (e e' : LexError) : Prop where
  cause : e'.cause = e.cause
  message : e'.message = e.message
  length : e'.length = e.length
  offset : e'.position.offset = e.position.offset + chars

theorem Offends.elsewhere {mode : Mode} {before tail : Text} {e : LexError}
    (h : Offends mode before tail e) (before' : Text) :
    Offends mode before' tail
      { e with position := Position.behind before', source := before' ++ tail } :=
  ⟨rfl, rfl, h.reason⟩

namespace Cut

/-- A cut of the text behind segments, as a cut of the whole. -/
def behind {segments : List Segment} (h : Segment.AllCut join after segments)
    (d : Cut join after) : Cut join (Segment.texts segments ++ after) where
  segments := segments ++ d.segments
  gap := d.gap
  tail := d.tail
  source_eq := by rw [Segment.texts_append, List.append_assoc, ← d.source_eq]
  allCut := by
    rw [Segment.allCut_append, ← d.source_eq]
    exact ⟨h, d.allCut⟩
  isGap := d.isGap

/-- Trivia joins the gap that comes first. -/
theorem exists_behind_trivia (hw : Trivia w) (d : Cut join after) :
    ∃ d' : Cut join (w ++ after), d'.segments.map Segment.shape = d.segments.map Segment.shape ∧
      d'.tail = d.tail ∧ d'.before = w ++ d.before := by
  obtain ⟨segments, gap, tail, rfl, hall, hgap⟩ := d
  cases segments with
  | nil => exact ⟨⟨[], w ++ gap, tail, by simp, trivial, hw.isGap_append hgap⟩, rfl, rfl, rfl⟩
  | cons s rest =>
      have hs : Segment.IsCut join { s with gap := w ++ s.gap }
          (Segment.texts rest ++ (gap ++ tail)) :=
        ⟨hw.isGap_append hall.1.gap, hall.1.lexeme⟩
      refine ⟨⟨{ s with gap := w ++ s.gap } :: rest, gap, tail, ?_, ⟨hs, hall.2⟩, hgap⟩, rfl,
        rfl, ?_⟩
      · simp [Segment.text]
      · simp [before, Segment.text]

end Cut

/-! ## Runs with trivia in the source -/

namespace Lexer

/-- So many characters are consumed at the start, or behind a token that is not the end. -/
def Boundary (lx : Lexer) (o : Nat) : Prop :=
  o = 0 ∨ ∃ (k : Nat) (t : ValuedToken) (next : Lexer),
    (lx.pulls k).2.pullValued = (.ok t, next) ∧ t.token.kind ≠ .endOfInput ∧ next.offset = o

/-- The second run gives the same kinds and values, and ends in the same way: with the end of
the input, or with the same error `chars` characters further on. -/
structure Run.Alike (chars : Nat) (r r' : Run) : Prop where
  tokens : r'.tokens.map ValuedToken.shape = r.tokens.map ValuedToken.shape
  ends : r.failure = none → r'.failure = none
  fails : ∀ e, r.failure = some e → ∃ e', r'.failure = some e' ∧ e.Later chars e'

theorem Boundary.exists_segments {mode : Mode} {source filename : Text} {o : Nat}
    (h : (ofSource source mode filename).Boundary o) :
    ∃ segments after, source = Segment.texts segments ++ after ∧
      Segment.AllCut mode.joinElseIf after segments ∧ o = (Segment.texts segments).length := by
  rcases h with rfl | ⟨k, t, next, hpull, hkind, hoffset⟩
  · exact ⟨[], source, rfl, trivial, rfl⟩
  · have hlexes := (lexes_ofSource source mode filename).pulls k
    obtain ⟨segments, after, hsource, hcut, hstands⟩ :=
      (hlexes.step_of_eq hpull).stands_of_kind hkind
    refine ⟨segments, after, hsource.symm, hcut, ?_⟩
    rw [offset, hstands.cursor] at hoffset
    exact (Int.ofNat_inj.mp hoffset).symm

end Lexer

/-- Sources whose cuts differ in the gaps alone are lexed alike. -/
theorem Cut.run_alike {mode : Mode} {source source' : Text} {chars : Nat}
    (c : Cut mode.joinElseIf source) (c' : Cut mode.joinElseIf source')
    (hstops : Stops mode c.tail)
    (hshape : c'.segments.map Segment.shape = c.segments.map Segment.shape)
    (htail : c'.tail = c.tail) (hlength : c'.before.length = c.before.length + chars)
    (filename filename' : Text) :
    Lexer.Run.Alike chars (Lexer.ofSource source mode filename).run
      (Lexer.ofSource source' mode filename').run := by
  have htokens : (Segment.tokens [] c'.segments).map ValuedToken.shape =
      (Segment.tokens [] c.segments).map ValuedToken.shape := by
    rw [Segment.map_shape_tokens, Segment.map_shape_tokens, hshape]
  rcases hstops.ends_or_offends c.before with hends | ⟨e, hoffends⟩
  · obtain ⟨last, hrun, -⟩ := c.run_of_ends hends filename
    obtain ⟨last', hrun', -⟩ := c'.run_of_ends (htail ▸ hends) filename'
    rw [hrun, hrun']
    refine ⟨?_, fun _ => rfl, nofun⟩
    rw [Cut.stream, Cut.stream, List.map_append, List.map_append, htokens]
    rfl
  · have hoffends' := hoffends.elsewhere c'.before
    obtain ⟨last, hrun, -⟩ := c.run_of_offends hoffends filename
    obtain ⟨last', hrun', -⟩ := c'.run_of_offends (htail.symm ▸ hoffends') filename'
    rw [hrun, hrun']
    refine ⟨htokens, nofun, ?_⟩
    intro e' he
    obtain rfl := Option.some.inj he
    refine ⟨_, rfl, rfl, rfl, rfl, ?_⟩
    rw [hoffends.position]
    show (c'.before.length : Int) = c.before.length + chars
    omega

/-- **Trivia is meaningless.** Let a lexer stand at the start of its source or behind a token
that is not the end. If blanks and block comments are put there, a blank first, then lexing
yields tokens of the same kinds and values in the same order, and ends as it did. -/
theorem Lexer.run_insert_trivia (mode : Mode) (source filename filename' w : Text) (o : Nat)
    (ho : (ofSource source mode filename).Boundary o) (hw : Trivia w)
    (hblank : ∀ c ∈ w.head?, isBlank c = true) :
    Run.Alike w.length (ofSource source mode filename).run
      (ofSource (source.take o ++ w ++ source.drop o) mode filename').run := by
  obtain ⟨segments, after, rfl, hcut, rfl⟩ := ho.exists_segments
  rw [List.take_left, List.drop_left, List.append_assoc]
  obtain ⟨d, hstops⟩ := exists_cut_stops mode after
  obtain ⟨d', hshape, htail, hbefore⟩ := d.exists_behind_trivia hw
  refine Cut.run_alike (d.behind hcut) (d'.behind (hcut.insert hw hblank)) hstops ?_ htail ?_
    filename filename'
  · simp [Cut.behind, hshape]
  · have hlength := congrArg List.length hbefore
    simp only [Cut.before, Cut.behind, Segment.texts_append, List.length_append] at hlength ⊢
    omega

/-- A comment with a quote and a line feed in it, between an `else` and the comment that keeps
it from its `if`. The colour behind them is refused eight characters further on. -/
theorem Lexer.run_insert_trivia_else :
    Run.Alike 8 (ofSource "else/**/if $f0" {} []).run
      (ofSource (("else/**/if $f0" : Text).take 4 ++
        [' ', '/', '*', '\x27', '\n', '*', '*', '/'] ++ ("else/**/if $f0" : Text).drop 4)
        {} []).run := by
  refine run_insert_trivia {} "else/**/if $f0" [] []
    [' ', '/', '*', '\x27', '\n', '*', '*', '/'] 4 ?_ ?_ ?_
  · exact .inr ⟨0, ⟨⟨.elseWord, 1, 1⟩, none⟩,
      ⟨[], {}, ⟨"else/**/if $f0", 4, 1, 4, false⟩, some ⟨.elseWord, 1, 1⟩, none, none⟩,
      by decide +kernel, by decide, rfl⟩
  · exact .blank (by decide) (@Trivia.blockComment ['\x27', '\n', '*'] [] (by decide) .nil)
  · simp [isBlank]

end ScriptLex
