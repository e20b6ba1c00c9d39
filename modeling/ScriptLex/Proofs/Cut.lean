import ScriptLex.Lexer
import ScriptLex.Proofs.Lexeme
import ScriptLex.Proofs.Place

/-!
# Cuts

A cut divides a source into segments, each a lexeme with the gap before it, a last gap and
a tail. Nothing in it speaks of a cursor or a scan. The tail says how lexing comes out: it
ends the token stream, or it offends by one of four rules. Every source has exactly one cut
whose tail does either.
-/

namespace ScriptLex

open Gap (IsGap)

/-- A lexeme with the gap before it. -/
structure Segment where
  gap : Text
  lexeme : Text
  kind : Kind
  value : Option Text
deriving DecidableEq, Repr

namespace Segment

def text (s : Segment) : Text := s.gap ++ s.lexeme

def texts (segments : List Segment) : Text := segments.flatMap text

/-- The token of a segment that starts behind `before`. -/
def token (before : Text) (s : Segment) : ValuedToken :=
  .startingAt (Position.behind (before ++ s.gap)) s.kind s.value

/-- The tokens of segments that start behind `before`. -/
def tokens (before : Text) : List Segment → List ValuedToken
  | [] => []
  | s :: rest => s.token before :: tokens (before ++ s.text) rest

/-- In front of `after` the segment is a gap and a lexeme. -/
structure IsCut (joinElseIf : Bool) (s : Segment) (after : Text) : Prop where
  gap : IsGap s.gap (s.lexeme ++ after)
  lexeme : IsLexeme joinElseIf s.lexeme s.kind s.value after

/-- In front of `after` each segment is one, with the later segments behind it. -/
def AllCut (joinElseIf : Bool) (after : Text) : List Segment → Prop
  | [] => True
  | s :: rest => s.IsCut joinElseIf (texts rest ++ after) ∧ AllCut joinElseIf after rest

@[simp] theorem texts_nil : texts [] = [] := rfl

@[simp] theorem texts_cons (s : Segment) (rest : List Segment) :
    texts (s :: rest) = s.text ++ texts rest := rfl

@[simp] theorem texts_append (a b : List Segment) : texts (a ++ b) = texts a ++ texts b := by
  simp [texts]

theorem tokens_append (before : Text) (a b : List Segment) :
    tokens before (a ++ b) = tokens before a ++ tokens (before ++ texts a) b := by
  induction a generalizing before with
  | nil => simp [tokens]
  | cons s a ih => simp [tokens, ih]

theorem token_behind (x before : Text) (s : Segment) :
    s.token (x ++ before) = (s.token before).moved (1 + x.count '\n') x.lastLineLength := by
  rw [token, token, List.append_assoc, ValuedToken.startingAt_behind_append]

/-- Segments behind a longer text have the same tokens, moved. -/
theorem tokens_behind (x before : Text) (segments : List Segment) :
    tokens (x ++ before) segments =
      (tokens before segments).map (.moved (1 + x.count '\n') x.lastLineLength) := by
  induction segments generalizing before with
  | nil => rfl
  | cons s rest ih =>
      rw [tokens, tokens, List.map_cons, token_behind, List.append_assoc, ih]

/-- Every token starts behind some of the text. -/
theorem exists_of_mem_tokens {before : Text} {segments : List Segment} {t : ValuedToken}
    (h : t ∈ tokens before segments) :
    ∃ passed kind value, passed <+: before ++ texts segments ∧
      t = .startingAt (Position.behind passed) kind value := by
  induction segments generalizing before with
  | nil => cases h
  | cons s rest ih =>
      rcases List.mem_cons.mp h with rfl | hrest
      · refine ⟨before ++ s.gap, s.kind, s.value, ⟨s.lexeme ++ texts rest, ?_⟩, rfl⟩
        simp [text]
      · obtain ⟨passed, kind, value, hpassed, ht⟩ := ih hrest
        refine ⟨passed, kind, value, ?_, ht⟩
        rwa [texts_cons, ← List.append_assoc]

theorem allCut_append {join : Bool} {after : Text} {a b : List Segment} :
    AllCut join after (a ++ b) ↔ AllCut join (texts b ++ after) a ∧ AllCut join after b := by
  induction a with
  | nil => simp [AllCut]
  | cons s a ih =>
      rw [List.cons_append, AllCut, AllCut, ih, texts_append, List.append_assoc]
      tauto

theorem length_le_of_allCut {join : Bool} {after : Text} {segments : List Segment}
    (h : AllCut join after segments) : segments.length ≤ (texts segments).length := by
  induction segments with
  | nil => simp
  | cons s rest ih =>
      have hpos := List.length_pos_iff.mpr h.1.lexeme.ne_nil
      have hrest := ih h.2
      simp only [texts_cons, text, List.length_cons, List.length_append]
      omega

end Segment

/-- A source cut into segments, a last gap and a tail. -/
@[ext]
structure Cut (joinElseIf : Bool) (source : Text) where
  segments : List Segment
  gap : Text
  tail : Text
  source_eq : source = Segment.texts segments ++ (gap ++ tail)
  allCut : Segment.AllCut joinElseIf (gap ++ tail) segments
  isGap : IsGap gap tail

/-! ## How a tail comes out -/

/-- The tail ends the token stream. -/
def Ends (mode : Mode) (tail : Text) : Prop :=
  tail = [] ∨ mode.lenientStrings = true ∧ StringLiteral.Open tail

/-- The tail behind `before` is no lexeme, for the reason that the error names. -/
structure Offends (mode : Mode) (before tail : Text) (e : LexError) : Prop where
  source : e.source = before ++ tail
  position : e.position = Position.behind before
  reason : match e.cause with
    | .unterminatedComment => e.message = "block comment reaches end of input" ∧
        e.length = 2 ∧ Head.openComment.Fits mode tail
    | .unterminatedString => e.message = "string literal reaches end of input" ∧
        e.length = 1 ∧ mode.lenientStrings = false ∧ Head.openString.Fits mode tail
    | .unsupportedFeature => e.message = "hex color literals are not supported" ∧
        ∃ digits, e.length = 1 + digits ∧ (Head.hexColor digits).Fits mode tail
    | .unknownToken => ∃ c, e.message = "unknown token " ++ Quoted.quote [c] ∧
        e.length = 1 ∧ (Head.stray c).Fits mode tail
    | .general | .endMisuse => False

/-- A tail behind a longer text offends for the same reason, at the moved place. -/
theorem Offends.behind {mode : Mode} {before tail : Text} {e : LexError}
    (h : Offends mode before tail e) (x : Text) :
    Offends mode (x ++ before) tail
      (e.moved (1 + x.count '\n') x.lastLineLength x.length (x ++ (before ++ tail))) where
  source := (List.append_assoc x before tail).symm
  position := by
    rw [Position.behind_append, ← h.position]
    rfl
  reason := h.reason

/-- What offends is as long as the error says and lies on one line. Only a single character can
be a carriage return. -/
theorem Offends.exists_lexeme {mode : Mode} {before tail : Text} {e : LexError}
    (h : Offends mode before tail e) :
    ∃ lexeme rest, tail = lexeme ++ rest ∧ lexeme.length = e.length ∧ '\n' ∉ lexeme ∧
      (e.length = 1 ∨ '\r' ∉ lexeme) := by
  have hreason := h.reason
  split at hreason
  next =>
    obtain ⟨-, hlength, body, rfl, -⟩ := hreason
    exact ⟨['/', '*'], body, rfl, hlength.symm, by decide, .inr (by decide)⟩
  next =>
    obtain ⟨-, hlength, -, delim, rest, rfl, hdelim, -⟩ := hreason
    have hfeed : delim ≠ '\n' := ne_of_class hdelim (by decide)
    exact ⟨[delim], rest, rfl, hlength.symm, by simpa using hfeed.symm, .inl hlength⟩
  next =>
    obtain ⟨-, digits, hlength, run, after, rfl, hrun, rfl⟩ := hreason
    have hfeed : '\n' ∉ run := fun hmem => absurd (hrun.all _ hmem) (by decide)
    have hreturn : '\r' ∉ run := fun hmem => absurd (hrun.all _ hmem) (by decide)
    refine ⟨'$' :: run, after, rfl, ?_, by simpa using hfeed, .inr (by simpa using hreturn)⟩
    rw [hlength, List.length_cons]
    omega
  next =>
    obtain ⟨c, -, hlength, after, rfl, -, -, -, -, -, -, hnone⟩ := hreason
    have hfeed : c ≠ '\n' := by
      rintro rfl
      exact hnone _ Symbol.script_lineFeed (List.prefix_append ['\n'] after)
    exact ⟨[c], after, rfl, hlength.symm, by simpa using hfeed.symm, .inl hlength⟩
  next => exact hreason.elim
  next => exact hreason.elim

namespace Cut

variable {join : Bool} {source : Text}

/-- What stands before the tail. -/
def before (c : Cut join source) : Text := Segment.texts c.segments ++ c.gap

/-- The tokens of the segments, and the end of the input where the tail starts. -/
def stream (c : Cut join source) : List ValuedToken :=
  Segment.tokens [] c.segments ++
    [.startingAt (Position.behind c.before) .endOfInput none]

theorem before_append_tail (c : Cut join source) : c.before ++ c.tail = source := by
  rw [before, List.append_assoc, ← c.source_eq]

theorem exists_of_mem_stream (c : Cut join source) {t : ValuedToken} (h : t ∈ c.stream) :
    ∃ passed kind value, passed <+: source ∧
      t = .startingAt (Position.behind passed) kind value := by
  rcases List.mem_append.mp h with htokens | hend
  · obtain ⟨passed, kind, value, hpassed, ht⟩ := Segment.exists_of_mem_tokens htokens
    refine ⟨passed, kind, value, hpassed.trans ?_, ht⟩
    rw [List.nil_append]
    exact ⟨c.gap ++ c.tail, c.source_eq.symm⟩
  · exact ⟨c.before, _, _, ⟨c.tail, c.before_append_tail⟩, List.mem_singleton.mp hend⟩

end Cut

/-- The tail is neither a gap nor a lexeme. -/
def Stops (mode : Mode) (tail : Text) : Prop :=
  ∃ head : Head, head.Fits mode tail ∧ ∀ kind value after, head ≠ .lexeme kind value after

theorem Ends.stops {mode : Mode} {tail : Text} (h : Ends mode tail) : Stops mode tail := by
  rcases h with rfl | ⟨-, hopen⟩
  · exact ⟨.endOfInput, rfl, by simp⟩
  · exact ⟨.openString, hopen, by simp⟩

theorem Offends.stops {mode : Mode} {before tail : Text} {e : LexError}
    (h : Offends mode before tail e) : Stops mode tail := by
  have hreason := h.reason
  split at hreason
  next => exact ⟨_, hreason.2.2, by simp⟩
  next => exact ⟨_, hreason.2.2.2, by simp⟩
  next =>
    obtain ⟨-, digits, -, hfits⟩ := hreason
    exact ⟨_, hfits, by simp⟩
  next =>
    obtain ⟨c, -, -, hfits⟩ := hreason
    exact ⟨_, hfits, by simp⟩
  next => exact hreason.elim
  next => exact hreason.elim

/-- A tail that stops comes out one way or the other. -/
theorem Stops.ends_or_offends {mode : Mode} {tail : Text} (h : Stops mode tail)
    (before : Text) : Ends mode tail ∨ ∃ e, Offends mode before tail e := by
  obtain ⟨head, hfits, hlexeme⟩ := h
  cases head with
  | endOfInput => exact .inl (.inl hfits)
  | lexeme kind value after => exact absurd rfl (hlexeme kind value after)
  | openComment =>
      exact .inr ⟨⟨.unterminatedComment, _, Position.behind before, before ++ tail, 2,
        by decide⟩, rfl, rfl, rfl, rfl, hfits⟩
  | openString =>
      cases hmode : mode.lenientStrings with
      | true => exact .inl (.inr ⟨hmode, hfits⟩)
      | false =>
          exact .inr ⟨⟨.unterminatedString, _, Position.behind before, before ++ tail, 1,
            by decide⟩, rfl, rfl, rfl, rfl, hmode, hfits⟩
  | hexColor digits =>
      exact .inr ⟨⟨.unsupportedFeature, _, Position.behind before, before ++ tail, 1 + digits,
        by omega⟩, rfl, rfl, rfl, digits, rfl, hfits⟩
  | stray c =>
      exact .inr ⟨⟨.unknownToken, _, Position.behind before, before ++ tail, 1, by decide⟩,
        rfl, rfl, c, rfl, rfl, hfits⟩

/-! ## Every source has a cut -/

/-- What one step finds in front of it: a segment, or a gap and a tail that stops. -/
theorem exists_segment_or_stops (mode : Mode) (unread : Text) :
    (∃ (s : Segment) (after : Text), unread = s.text ++ after ∧
      s.IsCut mode.joinElseIf after) ∨
    ∃ gap tail, unread = gap ++ tail ∧ IsGap gap tail ∧ Stops mode tail := by
  obtain ⟨gap, hgap, hunread⟩ := Gap.exists_isGap unread
  have hfits : (Head.ofText mode (Gap.rest unread)).Fits mode (Gap.rest unread) :=
    Head.fits_ofText (Gap.afterPiece?_rest unread)
  cases hhead : Head.ofText mode (Gap.rest unread) with
  | lexeme kind value after =>
      rw [hhead] at hfits
      obtain ⟨lexeme, hrest, hlexeme⟩ := hfits
      rw [hrest] at hgap hunread
      refine .inl ⟨⟨gap, lexeme, kind, value⟩, after, ?_, hgap, hlexeme⟩
      rw [hunread, Segment.text, List.append_assoc]
  | endOfInput => exact .inr ⟨gap, _, hunread, hgap, _, hfits, by simp [hhead]⟩
  | openComment => exact .inr ⟨gap, _, hunread, hgap, _, hfits, by simp [hhead]⟩
  | openString => exact .inr ⟨gap, _, hunread, hgap, _, hfits, by simp [hhead]⟩
  | hexColor => exact .inr ⟨gap, _, hunread, hgap, _, hfits, by simp [hhead]⟩
  | stray => exact .inr ⟨gap, _, hunread, hgap, _, hfits, by simp [hhead]⟩

/-- By induction on the length: the lexeme that is cut off first is not empty. -/
theorem exists_cut_stops (mode : Mode) (source : Text) :
    ∃ c : Cut mode.joinElseIf source, Stops mode c.tail := by
  induction hlength : source.length using Nat.strong_induction_on generalizing source with
  | _ n ih =>
      rcases exists_segment_or_stops mode source with
        ⟨s, after, hsource, hcut⟩ | ⟨gap, tail, hsource, hgap, hstops⟩
      · have hshort : after.length < n := by
          have hpos := List.length_pos_iff.mpr hcut.lexeme.ne_nil
          rw [← hlength, hsource, Segment.text]
          simp only [List.length_append]
          omega
        obtain ⟨c, hc⟩ := ih after.length hshort after rfl
        refine ⟨⟨s :: c.segments, c.gap, c.tail, ?_, ⟨?_, c.allCut⟩, c.isGap⟩, hc⟩
        · rw [hsource, Segment.texts_cons, List.append_assoc, ← c.source_eq]
        · rw [← c.source_eq]
          exact hcut
      · exact ⟨⟨[], gap, tail, hsource, trivial, hgap⟩, hstops⟩

/-! ## and only one -/

theorem Stops.afterPiece? {mode : Mode} {tail : Text} (h : Stops mode tail) :
    Gap.afterPiece? tail = none := by
  obtain ⟨head, hfits, -⟩ := h
  exact hfits.ofText.1

/-- A lexeme does not stop. -/
theorem IsLexeme.not_stops {mode : Mode} {lexeme after : Text} {kind : Kind}
    {value : Option Text} (h : IsLexeme mode.joinElseIf lexeme kind value after) :
    ¬ Stops mode (lexeme ++ after) := by
  rintro ⟨head, hfits, hlexeme⟩
  have hhead := hfits.ofText.2
  rw [h.ofText] at hhead
  exact hlexeme kind value after hhead.symm

/-- Two gaps in front of what is no gap have the same text behind them. -/
theorem Gap.IsGap.append_inj {gap gap' after after' : Text} (h : IsGap gap after)
    (h' : IsGap gap' after') (hstop : Gap.afterPiece? after = none)
    (hstop' : Gap.afterPiece? after' = none) (heq : gap ++ after = gap' ++ after') :
    gap = gap' ∧ after = after' := by
  have hafter : after = after' := by
    rw [← h.rest_eq hstop, heq, h'.rest_eq hstop']
  subst hafter
  exact ⟨List.append_cancel_right heq, rfl⟩

theorem IsLexeme.append_inj {join : Bool} {lexeme lexeme' after after' : Text}
    {kind kind' : Kind} {value value' : Option Text}
    (h : IsLexeme join lexeme kind value after)
    (h' : IsLexeme join lexeme' kind' value' after')
    (heq : lexeme ++ after = lexeme' ++ after') :
    lexeme = lexeme' ∧ kind = kind' ∧ value = value' ∧ after = after' := by
  have hhead : Head.ofText ⟨false, join⟩ (lexeme ++ after) = .lexeme kind value after :=
    IsLexeme.ofText h
  have hhead' : Head.ofText ⟨false, join⟩ (lexeme' ++ after') = .lexeme kind' value' after' :=
    IsLexeme.ofText h'
  rw [heq, hhead'] at hhead
  obtain ⟨rfl, rfl, rfl⟩ := Head.lexeme.inj hhead
  exact ⟨List.append_cancel_right heq, rfl, rfl, rfl⟩

theorem Segment.IsCut.append_inj {join : Bool} {s s' : Segment} {after after' : Text}
    (h : s.IsCut join after) (h' : s'.IsCut join after')
    (heq : s.text ++ after = s'.text ++ after') : s = s' ∧ after = after' := by
  rw [Segment.text, Segment.text, List.append_assoc, List.append_assoc] at heq
  obtain ⟨hgap, hrest⟩ := h.gap.append_inj h'.gap h.lexeme.afterPiece? h'.lexeme.afterPiece? heq
  obtain ⟨hlexeme, hkind, hvalue, hafter⟩ := h.lexeme.append_inj h'.lexeme hrest
  cases s
  cases s'
  simp_all

/-- A segment and a tail that stops do not start the same text. -/
theorem Segment.IsCut.not_stops {mode : Mode} {s : Segment} {after gap tail : Text}
    (h : s.IsCut mode.joinElseIf after) (hgap : IsGap gap tail) (hstops : Stops mode tail) :
    s.text ++ after ≠ gap ++ tail := by
  intro heq
  rw [Segment.text, List.append_assoc] at heq
  obtain ⟨-, htail⟩ := h.gap.append_inj hgap h.lexeme.afterPiece? hstops.afterPiece? heq
  exact h.lexeme.not_stops (htail ▸ hstops)

theorem Segment.allCut_unique {mode : Mode} {gap gap' tail tail' : Text}
    (hgap : IsGap gap tail) (hgap' : IsGap gap' tail') (hstops : Stops mode tail)
    (hstops' : Stops mode tail') {a b : List Segment}
    (ha : AllCut mode.joinElseIf (gap ++ tail) a) (hb : AllCut mode.joinElseIf (gap' ++ tail') b)
    (heq : texts a ++ (gap ++ tail) = texts b ++ (gap' ++ tail')) :
    a = b ∧ gap = gap' ∧ tail = tail' := by
  -- along `a`: what stands in front of both is the same text, and decides the first segment
  induction a generalizing b with
  | nil =>
      cases b with
      | nil =>
          exact ⟨rfl, hgap.append_inj hgap' hstops.afterPiece? hstops'.afterPiece? heq⟩
      | cons s' b =>
          rw [texts_nil, List.nil_append, texts_cons, List.append_assoc] at heq
          exact absurd heq.symm (hb.1.not_stops hgap hstops)
  | cons s a ih =>
      cases b with
      | nil =>
          rw [texts_nil, List.nil_append, texts_cons, List.append_assoc] at heq
          exact absurd heq (ha.1.not_stops hgap' hstops')
      | cons s' b =>
          rw [texts_cons, texts_cons, List.append_assoc, List.append_assoc] at heq
          obtain ⟨rfl, hrest⟩ := ha.1.append_inj hb.1 heq
          obtain ⟨rfl, hgaps, htails⟩ := ih ha.2 hb.2 hrest
          exact ⟨rfl, hgaps, htails⟩

/-- **Cuts are unique.** -/
theorem Cut.eq_of_stops {mode : Mode} {source : Text} {c c' : Cut mode.joinElseIf source}
    (h : Stops mode c.tail) (h' : Stops mode c'.tail) : c = c' := by
  obtain ⟨hsegments, hgap, htail⟩ := Segment.allCut_unique c.isGap c'.isGap h h' c.allCut
    c'.allCut (c.source_eq.symm.trans c'.source_eq)
  exact Cut.ext hsegments hgap htail

end ScriptLex
