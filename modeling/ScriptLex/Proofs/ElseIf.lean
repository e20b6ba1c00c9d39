import Mathlib.Data.List.Chain
import ScriptLex.Proofs.Line
import ScriptLex.Proofs.Lookahead
import ScriptLex.Proofs.Scan

/-!
# Joining `else` and `if`

The lexer looks ahead from an `else` for an `if` behind blanks. The same comes out if every
word is lexed by itself and the pairs are joined afterwards, by looking at the tokens and at
what the source has between them. A cut of one kind becomes a cut of the other when the
segments of such pairs are put together; nothing else in it changes.
-/

namespace ScriptLex

open Gap (IsGap)

/-- Neighbours that belong together become one, from left to right. -/
def mergePairs {α : Type} (belong : α → α → Bool) (merge : α → α → α) : List α → List α
  | [] => []
  | [a] => [a]
  | a :: b :: rest =>
    if belong a b then merge a b :: mergePairs belong merge rest
    else a :: mergePairs belong merge (b :: rest)

namespace ValuedToken

/-- What the source has between an `else`, a word of four characters, and the next token. -/
def gapBehindElse (source : Text) (a b : ValuedToken) : Text :=
  source.slice (source.offsetAt a.token.line a.token.column + 4)
    (source.offsetAt b.token.line b.token.column)

/-- An `else` and an `if` with nothing but blanks between them. -/
def isElseIf (source : Text) (a b : ValuedToken) : Bool :=
  a.token.kind = .elseWord && b.token.kind = .ifWord && (gapBehindElse source a b).all isBlank

/-- The words of both tokens as one token, where the first one is. -/
def asElseIf (a _b : ValuedToken) : ValuedToken :=
  ⟨⟨.elseIfWords, a.token.line, a.token.column⟩, none⟩

/-- Each `else` joined with the `if` that only blanks keep from it. -/
def joinElseIfs (source : Text) : List ValuedToken → List ValuedToken :=
  mergePairs (isElseIf source) asElseIf

/-- If these are an `else` and an `if`, there is a block comment behind the `else`, with blanks
before it at most. -/
def ApartByComment (source : Text) (a b : ValuedToken) : Prop :=
  a.token.kind = .elseWord → b.token.kind = .ifWord → ∃ blanks body rest,
    gapBehindElse source a b = blanks ++ '/' :: '*' :: (body ++ '*' :: '/' :: rest) ∧
      (∀ c ∈ blanks, isBlank c = true) ∧ ¬ ['*', '/'] <:+: body

end ValuedToken

namespace Segment

/-- The same for segments, whose gaps are at hand. -/
def isElseIf (s s' : Segment) : Bool :=
  s.kind = .elseWord && s'.kind = .ifWord && s'.gap.all isBlank

def asElseIf (s s' : Segment) : Segment := ⟨s.gap, s.lexeme ++ s'.text, .elseIfWords, none⟩

def joinElseIfs : List Segment → List Segment := mergePairs isElseIf asElseIf

end Segment

/-! ## The words `else` and `if` -/

variable {join : Bool} {lexeme after : Text} {kind : Kind} {value : Option Text}

theorem Keyword.kind?_if : Keyword.kind? ['i', 'f'] = some .ifWord := by
  decide +kernel

theorem Keyword.eq_if_of_kind? {word : Text} (h : Keyword.kind? word = some .ifWord) :
    word = ['i', 'f'] := by
  have hall : ∀ p ∈ Keyword.table, p.2 = .ifWord → p.1 = ['i', 'f'] := by
    decide +kernel
  exact hall _ (Keyword.mem_table_of_kind? h) rfl

/-- Only the keywords have these kinds. -/
theorem IsLexeme.wholeWord_of_kind (h : IsLexeme join lexeme kind value after)
    (hkind : kind = .elseWord ∨ kind = .ifWord) :
    WholeWord lexeme after ∧ Keyword.kind? lexeme = some kind ∧
      (join = true → lexeme = ['e', 'l', 's', 'e'] → ¬ StartsIf after) := by
  cases h with
  | symbol hlongest =>
      have hall : ∀ s ∈ Symbol.script, ¬ (s.kind = .elseWord ∨ s.kind = .ifWord) := by
        decide +kernel
      exact absurd hkind (hall _ hlongest.mem)
  | keyword hword hkind' halone =>
      refine ⟨hword, hkind', ?_⟩
      rintro hjoin helse ⟨words, rest, hafter, hwords⟩
      exact halone hjoin helse words rest hafter hwords
  | name => simp at hkind
  | elseIf => simp at hkind
  | number => simp at hkind
  | string => simp at hkind

theorem IsLexeme.eq_else (h : IsLexeme join lexeme .elseWord value after) :
    lexeme = ['e', 'l', 's', 'e'] ∧ (∀ c ∈ after.head?, isWordChar c = false) ∧
      (join = true → ¬ StartsIf after) := by
  obtain ⟨hword, hkind, halone⟩ := h.wholeWord_of_kind (.inl rfl)
  have helse := Keyword.eq_else_of_kind? hkind
  exact ⟨helse, hword.run.stop, fun hjoin => halone hjoin helse⟩

theorem IsLexeme.eq_if (h : IsLexeme join lexeme .ifWord value after) :
    lexeme = ['i', 'f'] ∧ ∀ c ∈ after.head?, isWordChar c = false := by
  obtain ⟨hword, hkind, -⟩ := h.wholeWord_of_kind (.inr rfl)
  exact ⟨Keyword.eq_if_of_kind? hkind, hword.run.stop⟩

/-- The segment of an `else` has that word for its lexeme. -/
theorem Segment.IsCut.eq_else {s : Segment} (h : s.IsCut join after)
    (hkind : s.kind = .elseWord) :
    s.lexeme = ['e', 'l', 's', 'e'] ∧ (∀ c ∈ after.head?, isWordChar c = false) ∧
      (join = true → ¬ StartsIf after) := by
  have hlexeme := h.lexeme
  rw [hkind] at hlexeme
  exact hlexeme.eq_else

theorem Segment.IsCut.eq_if {s : Segment} (h : s.IsCut join after) (hkind : s.kind = .ifWord) :
    s.lexeme = ['i', 'f'] ∧ ∀ c ∈ after.head?, isWordChar c = false := by
  have hlexeme := h.lexeme
  rw [hkind] at hlexeme
  exact hlexeme.eq_if

/-- Lexing words by themselves or joined parts only over an `else` with an `if` behind it. -/
theorem IsLexeme.joined (h : IsLexeme false lexeme kind value after)
    (halone : kind = .elseWord → ¬ StartsIf after) : IsLexeme true lexeme kind value after := by
  cases h with
  | symbol hlongest hline hblock => exact .symbol hlongest hline hblock
  | keyword hword hkind _ =>
      refine .keyword hword hkind ?_
      intro _ helse words rest hafter hwords
      rw [helse, Keyword.kind?_else] at hkind
      exact halone (Option.some.inj hkind).symm ⟨words, rest, hafter, hwords⟩
  | name hword hkind => exact .name hword hkind
  | elseIf hjoin _ => cases hjoin
  | number hstart hrun => exact .number hstart hrun
  | string hdelim hbody => exact .string hdelim hbody

/-! ## An `if` in front -/

theorem Gap.isGap_of_blanks {blanks : Text} (h : ∀ c ∈ blanks, isBlank c = true)
    (after : Text) : IsGap blanks after := by
  induction blanks with
  | nil => exact .nil
  | cons c blanks ih =>
      have hpiece : Gap.Piece [c] (blanks ++ after) := .blank (h c List.mem_cons_self)
      exact .cons hpiece (ih fun x hx => h x (List.mem_cons_of_mem c hx))

namespace Segment

/-- The word `if` behind a gap. -/
def ifBehind (gap : Text) : Segment := ⟨gap, ['i', 'f'], .ifWord, none⟩

theorem isCut_ifBehind {gap : Text} (hgap : IsGap gap ('i' :: 'f' :: after))
    (hafter : ∀ c ∈ after.head?, isWordChar c = false) : (ifBehind gap).IsCut join after where
  gap := hgap
  lexeme := by
    have hword : WholeWord ['i', 'f'] after :=
      ⟨⟨'i', rfl, by decide⟩, List.all_eq_true.mp (by decide), hafter⟩
    have hne : (['i', 'f'] : Text) ≠ ['e', 'l', 's', 'e'] := by decide
    exact .keyword hword Keyword.kind?_if fun _ helse => absurd helse hne

end Segment

/-- Blanks and the word `if` are a segment. -/
theorem StartsIf.exists_segment {t : Text} (h : StartsIf t) (join : Bool) :
    ∃ blanks rest, (∀ c ∈ blanks, isBlank c = true) ∧
      t = (Segment.ifBehind blanks).text ++ rest ∧
      (Segment.ifBehind blanks).IsCut join rest := by
  obtain ⟨words, rest, rfl, hwords⟩ := h
  cases hwords with
  | @intro blanks _ _ hblanks hrest =>
      refine ⟨blanks, rest, hblanks, rfl, ?_⟩
      exact Segment.isCut_ifBehind (Gap.isGap_of_blanks hblanks _) hrest

/-- A segment in front of which an `else` would look for an `if` is one. -/
theorem Segment.IsCut.of_startsIf {s : Segment} (h : s.IsCut join after)
    (hif : StartsIf (s.text ++ after)) :
    s.kind = .ifWord ∧ ∀ c ∈ s.gap, isBlank c = true := by
  obtain ⟨blanks, rest, hblanks, heq, hcut⟩ := hif.exists_segment join
  obtain ⟨rfl, -⟩ := h.append_inj hcut heq
  exact ⟨rfl, hblanks⟩

/-- The other way round, where no word goes on into the segment. -/
theorem Segment.IsCut.trailingIf {s : Segment} (h : s.IsCut join after)
    (hstop : ∀ c ∈ (s.text ++ after).head?, isWordChar c = false) (hkind : s.kind = .ifWord)
    (hblanks : ∀ c ∈ s.gap, isBlank c = true) : TrailingIf s.text after := by
  obtain ⟨hlexeme, hafter⟩ := h.eq_if hkind
  rw [Segment.text, hlexeme] at hstop ⊢
  have hne : s.gap ≠ [] := by
    intro hnil
    rw [hnil] at hstop
    exact absurd (hstop 'i' rfl) (by decide)
  exact .intro hne hblanks hafter

theorem Stops.not_startsIf {mode : Mode} {gap tail : Text} (h : Stops mode tail)
    (hgap : IsGap gap tail) : ¬ StartsIf (gap ++ tail) := by
  intro hif
  obtain ⟨blanks, rest, -, heq, hcut⟩ := hif.exists_segment mode.joinElseIf
  exact hcut.not_stops hgap h heq.symm

/-! ## Segments, joined -/

namespace Segment

@[simp] theorem text_asElseIf (s s' : Segment) : (s.asElseIf s').text = s.text ++ s'.text := by
  simp [asElseIf, text]

@[simp] theorem texts_joinElseIfs (segments : List Segment) :
    texts (joinElseIfs segments) = texts segments := by
  unfold joinElseIfs
  fun_induction mergePairs isElseIf asElseIf segments with
  | case1 => rfl
  | case2 => rfl
  | case3 s s' rest _ ih => simp [ih]
  | case4 s s' rest _ ih =>
      rw [texts_cons, ih]
      rfl

theorem isElseIf_iff {s s' : Segment} :
    isElseIf s s' = true ↔
      s.kind = .elseWord ∧ s'.kind = .ifWord ∧ ∀ c ∈ s'.gap, isBlank c = true := by
  simp [isElseIf, and_assoc]

/-- An `else` and its `if` are one lexeme where words are joined. -/
theorem IsCut.asElseIf {s s' : Segment} (h : s.IsCut false (s'.text ++ after))
    (h' : s'.IsCut false after) (hpair : isElseIf s s' = true) :
    (s.asElseIf s').IsCut true after := by
  obtain ⟨hkind, hkind', hblanks⟩ := isElseIf_iff.mp hpair
  obtain ⟨hlexeme, hstop, -⟩ := h.eq_else hkind
  constructor
  · have hgap := h.gap
    rwa [← List.append_assoc] at hgap
  · have hjoined : IsLexeme true (['e', 'l', 's', 'e'] ++ s'.text) .elseIfWords none after :=
      .elseIf rfl (h'.trailingIf hstop hkind' hblanks)
    rwa [← hlexeme] at hjoined

/-- A segment that is not the first of such a pair is one in either way of lexing. -/
theorem IsCut.joined {s : Segment} (h : s.IsCut false after)
    (halone : s.kind = .elseWord → ¬ StartsIf after) : s.IsCut true after :=
  ⟨h.gap, h.lexeme.joined halone⟩

theorem AllCut.joinElseIfs {segments : List Segment} (h : AllCut false after segments)
    (hafter : ¬ StartsIf after) : AllCut true after (joinElseIfs segments) := by
  have htexts := texts_joinElseIfs
  unfold Segment.joinElseIfs at htexts ⊢
  fun_induction mergePairs isElseIf asElseIf segments with
  | case1 => trivial
  | case2 s => exact ⟨h.1.joined fun _ => hafter, trivial⟩
  | case3 s s' rest hpair ih =>
      obtain ⟨hs, hs', hrest⟩ := h
      rw [texts_cons, List.append_assoc] at hs
      refine ⟨?_, ih hrest⟩
      rw [htexts]
      exact hs.asElseIf hs' hpair
  | case4 s s' rest hpair ih =>
      obtain ⟨hs, hs', hrest⟩ := h
      refine ⟨?_, ih ⟨hs', hrest⟩⟩
      rw [htexts]
      apply hs.joined
      intro hkind hif
      rw [texts_cons, List.append_assoc] at hif
      exact hpair (isElseIf_iff.mpr ⟨hkind, hs'.of_startsIf hif⟩)

/-! ## Tokens, joined -/

variable {source before : Text}

/-- The place of a token leads back to where its lexeme starts. -/
theorem offsetAt_token (before after : Text) (s : Segment) :
    (before ++ (s.text ++ after)).offsetAt (s.token before).token.line
      (s.token before).token.column = (before ++ s.gap).length := by
  rw [text, List.append_assoc, ← List.append_assoc]
  exact Text.offsetAt_behind (before ++ s.gap) (s.lexeme ++ after)

/-- What the source has behind an `else` is the gap of the next segment. -/
theorem gapBehindElse_token {s s' : Segment} (hlength : s.lexeme.length = 4)
    (hsource : before ++ (s.text ++ (s'.text ++ after)) = source) :
    ValuedToken.gapBehindElse source (s.token before) (s'.token (before ++ s.text)) = s'.gap := by
  have hstart := offsetAt_token before (s'.text ++ after) s
  have hend := offsetAt_token (before ++ s.text) after s'
  rw [hsource] at hstart
  rw [List.append_assoc, hsource] at hend
  have hword : ((before ++ s.gap).length : Int) + 4 = (before ++ s.text).length := by
    simp only [text, List.length_append]
    omega
  have hgap := Text.slice_append (before ++ s.text) s'.gap (s'.lexeme ++ after)
  rw [← List.append_assoc s'.gap, ← text, List.append_assoc, hsource] at hgap
  rw [ValuedToken.gapBehindElse, hstart, hend, hword]
  exact hgap

theorem IsCut.length_of_else {s : Segment} (h : s.IsCut join after) (hkind : s.kind = .elseWord) :
    s.lexeme.length = 4 := by
  rw [(h.eq_else hkind).1]
  rfl

theorem IsCut.isElseIf_token {s s' : Segment} (h : s.IsCut join (s'.text ++ after))
    (hsource : before ++ (s.text ++ (s'.text ++ after)) = source) :
    ValuedToken.isElseIf source (s.token before) (s'.token (before ++ s.text)) =
      isElseIf s s' := by
  by_cases hkind : s.kind = .elseWord
  · rw [ValuedToken.isElseIf, gapBehindElse_token (h.length_of_else hkind) hsource]
    rfl
  · have hkind' : (s.token before).token.kind ≠ .elseWord := hkind
    simp [ValuedToken.isElseIf, isElseIf, hkind, hkind']

/-- Joining the tokens of segments gives the tokens of the joined segments. -/
theorem AllCut.joinElseIfs_tokens {segments : List Segment} (h : AllCut join after segments)
    (hsource : before ++ (texts segments ++ after) = source) :
    ValuedToken.joinElseIfs source (tokens before segments) =
      tokens before (Segment.joinElseIfs segments) := by
  unfold ValuedToken.joinElseIfs Segment.joinElseIfs
  fun_induction mergePairs isElseIf asElseIf segments generalizing before with
  | case1 => rfl
  | case2 => rfl
  | case3 s s' rest hpair ih =>
      obtain ⟨hs, hs', hrest⟩ := h
      rw [texts_cons, List.append_assoc] at hs
      rw [texts_cons, texts_cons, List.append_assoc, List.append_assoc] at hsource
      have hbelong := hs.isElseIf_token hsource
      have hbehind : before ++ s.text ++ s'.text ++ (texts rest ++ after) = source := by
        simpa using hsource
      rw [tokens, tokens, mergePairs, if_pos (hbelong.trans hpair), ih hrest hbehind, tokens,
        text_asElseIf, List.append_assoc]
      rfl
  | case4 s s' rest hpair ih =>
      obtain ⟨hs, hs', hrest⟩ := h
      rw [texts_cons, List.append_assoc] at hs
      rw [texts_cons, List.append_assoc] at hsource
      have hbehind : before ++ s.text ++ (texts (s' :: rest) ++ after) = source := by
        rw [List.append_assoc, hsource]
      rw [texts_cons, List.append_assoc] at hsource
      have hbelong := hs.isElseIf_token hsource
      have hnot : ¬ ValuedToken.isElseIf source (s.token before)
          (s'.token (before ++ s.text)) = true := by
        rw [hbelong]
        exact hpair
      rw [tokens, tokens, mergePairs, if_neg hnot]
      rw [show s'.token (before ++ s.text) :: tokens (before ++ s.text ++ s'.text) rest =
        tokens (before ++ s.text) (s' :: rest) from rfl, ih ⟨hs', hrest⟩ hbehind]
      rfl

end Segment

/-- The end of the input is no `if`: it is joined with nothing. -/
theorem ValuedToken.joinElseIfs_concat (source : Text) (tokens : List ValuedToken)
    {last : ValuedToken} (hlast : last.token.kind ≠ .ifWord) :
    joinElseIfs source (tokens ++ [last]) = joinElseIfs source tokens ++ [last] := by
  unfold joinElseIfs
  fun_induction mergePairs (isElseIf source) asElseIf tokens with
  | case1 => rfl
  | case2 a => simp [mergePairs, isElseIf, hlast]
  | case3 a b rest hpair ih =>
      rw [List.cons_append, List.cons_append, mergePairs, if_pos hpair, ih]
      rfl
  | case4 a b rest hpair ih =>
      rw [List.cons_append, List.cons_append, mergePairs, if_neg hpair, ← List.cons_append, ih]
      rfl

/-! ## What keeps an `else` from its `if` -/

namespace Gap

variable {gap : Text}

/-- No gap starts with a line feed. -/
theorem IsGap.exists_head? (h : IsGap gap after) (hafter : ∃ c ∈ after.head?, c ≠ '\n') :
    ∃ c ∈ (gap ++ after).head?, c ≠ '\n' := by
  cases h with
  | nil => exact hafter
  | cons hpiece _ =>
      cases hpiece with
      | @blank c _ hc => exact ⟨c, rfl, ne_of_class hc (by decide)⟩
      | blockComment => exact ⟨'/', rfl, by decide⟩
      | lineComment => exact ⟨'/', rfl, by decide⟩

/-- In front of a text on the same line, a gap that is not all blanks has a block comment: a
line comment would end the line. -/
theorem IsGap.exists_blockComment (h : IsGap gap after) (hafter : ∃ c ∈ after.head?, c ≠ '\n')
    (hgap : ¬ ∀ c ∈ gap, isBlank c = true) :
    ∃ blanks body rest, gap = blanks ++ '/' :: '*' :: (body ++ '*' :: '/' :: rest) ∧
      (∀ c ∈ blanks, isBlank c = true) ∧ ¬ ['*', '/'] <:+: body := by
  induction h with
  | nil => exact absurd (by simp) hgap
  | @cons piece gap after hpiece hrest ih =>
      cases hpiece with
      | @blank c _ hc =>
          have hgap' : ¬ ∀ x ∈ gap, isBlank x = true := by
            intro hall
            apply hgap
            simpa using ⟨hc, hall⟩
          obtain ⟨blanks, body, rest, rfl, hblanks, hbody⟩ := ih hafter hgap'
          exact ⟨c :: blanks, body, rest, rfl, by simpa using ⟨hc, hblanks⟩, hbody⟩
      | @blockComment body _ hbody => exact ⟨[], body, gap, by simp, by simp, hbody⟩
      | @lineComment body _ hbody =>
          obtain ⟨c, hc, hne⟩ := hrest.exists_head? hafter
          have hfeed := hbody.stop c hc
          simp [hne] at hfeed

end Gap

namespace Segment

variable {source before : Text}

/-- Where words are joined, an `else` and an `if` stay apart because of a comment. -/
theorem IsCut.apartByComment {s s' : Segment} (h : s.IsCut true (s'.text ++ after))
    (h' : s'.IsCut true after)
    (hsource : before ++ (s.text ++ (s'.text ++ after)) = source) :
    ValuedToken.ApartByComment source (s.token before) (s'.token (before ++ s.text)) := by
  intro hkind hkind'
  rw [gapBehindElse_token (h.length_of_else hkind) hsource]
  obtain ⟨-, hstop, halone⟩ := h.eq_else hkind
  apply h'.gap.exists_blockComment
  · rw [(h'.eq_if hkind').1]
    exact ⟨'i', rfl, by decide⟩
  · intro hblanks
    exact halone rfl ⟨s'.text, after, rfl, h'.trailingIf hstop hkind' hblanks⟩

/-- Along the segments: every `else` with an `if` behind it has a comment there. -/
theorem AllCut.isChain_tokens {segments : List Segment} (h : AllCut true after segments)
    (hsource : before ++ (texts segments ++ after) = source) :
    (tokens before segments).IsChain (ValuedToken.ApartByComment source) := by
  induction segments generalizing before with
  | nil => exact List.IsChain.nil
  | cons s rest ih =>
      have hbehind : before ++ s.text ++ (texts rest ++ after) = source := by
        rw [← hsource, texts_cons]
        simp
      have hchain := ih h.2 hbehind
      cases rest with
      | nil => exact List.IsChain.singleton _
      | cons s' rest =>
          refine List.IsChain.cons_cons ?_ hchain
          obtain ⟨hs, hs', -⟩ := h
          rw [texts_cons, List.append_assoc] at hs
          apply hs.apartByComment hs'
          rw [← hsource, texts_cons, texts_cons]
          simp

end Segment

/-! ## Whole sources -/

namespace Cut

variable {source : Text}

/-- The cut in which words are joined, from the one in which they are not. -/
def joinElseIfs (c : Cut false source) (h : ¬ StartsIf (c.gap ++ c.tail)) : Cut true source where
  segments := Segment.joinElseIfs c.segments
  gap := c.gap
  tail := c.tail
  source_eq := by rw [Segment.texts_joinElseIfs, ← c.source_eq]
  allCut := c.allCut.joinElseIfs h
  isGap := c.isGap

theorem before_joinElseIfs (c : Cut false source) (h : ¬ StartsIf (c.gap ++ c.tail)) :
    (c.joinElseIfs h).before = c.before := by
  simp [before, joinElseIfs]

theorem tokens_joinElseIfs (c : Cut false source) (h : ¬ StartsIf (c.gap ++ c.tail)) :
    Segment.tokens [] (c.joinElseIfs h).segments =
      ValuedToken.joinElseIfs source (Segment.tokens [] c.segments) := by
  symm
  exact c.allCut.joinElseIfs_tokens c.source_eq.symm

theorem stream_joinElseIfs (c : Cut false source) (h : ¬ StartsIf (c.gap ++ c.tail)) :
    (c.joinElseIfs h).stream = ValuedToken.joinElseIfs source c.stream := by
  have hend : Kind.endOfInput ≠ Kind.ifWord := by decide
  rw [stream, stream, tokens_joinElseIfs, before_joinElseIfs]
  exact (ValuedToken.joinElseIfs_concat source _ hend).symm

/-- The end of the input is no `if` that an `else` could have been kept from. -/
theorem isChain_stream (c : Cut true source) :
    c.stream.IsChain (ValuedToken.ApartByComment source) := by
  rw [stream, List.isChain_append]
  refine ⟨c.allCut.isChain_tokens c.source_eq.symm, List.IsChain.singleton _, ?_⟩
  intro a _ b hb _ hkind
  obtain rfl := Option.some.inj hb
  cases hkind

end Cut

/-- The two ways of lexing have their cut in common, but for the pairs that are joined. -/
theorem exists_cut_joinElseIfs (mode : Mode) (source : Text) :
    ∃ (c : Cut false source) (d : Cut true source),
      Stops { mode with joinElseIf := false } c.tail ∧ d.tail = c.tail ∧ d.before = c.before ∧
      Segment.tokens [] d.segments =
        ValuedToken.joinElseIfs source (Segment.tokens [] c.segments) ∧
      d.stream = ValuedToken.joinElseIfs source c.stream := by
  obtain ⟨c, hstops⟩ := exists_cut_stops { mode with joinElseIf := false } source
  have hif : ¬ StartsIf (c.gap ++ c.tail) := hstops.not_startsIf c.isGap
  exact ⟨c, Cut.joinElseIfs c hif, hstops, rfl, Cut.before_joinElseIfs c hif,
    Cut.tokens_joinElseIfs c hif, Cut.stream_joinElseIfs c hif⟩

/-- **Looking ahead is joining afterwards.** Lex the words `else` and `if` by themselves, and
then put every `else` together with the `if` behind it that only blanks keep from it, at the
place of the `else`: these are the tokens of a lexer that looks ahead, up to the same end of
the input or the same error. What keeps an `else` from an `if` among them is a comment. -/
theorem tokenize_joinElseIf (mode : Mode) (source : Text) :
    let joined : Mode := { mode with joinElseIf := true }
    let plain : Mode := { mode with joinElseIf := false }
    yielded joined source = ValuedToken.joinElseIfs source (yielded plain source) ∧
    tokenize joined source = (tokenize plain source).map (ValuedToken.joinElseIfs source) ∧
    (yielded joined source).IsChain (ValuedToken.ApartByComment source) := by
  intro joined plain
  obtain ⟨c, d, hstops, htail, hbefore, htokens, hstream⟩ := exists_cut_joinElseIfs mode source
  rcases hstops.ends_or_offends c.before with hends | ⟨e, hoffends⟩
  · have hends' : Ends joined d.tail := htail ▸ hends
    rw [@Cut.yielded_of_ends plain source c hends, @Cut.tokenize_of_ends plain source c hends,
      @Cut.yielded_of_ends joined source d hends', @Cut.tokenize_of_ends joined source d hends']
    refine ⟨hstream, ?_, d.isChain_stream⟩
    rw [hstream]
    rfl
  · have hoffends' : Offends joined d.before d.tail e := by
      rw [htail, hbefore]
      exact ⟨hoffends.source, hoffends.position, hoffends.reason⟩
    rw [@Cut.yielded_of_offends plain source c e hoffends,
      @Cut.tokenize_of_offends plain source c e hoffends,
      @Cut.yielded_of_offends joined source d e hoffends',
      @Cut.tokenize_of_offends joined source d e hoffends']
    exact ⟨htokens, rfl, d.allCut.isChain_tokens d.source_eq.symm⟩

/-- Blanks of any kind may stand between the words, a comment may not. -/
example :
    ValuedToken.joinElseIfs "else \tif else/**/if"
      [⟨⟨.elseWord, 1, 1⟩, none⟩, ⟨⟨.ifWord, 1, 7⟩, none⟩, ⟨⟨.elseWord, 1, 10⟩, none⟩,
        ⟨⟨.ifWord, 1, 18⟩, none⟩] =
      [⟨⟨.elseIfWords, 1, 1⟩, none⟩, ⟨⟨.elseWord, 1, 10⟩, none⟩, ⟨⟨.ifWord, 1, 18⟩, none⟩] := by
  decide +kernel

end ScriptLex
