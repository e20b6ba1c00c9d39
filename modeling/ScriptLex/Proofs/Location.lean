import ScriptLex.Proofs.Line
import ScriptLex.Proofs.Progress

/-!
# Where tokens and errors are

Every token, and every error, is reported where its own lexeme starts: behind the gap that the
lexer stood in front of. Since lexemes follow one another, the places of one iteration are in
order, and each of them leads back to the offset that it stands for.
-/

namespace ScriptLex

open Gap (IsGap)

/-- The line and the column that an outcome shows. -/
def Outcome.lineColumn : Outcome → Int × Int
  | .ok t => (t.token.line, t.token.column)
  | .error e => e.position.lineColumn

namespace Lexer

variable {mode : Mode} {source : Text} {lx next : Lexer} {outcome : Outcome}

/-! ## What a pull is about -/

/-- Between what the lexer has consumed and the offset `o` there is a gap and nothing else. -/
structure InFrontOf (lx : Lexer) (source : Text) (o : Nat) : Prop where
  le : lx.offset ≤ o
  gap : IsGap (source.slice lx.offset o) (source.drop o)

/-- The pull that led from `lx` to `next` came to its outcome because of what starts at the
offset `o`. A token has its lexeme there, which is consumed. The end of the input is the end
of the source, or a string that is never closed where such a string may end the stream. An
error is there for the reason that it names; only an old error is behind the lexer. -/
inductive FoundAt (mode : Mode) (source : Text) (lx next : Lexer) (o : Nat) : Outcome → Prop
  | token {t : ValuedToken} {lexeme after : Text} (hgap : lx.InFrontOf source o)
      (hrest : source.drop o = lexeme ++ after)
      (hlexeme : IsLexeme mode.joinElseIf lexeme t.token.kind t.value after)
      (hnext : next.offset = o + lexeme.length) : FoundAt mode source lx next o (.ok t)
  | endOfInput {t : ValuedToken} (hgap : lx.InFrontOf source o)
      (hkind : t.token.kind = .endOfInput) (hvalue : t.value = none)
      (hend : o = source.length ∨
        mode.lenientStrings = true ∧ StringLiteral.Open (source.drop o)) :
      FoundAt mode source lx next o (.ok t)
  | error {e : LexError} (hgap : lx.failure = none → lx.InFrontOf source o)
      (hoffset : e.position.offset = o)
      (hoffends : Offends mode (source.take o) (source.drop o) e) :
      FoundAt mode source lx next o (.error e)

theorem inFrontOf_append {before gap rest : Text} (hsource : before ++ (gap ++ rest) = source)
    (hgap : IsGap gap rest) (h : lx.offset = before.length) :
    lx.InFrontOf source (before ++ gap).length := by
  subst hsource
  refine ⟨?_, ?_⟩
  · rw [h, List.length_append]
    omega
  · rw [h, Text.slice_append, ← List.append_assoc, List.drop_left]
    exact hgap

/-- Whatever a pull comes to, there is an offset that it is about, and it shows the place of
that offset. -/
theorem Step.foundAt (h : Step mode source lx outcome next) :
    ∃ o ≤ source.length, FoundAt mode source lx next o outcome ∧
      Outcome.lineColumn outcome = (Position.behind (source.take o)).lineColumn := by
  have hsplit : ∀ before gap rest : Text, before ++ (gap ++ rest) = source →
      (before ++ gap).length ≤ source.length ∧
      source.take (before ++ gap).length = before ++ gap ∧
      source.drop (before ++ gap).length = rest := by
    rintro before gap rest rfl
    rw [← List.append_assoc]
    exact ⟨(List.prefix_append _ rest).length_le, List.take_left, List.drop_left⟩
  cases h with
  | @token segments s after _ _ hsource hcut h hnext =>
      have hs := (Segment.allCut_append.mp hcut).2.1
      rw [Segment.texts_append, Segment.texts_cons, Segment.texts_nil,
        List.append_nil] at hsource hnext
      have hparts : Segment.texts segments ++ (s.gap ++ (s.lexeme ++ after)) = source := by
        rw [← hsource, Segment.text]
        simp
      obtain ⟨hle, htake, hdrop⟩ := hsplit _ _ _ hparts
      refine ⟨_, hle, .token (inFrontOf_append hparts hs.gap h.offset_eq) hdrop hs.lexeme ?_, ?_⟩
      · rw [hnext.offset_eq, Segment.text]
        simp only [List.length_append]
        omega
      · rw [htake]
        rfl
  | ends hsource hgap hends h =>
      obtain ⟨hle, htake, hdrop⟩ := hsplit _ _ _ hsource
      refine ⟨_, hle, .endOfInput (inFrontOf_append hsource hgap h) rfl rfl ?_, ?_⟩
      · rcases hends with htail | ⟨hlenient, hopen⟩
        · left
          rw [← hsource, htail, List.append_nil]
        · right
          rw [hdrop]
          exact ⟨hlenient, hopen⟩
      · rw [htake]
        rfl
  | fails hsource hgap hoffends h =>
      obtain ⟨hle, htake, hdrop⟩ := hsplit _ _ _ hsource
      have hposition := hoffends.position
      refine ⟨_, hle, .error (fun hnone => inFrontOf_append hsource hgap (h hnone)) ?_ ?_, ?_⟩
      · rw [hposition]
        rfl
      · rw [htake, hdrop]
        exact hoffends
      · rw [htake, ← hposition]
        rfl

/-! ## Iterations -/

/-- What one pull of a lexer that has not failed comes to is found at or behind where it
stands, and a token in front of where it stands afterwards. -/
theorem Lexes.pull_start (h : lx.Lexes mode source) (hfailure : lx.failure = none)
    (hpull : lx.pullValued = (outcome, next)) :
    ∃ o ≤ source.length, lx.offset ≤ o ∧
      Outcome.lineColumn outcome = (Position.behind (source.take o)).lineColumn ∧
      ∀ t, outcome = .ok t → t.token.kind ≠ .endOfInput → (o : Int) < next.offset := by
  obtain ⟨o, hle, hfound, hplace⟩ := (h.step_of_eq hpull).foundAt
  refine ⟨o, hle, ?_, hplace, ?_⟩
  · cases hfound with
    | token hgap => exact hgap.le
    | endOfInput hgap => exact hgap.le
    | error hgap => exact (hgap hfailure).le
  · rintro t rfl hkind
    cases hfound with
    | token _ _ hlexeme hnext =>
        have hpos := List.length_pos_iff.mpr hlexeme.ne_nil
        omega
    | endOfInput _ hend => exact absurd hend hkind

theorem failure_eq_none_of_ok {t : ValuedToken} (hpull : lx.pullValued = (.ok t, next)) :
    lx.failure = none := by
  rcases Option.eq_none_or_eq_some lx.failure with hnone | ⟨e, hfailure⟩
  · exact hnone
  · rw [pullValued_of_failure hfailure] at hpull
    cases hpull

/-- A lexer that gave a token goes on. -/
theorem Lexes.next_of_token (h : lx.Lexes mode source) {t : ValuedToken}
    (hpull : lx.pullValued = (.ok t, next)) (hkind : t.token.kind ≠ .endOfInput) :
    next.Lexes mode source ∧ next.failure = none := by
  have hstep := h.step_of_eq hpull
  obtain ⟨segments, after, -, -, hstands⟩ := hstep.stands_of_kind hkind
  exact ⟨hstep.lexes, hstands.failure⟩

/-- All that an iteration comes to is found at or behind where the lexer stands, -/
theorem Iterates.starts {limit : Option Nat} {r : Run} (hr : Iterates limit lx r)
    (h : lx.Lexes mode source) (hfailure : lx.failure = none) :
    ∀ outcome ∈ r.outcomes, ∃ o ≤ source.length, lx.offset ≤ o ∧
      Outcome.lineColumn outcome = (Position.behind (source.take o)).lineColumn := by
  induction hr with
  | left => simp [Run.outcomes]
  | fails _ hpull =>
      intro outcome houtcome
      obtain rfl := List.mem_singleton.mp houtcome
      obtain ⟨o, hle, hstart, hplace, -⟩ := h.pull_start hfailure hpull
      exact ⟨o, hle, hstart, hplace⟩
  | ends _ hpull =>
      intro outcome houtcome
      obtain rfl := List.mem_singleton.mp houtcome
      obtain ⟨o, hle, hstart, hplace, -⟩ := h.pull_start hfailure hpull
      exact ⟨o, hle, hstart, hplace⟩
  | goesOn _ hpull hkind _ ih =>
      obtain ⟨o, hle, hstart, hplace, hlt⟩ := h.pull_start hfailure hpull
      have hbefore := hlt _ rfl hkind
      obtain ⟨hnext, hnone⟩ := h.next_of_token hpull hkind
      intro outcome houtcome
      rcases List.mem_cons.mp houtcome with rfl | hrest
      · exact ⟨o, hle, hstart, hplace⟩
      · obtain ⟨o', hle', hstart', hplace'⟩ := ih hnext hnone outcome hrest
        exact ⟨o', hle', by omega, hplace'⟩

/-- and its places are in order. -/
theorem Iterates.pairwise_lineColumn {limit : Option Nat} {r : Run} (hr : Iterates limit lx r)
    (h : lx.Lexes mode source) :
    (r.outcomes.map Outcome.lineColumn).Pairwise (Prod.Lex (· < ·) (· < ·)) := by
  induction hr with
  | left => exact List.Pairwise.nil
  | fails => exact List.pairwise_singleton _ _
  | ends => exact List.pairwise_singleton _ _
  | @goesOn limit lx next t r _ hpull hkind hrest ih =>
      obtain ⟨hnext, hnone⟩ := h.next_of_token hpull hkind
      refine List.pairwise_cons.mpr ⟨?_, ih hnext⟩
      intro place hmem
      obtain ⟨outcome, houtcome, rfl⟩ := List.mem_map.mp hmem
      -- what comes later is found behind the lexeme of `t`, so behind the start of it
      obtain ⟨o, -, -, hplace, hlt⟩ := h.pull_start (failure_eq_none_of_ok hpull) hpull
      obtain ⟨o', hle', hstart', hplace'⟩ := hrest.starts hnext hnone outcome houtcome
      have hbefore := hlt t rfl hkind
      rw [hplace, hplace']
      exact Position.lineColumn_behind_take_lt (by omega) hle'

/-! ## Calls -/

theorem getElem?_pulls {n k : Nat} (h : ((lx.pulls n).1)[k]? = some outcome) :
    (lx.pulls k).2.pullValued = (outcome, (lx.pulls (k + 1)).2) := by
  have hk : k < n := by
    have hlength := (List.getElem?_eq_some_iff.mp h).1
    rwa [length_pulls] at hlength
  obtain ⟨m, rfl⟩ := Nat.exists_eq_add_of_le (Nat.succ_le_of_lt hk)
  have houtcome : ((lx.pulls (k + 1)).1)[k]? = some outcome := by
    rw [pulls_eq_take (k + 1) m, List.getElem?_take_of_lt (Nat.lt_succ_self k)]
    exact h
  have hlength := length_pulls k lx
  rw [pulls_succ, List.getElem?_append_right (by omega), hlength, Nat.sub_self] at houtcome
  obtain hfirst : (lx.pulls k).2.pullValued.1 = outcome := Option.some.inj houtcome
  rw [pulls_succ, ← hfirst]

/-- **Positions are exact.** Let a lexer answer any calls, and let `outcome` be what pull number
`k` of them came to. There is an offset `o` that it is about, namely where its own lexeme
starts. Its line is one more than there are line feeds before `o`, its column counts from the
last of them, an error names `o` itself, and `o` is found again from line and column by dividing
the source into lines. Hence the places that a whole iteration shows, the one of its end or its
error included, are in order. -/
theorem calls_positions (mode : Mode) (source filename : Text) (calls : List Call) :
    let lx := ofSource source mode filename
    (∀ k outcome, (lx.callOutcomes calls)[k]? = some outcome →
      ∃ o ≤ source.length, FoundAt mode source (lx.pulls k).2 (lx.pulls (k + 1)).2 o outcome ∧
        (Outcome.lineColumn outcome).1 = 1 + (source.take o).count '\n' ∧
        (Outcome.lineColumn outcome).2 = o - Text.lastLineStart (source.take o) + 1 ∧
        source.offsetAt (Outcome.lineColumn outcome).1 (Outcome.lineColumn outcome).2 = o) ∧
    ((lx.answers calls).2.run.outcomes.map Outcome.lineColumn).Pairwise
      (Prod.Lex (· < ·) (· < ·)) := by
  intro lx
  have hlexes : lx.Lexes mode source := lexes_ofSource source mode filename
  refine ⟨?_, ?_⟩
  · intro k outcome houtcome
    have hpulls : ((lx.pulls (lx.callOutcomes calls).length).1)[k]? = some outcome := by
      rw [pulls_answers]
      exact houtcome
    obtain ⟨o, hle, hfound, hplace⟩ :=
      ((hlexes.pulls k).step_of_eq (getElem?_pulls hpulls)).foundAt
    refine ⟨o, hle, hfound, ?_, ?_, ?_⟩
    · rw [hplace]
      rfl
    · have hlength := Text.lastLineStart_add_lastLineLength (source.take o)
      rw [List.length_take, Nat.min_eq_left hle] at hlength
      rw [hplace]
      show (Text.lastLineLength (source.take o) : Int) + 1 = _
      omega
    · have hoffset := Text.offsetAt_behind (source.take o) (source.drop o)
      rw [List.take_append_drop, List.length_take, Nat.min_eq_left hle] at hoffset
      rw [hplace]
      exact hoffset
  · have hlast : (lx.answers calls).2.Lexes mode source := by
      have hpulls := hlexes.pulls (lx.callOutcomes calls).length
      rwa [pulls_answers] at hpulls
    exact (hlast.iterates_take (Nat.lt_succ_self _)).pairwise_lineColumn hlast

/-- The line feed is behind a backslash in a string, and the columns start again behind it. -/
theorem calls_positions_escaped_lineFeed :
    let source : Text := "'a\\\nb' else\tif $f0"
    let lx := ofSource source {} []
    let e : LexError :=
      { cause := .unsupportedFeature
        message := "hex color literals are not supported"
        position := ⟨2, 12, 15⟩
        source
        length := 3 }
    (lx.callOutcomes [.next, .iterate none])[2]? = some (.error e) ∧
      ∃ o ≤ source.length, FoundAt {} source (lx.pulls 2).2 (lx.pulls 3).2 o (.error e) ∧
        (2 : Int) = 1 + (source.take o).count '\n' ∧
        (12 : Int) = o - Text.lastLineStart (source.take o) + 1 ∧ source.offsetAt 2 12 = o := by
  intro source lx e
  have houtcome : (lx.callOutcomes [.next, .iterate none])[2]? = some (.error e) := by
    decide +kernel
  exact ⟨houtcome, (calls_positions {} source [] [.next, .iterate none]).1 2 _ houtcome⟩

end Lexer

end ScriptLex
