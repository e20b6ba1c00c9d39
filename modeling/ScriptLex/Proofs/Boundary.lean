import ScriptLex.Proofs.Lookahead
import ScriptLex.Proofs.Scan

/-!
# Cutting a source behind a token

After any number of tokens a lexer stands at a boundary of its source. The text before the
boundary has these tokens by itself. The text behind it is lexed as a source of its own is,
only that places are counted from the boundary on: the two lexers go on in step.
-/

namespace ScriptLex

/-- An outcome of a text that starts behind `column` characters of line `line`, at the offset
`offset` of `source`. -/
def Outcome.moved (line column offset : Int) (source : Text) : Outcome → Outcome
  | .ok t => .ok (t.moved line column)
  | .error e => .error (e.moved line column offset source)

namespace Lexer

/-! ## The tokens before the boundary -/

/-- Pulls that gave tokens, none of them the end, went along segments. -/
theorem Stands.exists_segments {n : Nat} {lx last : Lexer} {before unread : Text}
    {tokens : List ValuedToken} (h : lx.Stands before unread)
    (hpulls : lx.pulls n = (tokens.map .ok, last))
    (hkind : ∀ t ∈ tokens, t.token.kind ≠ .endOfInput) :
    ∃ (segments : List Segment) (after : Text), unread = Segment.texts segments ++ after ∧
      Segment.AllCut lx.mode.joinElseIf after segments ∧
      tokens = Segment.tokens before segments ∧ last.mode = lx.mode ∧
      last.Stands (before ++ Segment.texts segments) after := by
  induction n generalizing lx before unread tokens with
  | zero =>
      obtain ⟨htokens, rfl⟩ := Prod.mk.inj hpulls
      obtain rfl : tokens = [] := List.map_eq_nil_iff.mp htokens.symm
      exact ⟨[], unread, rfl, trivial, rfl, rfl, by simpa using h⟩
  | succ n ih =>
      obtain ⟨houtcomes, hlast⟩ := Prod.mk.inj hpulls
      obtain ⟨t, rest, rfl, ht, hrest⟩ := List.map_eq_cons_iff.mp houtcomes.symm
      rcases exists_segment_or_stops lx.mode unread with
        ⟨s, after, rfl, hcut⟩ | ⟨gap, tail, rfl, hgap, hstops⟩
      · obtain ⟨next, hpull, hmode, hnext⟩ := h.pull_segment hcut
        rw [hpull] at ht hrest hlast
        obtain rfl := Except.ok.inj ht
        have hpulls' : next.pulls n = (rest.map .ok, last) := Prod.ext hrest.symm hlast
        obtain ⟨segments, after', rfl, hall, rfl, hmode', hstands⟩ :=
          ih hnext hpulls' (fun u hu => hkind u (List.mem_cons_of_mem _ hu))
        rw [hmode] at hall
        refine ⟨s :: segments, after', ?_, ⟨hcut, hall⟩, rfl, hmode'.trans hmode, ?_⟩
        · rw [Segment.texts_cons, List.append_assoc]
        · rw [Segment.texts_cons, ← List.append_assoc]
          exact hstands
      · -- a tail that stops gives the end or an error, and no other token
        rcases hstops.ends_or_offends (before ++ gap) with hends | ⟨e, hoffends⟩
        · obtain ⟨next, hpull, -⟩ := h.pull_ends hgap hends
          rw [hpull] at ht
          obtain rfl := Except.ok.inj ht
          exact absurd rfl (hkind _ List.mem_cons_self)
        · obtain ⟨next, hpull, -⟩ := h.pull_offends hgap hoffends
          rw [hpull] at ht
          cases ht

/-- Segments have their tokens also where nothing follows them. -/
theorem tokenize_texts (mode : Mode) {after : Text} {segments : List Segment}
    (h : Segment.AllCut mode.joinElseIf after segments) :
    tokenize mode (Segment.texts segments) =
      .ok (Segment.tokens [] segments ++
        [.startingAt (Position.behind (Segment.texts segments)) .endOfInput none]) := by
  have hends : Ends mode [] := .inl rfl
  have hsource : Segment.texts segments = Segment.texts segments ++ ([] ++ []) := by simp
  rw [Cut.tokenize_of_ends ⟨segments, [], [], hsource, h.truncate, .nil⟩ hends, Cut.stream,
    Cut.before, List.append_nil]

/-! ## The lexers behind the boundary -/

/-- The first lexer is where the second one is, but behind `x` in the longer `source`. -/
inductive Behind (x source : Text) (lx lx' : Lexer) : Prop
  | standing {before unread : Text} (hmode : lx.mode = lx'.mode)
      (hsource : x ++ (before ++ unread) = source) (h : lx.Stands (x ++ before) unread)
      (h' : lx'.Stands before unread)
  | ended {t : Text} (h : lx.Ended (x ++ t)) (h' : lx'.Ended t)
  | failed {e : LexError}
      (h : lx.failure =
        some (e.moved (1 + x.count '\n') x.lastLineLength x.length source))
      (h' : lx'.failure = some e)

variable {x source : Text} {lx lx' : Lexer}

/-- One pull of both comes to the same, moved, and they stay in step. -/
theorem Behind.pullValued (h : Behind x source lx lx') :
    lx.pullValued.1 =
        Outcome.moved (1 + x.count '\n') x.lastLineLength x.length source lx'.pullValued.1 ∧
      Behind x source lx.pullValued.2 lx'.pullValued.2 := by
  cases h with
  | @standing before unread hmode hsource h h' =>
      -- what comes next depends on the unread text alone, and that is the same for both
      rcases exists_segment_or_stops lx.mode unread with
        ⟨s, after, rfl, hcut⟩ | ⟨gap, tail, rfl, hgap, hstops⟩
      · obtain ⟨next, hpull, hnext, hstands⟩ := h.pull_segment hcut
        obtain ⟨next', hpull', hnext', hstands'⟩ := h'.pull_segment (hmode ▸ hcut)
        rw [hpull, hpull']
        refine ⟨?_, .standing (hnext.trans (hmode.trans hnext'.symm)) ?_ ?_ hstands'⟩
        · rw [Segment.token_behind]
          rfl
        · rw [List.append_assoc, hsource]
        · rw [← List.append_assoc]
          exact hstands
      · rcases hstops.ends_or_offends (before ++ gap) with hends | ⟨e, hoffends⟩
        · obtain ⟨next, hpull, hended⟩ := h.pull_ends hgap hends
          obtain ⟨next', hpull', hended'⟩ := h'.pull_ends hgap (hmode ▸ hends)
          rw [hpull, hpull']
          refine ⟨?_, .ended ?_ hended'⟩
          · rw [List.append_assoc, ValuedToken.startingAt_behind_append]
            rfl
          · rw [← List.append_assoc]
            exact hended
        · have hmoved := hoffends.behind x
          rw [List.append_assoc before, hsource, ← List.append_assoc] at hmoved
          obtain ⟨next, hpull, hfailed⟩ := h.pull_offends hgap hmoved
          obtain ⟨next', hpull', hfailed'⟩ := h'.pull_offends hgap (hmode ▸ hoffends)
          rw [hpull, hpull']
          exact ⟨rfl, .failed hfailed hfailed'⟩
  | @ended t h h' =>
      obtain ⟨next, hpull, hended⟩ := h.pull
      obtain ⟨next', hpull', hended'⟩ := h'.pull
      rw [hpull, hpull']
      refine ⟨?_, .ended hended hended'⟩
      rw [ValuedToken.startingAt_behind_append]
      rfl
  | failed h h' =>
      rw [pullValued_of_failure h, pullValued_of_failure h']
      exact ⟨rfl, .failed h h'⟩

/-- and so do any number of pulls. -/
theorem Behind.pulls (h : Behind x source lx lx') (n : Nat) :
    (lx.pulls n).1 =
      (lx'.pulls n).1.map
        (Outcome.moved (1 + x.count '\n') x.lastLineLength x.length source) := by
  induction n generalizing lx lx' with
  | zero => rfl
  | succ n ih =>
      obtain ⟨houtcome, hnext⟩ := h.pullValued
      rw [Lexer.pulls, Lexer.pulls, List.map_cons, houtcome, ih hnext]

/-- **Cutting at a token boundary.** Let the first pulls of a lexer give tokens, none of them
the end of the input. The text up to where the lexer then stands has exactly these tokens,
however strings that are never closed are taken. What the next pulls come to is what those
of a fresh lexer on the remaining text come to, with the places moved. -/
theorem pulls_cut (mode : Mode) (filename filename' source : Text) (k : Nat)
    (tokens : List ValuedToken) (lx : Lexer)
    (hpulls : (ofSource source mode filename).pulls k = (tokens.map .ok, lx))
    (hkind : ∀ t ∈ tokens, t.token.kind ≠ .endOfInput) :
    ∃ o : Nat, lx.offset = o ∧
      (∀ lenient, tokenize { mode with lenientStrings := lenient } (source.take o) =
        .ok (tokens ++ [⟨⟨.endOfInput, lx.cursor.line, lx.cursor.column + 1⟩, none⟩])) ∧
      ∀ n, (lx.pulls n).1 =
        ((ofSource (source.drop o) mode filename').pulls n).1.map
          (Outcome.moved lx.cursor.line lx.cursor.column lx.offset source) := by
  obtain ⟨segments, after, hsource, hcut, rfl, hmode, hstands⟩ :=
    (stands_ofSource source mode filename).exists_segments hpulls hkind
  rw [List.nil_append] at hstands
  have htake : source.take (Segment.texts segments).length = Segment.texts segments := by
    rw [hsource, List.take_left]
  have hdrop : source.drop (Segment.texts segments).length = after := by
    rw [hsource, List.drop_left]
  refine ⟨(Segment.texts segments).length, ?_, ?_, ?_⟩
  · rw [offset, hstands.cursor]
    rfl
  · intro lenient
    rw [htake, tokenize_texts { mode with lenientStrings := lenient } hcut, hstands.cursor]
    rfl
  · intro n
    have hbehind : Behind (Segment.texts segments) source lx (ofSource after mode filename') := by
      refine .standing hmode hsource.symm ?_ (stands_ofSource after mode filename')
      rwa [List.append_nil]
    rw [hdrop, hbehind.pulls n, offset, hstands.cursor]
    rfl

/-- Behind a string over two lines. What follows is moved to its last line, up to the error at
the end. -/
theorem pulls_cut_string :
    ∃ o : Nat, (10 : Int) = o ∧
      (∀ lenient, tokenize ⟨lenient, true⟩ (("else 'a\nb' if $" : Text).take o) =
        .ok [⟨⟨.elseWord, 1, 1⟩, none⟩, ⟨⟨.stringLiteral, 1, 6⟩, some "a\nb"⟩,
          ⟨⟨.endOfInput, 2, 3⟩, none⟩]) ∧
      ∀ n, (pulls n ⟨[], {}, ⟨"else 'a\nb' if $", 10, 2, 2, false⟩,
          some ⟨.stringLiteral, 1, 6⟩, some "a\nb", none⟩).1 =
        ((ofSource (("else 'a\nb' if $" : Text).drop o) {} []).pulls n).1.map
          (Outcome.moved 2 2 10 "else 'a\nb' if $") :=
  pulls_cut {} [] [] "else 'a\nb' if $" 2
    [⟨⟨.elseWord, 1, 1⟩, none⟩, ⟨⟨.stringLiteral, 1, 6⟩, some "a\nb"⟩]
    ⟨[], {}, ⟨"else 'a\nb' if $", 10, 2, 2, false⟩, some ⟨.stringLiteral, 1, 6⟩, some "a\nb",
      none⟩
    (by decide +kernel) (by decide)

end Lexer

end ScriptLex
