import ScriptLex.Proofs.Scan

/-!
# Pulls in a row

A pull gives the token of one more segment, the end of the input or an error, and behind the
last two nothing else ever comes. So the outcomes of a lexer are those of one run and then the
last word of that run for ever. What a lexer remembers of its pulls is the last token that one
of them gave, and the value of that token.
-/

namespace ScriptLex

open Gap (IsGap)

/-- The end of the input behind all of a source. -/
def ValuedToken.endOf (source : Text) : ValuedToken :=
  .startingAt (Position.behind source) .endOfInput none

/-- The first members of a list that goes on with `x` for long enough. -/
theorem take_append_replicate {α : Type} (l : List α) (x : α) {m n : Nat} (h : n ≤ m) :
    (l ++ List.replicate m x).take n = (List.range n).map fun i => l.getD i x := by
  apply List.ext_getElem
  · simp
    omega
  · intro i hi hi'
    rw [List.getElem_take, List.getElem_map, List.getElem_range, List.getElem_append]
    by_cases hin : i < l.length
    · simp [hin]
    · simp [hin]

/-- No tail calls for a read behind the end. -/
theorem Offends.cause_ne_endMisuse {mode : Mode} {before tail : Text} {e : LexError}
    (h : Offends mode before tail e) : e.cause ≠ .endMisuse := by
  intro hcause
  have hreason := h.reason
  rw [hcause] at hreason
  exact hreason

namespace Lexer

variable {lx : Lexer}

/-! ## Numbers of pulls -/

theorem pulls_add (m n : Nat) (lx : Lexer) :
    lx.pulls (m + n) =
      ((lx.pulls m).1 ++ ((lx.pulls m).2.pulls n).1, ((lx.pulls m).2.pulls n).2) := by
  induction m generalizing lx with
  | zero =>
      rw [Nat.zero_add]
      rfl
  | succ m ih =>
      rw [Nat.add_right_comm, pulls, ih]
      rfl

theorem length_pulls (n : Nat) (lx : Lexer) : (lx.pulls n).1.length = n := by
  induction n generalizing lx with
  | zero => rfl
  | succ n ih => rw [pulls, List.length_cons, ih]

/-- The last of several pulls. -/
theorem pulls_succ (n : Nat) (lx : Lexer) :
    lx.pulls (n + 1) =
      ((lx.pulls n).1 ++ [(lx.pulls n).2.pullValued.1], (lx.pulls n).2.pullValued.2) :=
  pulls_add n 1 lx

/-- The first of many pulls. -/
theorem pulls_eq_take (m n : Nat) (lx : Lexer) :
    (lx.pulls m).1 = (lx.pulls (m + n)).1.take m := by
  have hlength := length_pulls m lx
  rw [pulls_add]
  simp [hlength]

/-! ## Lexers that have come to an end -/

theorem pulls_of_failure {e : LexError} (h : lx.failure = some e) (n : Nat) :
    lx.pulls n = (List.replicate n (.error e), lx) := by
  induction n with
  | zero => rfl
  | succ n ih =>
      rw [pulls, pullValued_of_failure h, ih]
      rfl

theorem Ended.pulls {source : Text} (h : lx.Ended source) (n : Nat) :
    (lx.pulls n).1 = List.replicate n (.ok (.endOf source)) ∧ (lx.pulls n).2.Ended source := by
  induction n generalizing lx with
  | zero => exact ⟨rfl, h⟩
  | succ n ih =>
      obtain ⟨next, hpull, hnext⟩ := h.pull
      obtain ⟨houtcomes, hlast⟩ := ih hnext
      rw [Lexer.pulls, hpull]
      refine ⟨?_, hlast⟩
      rw [houtcomes]
      rfl

/-! ## What a pull can do -/

theorem Stands.offset_eq {before unread : Text} (h : lx.Stands before unread) :
    lx.offset = before.length := by
  rw [offset, h.cursor]
  rfl

theorem Ended.offset_eq {source : Text} (h : lx.Ended source) : lx.offset = source.length := by
  rw [offset, h.cursor]
  rfl

/-- A pull gives the old error, or what the scan gave. -/
theorem pullValued_cases (lx : Lexer) :
    (∃ e, lx.failure = some e ∧ lx.pullValued = (.error e, lx)) ∨
    (∃ t c, lx.cursor.scanToken lx.mode = (.ok t, c) ∧
      lx.pullValued =
        (.ok t, { lx with cursor := c, last := some t.token, value := t.value })) ∨
    ∃ stop c, lx.cursor.scanToken lx.mode = (.error stop, c) ∧
      lx.pullValued =
        (.error (stop.error c), { lx with cursor := c, failure := some (stop.error c) }) := by
  rcases Option.eq_none_or_eq_some lx.failure with hfailure | ⟨e, hfailure⟩
  · rcases hscan : lx.cursor.scanToken lx.mode with ⟨result, c⟩
    cases result with
    | ok t => exact .inr (.inl ⟨t, c, rfl, pullValued_of_ok hfailure hscan⟩)
    | error stop => exact .inr (.inr ⟨stop, c, rfl, pullValued_of_error hfailure hscan⟩)
  · exact .inl ⟨e, hfailure, pullValued_of_failure hfailure⟩

/-- Where a lexer of `source` can be: behind segments of the source, behind its end, or past
an error. -/
inductive Lexes (mode : Mode) (source : Text) (lx : Lexer) : Prop
  | standing {segments : List Segment} {unread : Text} (hmode : lx.mode = mode)
      (hsource : Segment.texts segments ++ unread = source)
      (hcut : Segment.AllCut mode.joinElseIf unread segments)
      (h : lx.Stands (Segment.texts segments) unread)
  | ended (h : lx.Ended source)
  | failed {before gap tail : Text} {e : LexError} (hsource : before ++ (gap ++ tail) = source)
      (hgap : IsGap gap tail) (hoffends : Offends mode (before ++ gap) tail e)
      (h : lx.failure = some e)

/-- What a pull comes to, and the lexer behind it: the token of one more segment, the end of
the input, or an error. The last two are called for by a tail behind a gap, and unless the
error is an old one, the lexer stood in front of that gap. -/
inductive Step (mode : Mode) (source : Text) (lx : Lexer) : Outcome → Lexer → Prop
  | token {segments : List Segment} {s : Segment} {after : Text} {next : Lexer}
      (hmode : next.mode = mode)
      (hsource : Segment.texts (segments ++ [s]) ++ after = source)
      (hcut : Segment.AllCut mode.joinElseIf after (segments ++ [s]))
      (h : lx.Stands (Segment.texts segments) (s.text ++ after))
      (hnext : next.Stands (Segment.texts (segments ++ [s])) after) :
      Step mode source lx (.ok (s.token (Segment.texts segments))) next
  | ends {before gap tail : Text} {next : Lexer} (hsource : before ++ (gap ++ tail) = source)
      (hgap : IsGap gap tail) (hends : Ends mode tail) (h : lx.offset = before.length)
      (hnext : next.Ended source) :
      Step mode source lx
        (.ok (.startingAt (Position.behind (before ++ gap)) .endOfInput none)) next
  | fails {before gap tail : Text} {e : LexError} {next : Lexer}
      (hsource : before ++ (gap ++ tail) = source) (hgap : IsGap gap tail)
      (hoffends : Offends mode (before ++ gap) tail e)
      (h : lx.failure = none → lx.offset = before.length) (hnext : next.failure = some e) :
      Step mode source lx (.error e) next

theorem lexes_ofSource (source : Text) (mode : Mode) (filename : Text) :
    (ofSource source mode filename).Lexes mode source :=
  @Lexes.standing mode source _ [] source rfl rfl trivial (stands_ofSource source mode filename)

theorem Lexes.step {mode : Mode} {source : Text} (h : lx.Lexes mode source) :
    Step mode source lx lx.pullValued.1 lx.pullValued.2 := by
  cases h with
  | @standing segments unread hmode hsource hcut h =>
      rcases exists_segment_or_stops lx.mode unread with
        ⟨s, after, rfl, hs⟩ | ⟨gap, tail, rfl, hgap, hstops⟩
      · obtain ⟨next, hpull, hnext, hstands⟩ := h.pull_segment hs
        rw [hpull]
        have htexts : Segment.texts (segments ++ [s]) = Segment.texts segments ++ s.text := by
          simp
        refine .token (hnext.trans hmode) ?_ ?_ h ?_
        · rw [htexts, List.append_assoc, hsource]
        · rw [Segment.allCut_append]
          refine ⟨?_, hmode ▸ hs, trivial⟩
          simpa using hcut
        · rw [htexts]
          exact hstands
      · rcases hstops.ends_or_offends (Segment.texts segments ++ gap) with hends | ⟨e, hoffends⟩
        · obtain ⟨next, hpull, hended⟩ := h.pull_ends hgap hends
          rw [hpull]
          rw [hsource] at hended
          exact .ends hsource hgap (hmode ▸ hends) h.offset_eq hended
        · obtain ⟨next, hpull, hfailed⟩ := h.pull_offends hgap hoffends
          rw [hpull]
          exact .fails hsource hgap (hmode ▸ hoffends) (fun _ => h.offset_eq) hfailed
  | ended h =>
      obtain ⟨next, hpull, hended⟩ := h.pull
      have hstep : Step mode source lx
          (.ok (.startingAt (Position.behind (source ++ [])) .endOfInput none)) next :=
        .ends (List.append_nil source) .nil (.inl rfl) h.offset_eq hended
      rw [hpull]
      rwa [List.append_nil] at hstep
  | failed hsource hgap hoffends h =>
      rw [pullValued_of_failure h]
      refine .fails hsource hgap hoffends ?_ h
      intro hnone
      rw [hnone] at h
      cases h

variable {mode : Mode} {source : Text} {outcome : Outcome} {next : Lexer}

theorem Lexes.step_of_eq (h : lx.Lexes mode source) (hpull : lx.pullValued = (outcome, next)) :
    Step mode source lx outcome next := by
  have hstep := h.step
  rwa [hpull] at hstep

theorem Step.lexes (h : Step mode source lx outcome next) : next.Lexes mode source := by
  cases h with
  | token hmode hsource hcut _ hnext => exact .standing hmode hsource hcut hnext
  | ends _ _ _ _ hnext => exact .ended hnext
  | fails hsource hgap hoffends _ hnext => exact .failed hsource hgap hoffends hnext

/-- What one pull keeps, any number of pulls keeps. -/
theorem Lexes.pulls (h : lx.Lexes mode source) (n : Nat) :
    (lx.pulls n).2.Lexes mode source := by
  induction n generalizing lx with
  | zero => exact h
  | succ n ih => exact ih h.step.lexes

theorem Step.isSome_value {t : ValuedToken} (h : Step mode source lx (.ok t) next) :
    t.value.isSome = t.token.kind.carriesValue := by
  cases h with
  | token _ _ hcut _ _ =>
      have hs := (Segment.allCut_append.mp hcut).2.1
      exact hs.lexeme.isSome_value
  | ends => rfl

theorem Step.failure_eq {e : LexError} (h : Step mode source lx (.error e) next) :
    next.failure = some e ∧ e.cause ≠ .endMisuse := by
  cases h with
  | fails _ _ hoffends _ hnext => exact ⟨hnext, hoffends.cause_ne_endMisuse⟩

theorem Step.stands_of_kind {t : ValuedToken} (h : Step mode source lx (.ok t) next)
    (hkind : t.token.kind ≠ .endOfInput) :
    ∃ segments after, Segment.texts segments ++ after = source ∧
      Segment.AllCut mode.joinElseIf after segments ∧
      next.Stands (Segment.texts segments) after := by
  cases h with
  | token _ hsource hcut _ hnext => exact ⟨_, _, hsource, hcut, hnext⟩
  | ends => exact absurd rfl hkind

/-- Every token but the end takes a character at least. -/
theorem Step.advances {t : ValuedToken} {next : Lexer} (h : Step mode source lx (.ok t) next)
    (hkind : t.token.kind ≠ .endOfInput) :
    next.cursor.unread.length < lx.cursor.unread.length ∧ lx.offset < next.offset := by
  cases h with
  | @token segments s after _ _ _ hcut h hnext =>
      have hs := (Segment.allCut_append.mp hcut).2.1
      have hpos : 0 < s.text.length := by
        have hlexeme := List.length_pos_iff.mpr hs.lexeme.ne_nil
        rw [Segment.text, List.length_append]
        omega
      rw [offset, offset, h.cursor, hnext.cursor, Cursor.unread_between, Cursor.unread_between]
      constructor
      · rw [List.length_append]
        omega
      · show ((Segment.texts segments).length : Int) < (Segment.texts (segments ++ [s])).length
        simp only [Segment.texts_append, Segment.texts_cons, Segment.texts_nil, List.append_nil,
          List.length_append]
        omega
  | ends => exact absurd rfl hkind

/-- A pull that gives the end reads the end. It is given at the end of the source, or where a
string starts that is never closed. -/
theorem Step.ended_of_kind {t : ValuedToken} (h : Step mode source lx (.ok t) next)
    (hkind : t.token.kind = .endOfInput) :
    next.Ended source ∧ t.value = none ∧ (t = .endOf source ∨ mode.lenientStrings = true ∧
      ∃ before tail, source = before ++ tail ∧ StringLiteral.Open tail ∧
        t = .startingAt (Position.behind before) .endOfInput none) := by
  cases h with
  | token _ _ hcut _ _ =>
      have hs := (Segment.allCut_append.mp hcut).2.1
      exact absurd hkind hs.lexeme.kind_ne_endOfInput
  | @ends before gap tail _ hsource _ hends _ hnext =>
      refine ⟨hnext, rfl, ?_⟩
      rcases hends with rfl | ⟨hlenient, hopen⟩
      · left
        rw [← hsource, List.append_nil]
        rfl
      · exact .inr ⟨hlenient, before ++ gap, tail, by rw [List.append_assoc, hsource], hopen, rfl⟩

/-! ## Runs as pulls -/

/-- What the pulls of a run came to. -/
def Run.outcomes (r : Run) : List Outcome := r.tokens.map .ok ++ (r.failure.map .error).toList

/-- An iteration that is limited or not makes as many pulls as it has outcomes. -/
theorem pulls_take (limit : Nat) (lx : Lexer) :
    lx.pulls (lx.take limit).outcomes.length =
      ((lx.take limit).outcomes, (lx.take limit).lexer) := by
  induction limit generalizing lx with
  | zero => rfl
  | succ limit ih =>
      rcases hpull : lx.pullValued with ⟨outcome, next⟩
      cases outcome with
      | error e =>
          rw [take_succ_of_error hpull]
          simp [Run.outcomes, pulls, hpull]
      | ok t =>
          rw [take_succ_of_ok hpull]
          by_cases hkind : t.token.kind = .endOfInput
          · rw [if_pos hkind]
            simp [Run.outcomes, pulls, hpull]
          · rw [if_neg hkind]
            show lx.pulls (Except.ok t :: (take limit next).outcomes).length =
              (.ok t :: (take limit next).outcomes, (take limit next).lexer)
            rw [List.length_cons, pulls, hpull, ih]

/-- What pulls come to once lexing is over. -/
def settled (mode : Mode) (source : Text) : Outcome :=
  match tokenize mode source with
  | .ok _ => .ok (.endOf source)
  | .error e => .error e

/-- What pull number `n` comes to, counted from zero: the tokens that lexing yields, in order,
and then what it ended with, for ever. -/
def outcomeAt (mode : Mode) (source : Text) (n : Nat) : Outcome :=
  ((yielded mode source).map .ok).getD n (settled mode source)

/-- A run yields the same tokens under any name, and behind it nothing new comes. -/
theorem exists_run_ofSource (mode : Mode) (source filename : Text) :
    ∃ failure last,
      (ofSource source mode filename).run = ⟨yielded mode source, failure, last⟩ ∧
      (∀ e ∈ failure, settled mode source = .error e) ∧
      ∀ n, (last.pulls n).1 = List.replicate n (settled mode source) := by
  obtain ⟨c, hstops⟩ := exists_cut_stops mode source
  rcases hstops.ends_or_offends c.before with hends | ⟨e, hoffends⟩
  · obtain ⟨last, hrun, hended⟩ := c.run_of_ends hends filename
    have hsettled : settled mode source = .ok (.endOf source) := by
      rw [settled, c.tokenize_of_ends hends]
    refine ⟨none, last, ?_, by simp, ?_⟩
    · rw [hrun, c.yielded_of_ends hends]
    · intro n
      rw [hsettled]
      exact (hended.pulls n).1
  · obtain ⟨last, hrun, hfailed⟩ := c.run_of_offends hoffends filename
    have hsettled : settled mode source = .error e := by
      rw [settled, c.tokenize_of_offends hoffends]
    refine ⟨some e, last, ?_, by simpa using hsettled, ?_⟩
    · rw [hrun, c.yielded_of_offends hoffends]
    · intro n
      rw [hsettled, pulls_of_failure hfailed]

/-- The error that ends a run is what every later pull comes to. -/
theorem Run.outcomes_append_replicate {x : Outcome} (r : Run)
    (hx : ∀ e ∈ r.failure, x = .error e) (n : Nat) :
    ∃ m, n ≤ m ∧ r.outcomes ++ List.replicate n x = r.tokens.map .ok ++ List.replicate m x := by
  obtain ⟨tokens, failure, last⟩ := r
  cases failure with
  | none => exact ⟨n, Nat.le_refl n, by simp [Run.outcomes]⟩
  | some e =>
      obtain rfl : x = .error e := hx e rfl
      refine ⟨n + 1, Nat.le_succ n, ?_⟩
      rw [List.replicate_succ]
      simp [Run.outcomes]

/-- **Outcomes by number.** What a pull comes to depends on the source, the mode and how many
pulls there were before it. -/
theorem pulls_ofSource (mode : Mode) (source filename : Text) (n : Nat) :
    ((ofSource source mode filename).pulls n).1 =
      (List.range n).map (outcomeAt mode source) := by
  obtain ⟨failure, last, hrun, herror, hsettled⟩ := exists_run_ofSource mode source filename
  have hpulls := pulls_take ((ofSource source mode filename).cursor.unread.length + 1)
    (ofSource source mode filename)
  rw [← run, hrun] at hpulls
  obtain ⟨m, hm, hall⟩ :=
    Run.outcomes_append_replicate ⟨yielded mode source, failure, last⟩ herror n
  -- pull on behind the run, and look at the first `n` outcomes only
  rw [pulls_eq_take n (Run.outcomes ⟨yielded mode source, failure, last⟩).length, Nat.add_comm,
    pulls_add, hpulls, hsettled, hall, take_append_replicate _ _ hm]
  rfl

theorem pullValued_pulls (mode : Mode) (source filename : Text) (n : Nat) :
    ((ofSource source mode filename).pulls n).2.pullValued.1 = outcomeAt mode source n := by
  have hsucc := pulls_ofSource mode source filename (n + 1)
  rw [pulls_succ, pulls_ofSource, List.range_succ, List.map_append] at hsucc
  exact (List.cons.inj (List.append_cancel_left hsucc)).1

/-! ## What a lexer remembers -/

/-- The last token among outcomes. -/
def lastToken? (outcomes : List Outcome) : Option ValuedToken :=
  (outcomes.filterMap Except.toOption).getLast?

theorem lastToken?_append_ok (outcomes : List Outcome) (t : ValuedToken) :
    lastToken? (outcomes ++ [.ok t]) = some t := by
  simp [lastToken?, Except.toOption]

theorem lastToken?_append_error (outcomes : List Outcome) (e : LexError) :
    lastToken? (outcomes ++ [.error e]) = lastToken? outcomes := by
  simp [lastToken?, Except.toOption]

/-- The last token and its value are those of the last pull that gave a token, and there is a
value exactly if the kind of that token carries one. -/
structure Remembers (lx : Lexer) (outcomes : List Outcome) : Prop where
  last : lx.last = (lastToken? outcomes).map (·.token)
  value : lx.value = (lastToken? outcomes).bind (·.value)
  carries : lx.value.isSome = lx.last.any (·.kind.carriesValue)

theorem Remembers.pullValued {outcomes : List Outcome} (h : lx.Remembers outcomes)
    (hlexes : lx.Lexes mode source) :
    lx.pullValued.2.Remembers (outcomes ++ [lx.pullValued.1]) := by
  -- an error, old or new, leaves token and value as they are
  have herror : ∀ e, lastToken? (outcomes ++ [.error e]) = lastToken? outcomes :=
    lastToken?_append_error outcomes
  rcases lx.pullValued_cases with ⟨e, -, hpull⟩ | ⟨t, c, -, hpull⟩ | ⟨stop, c, -, hpull⟩
  · rw [hpull]
    exact ⟨by rw [herror, h.last], by rw [herror, h.value], h.carries⟩
  · have hstep := hlexes.step_of_eq hpull
    rw [hpull]
    refine ⟨?_, ?_, hstep.isSome_value⟩
    · rw [lastToken?_append_ok]
      rfl
    · rw [lastToken?_append_ok]
      rfl
  · rw [hpull]
    exact ⟨by rw [herror, ← h.last], by rw [herror, ← h.value], h.carries⟩

theorem remembers_pulls (source : Text) (mode : Mode) (filename : Text) (n : Nat) :
    ((ofSource source mode filename).pulls n).2.Remembers
      ((ofSource source mode filename).pulls n).1 := by
  induction n with
  | zero => exact ⟨rfl, rfl, rfl⟩
  | succ n ih =>
      rw [pulls_succ]
      exact ih.pullValued ((lexes_ofSource source mode filename).pulls n)

/-! ## Outcomes that stay -/

/-- Behind the end of the input comes the end of the source, for ever. -/
theorem outcomeAt_of_endOfInput {n m : Nat} {t : ValuedToken}
    (h : outcomeAt mode source n = .ok t) (hkind : t.token.kind = .endOfInput) (hm : n < m) :
    outcomeAt mode source m = .ok (.endOf source) := by
  have hstep := ((lexes_ofSource source mode []).pulls n).step
  rw [pullValued_pulls, h] at hstep
  obtain ⟨hended, -⟩ := hstep.ended_of_kind hkind
  obtain ⟨k, rfl⟩ := Nat.exists_eq_add_of_le (Nat.succ_le_of_lt hm)
  obtain ⟨next, hpull, -⟩ := (hended.pulls k).2.pull
  rw [← pullValued_pulls mode source [], Nat.succ_eq_add_one, pulls_add, pulls_succ, hpull]
  rfl

/-- Behind an error comes that error, for ever, and the lexer stays as it is. -/
theorem outcomeAt_of_error {n m : Nat} {e : LexError} (filename : Text)
    (h : outcomeAt mode source n = .error e) (hm : n < m) :
    outcomeAt mode source m = .error e ∧
      ((ofSource source mode filename).pulls m).2 =
        ((ofSource source mode filename).pulls (n + 1)).2 := by
  obtain ⟨k, rfl⟩ := Nat.exists_eq_add_of_le (Nat.succ_le_of_lt hm)
  have hstep := ((lexes_ofSource source mode filename).pulls n).step
  rw [pullValued_pulls, h] at hstep
  have hfailed : ((ofSource source mode filename).pulls (n + 1)).2.failure = some e := by
    rw [pulls_succ]
    exact hstep.failure_eq.1
  have hsame : ((ofSource source mode filename).pulls (n.succ + k)).2 =
      ((ofSource source mode filename).pulls (n + 1)).2 := by
    rw [pulls_add, pulls_of_failure hfailed]
  refine ⟨?_, hsame⟩
  rw [← pullValued_pulls mode source filename, hsame, pullValued_of_failure hfailed]

end Lexer

end ScriptLex
