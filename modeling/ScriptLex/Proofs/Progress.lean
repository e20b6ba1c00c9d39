import ScriptLex.Proofs.Calls
import ScriptLex.Proofs.Cursor

/-!
# Progress

A lexer touches its source only by reading. The number of reads that are still possible falls
with each of them, so everything that a lexer does stops by itself; and since every loop stops
reading at the end of the source, no read is ever refused.
-/

namespace ScriptLex

/-! ## What a scan reads -/

namespace Cursor

variable {α β : Type} {c d : Cursor}

/-- A scan only reads: unless a read of it was refused, the cursor that it leaves is behind reads
in a row, and none of them was refused. -/
def OnlyReads (c : Cursor) (s : Scanned α) : Prop :=
  (∃ n, c.skip n = (.ok (), s.2)) ∨ ∃ fault, s.1 = .error (.refused fault)

theorem OnlyReads.stay (c : Cursor) (result : Except Stop α) : OnlyReads c (result, c) :=
  .inl ⟨0, rfl⟩

theorem OnlyReads.refused (c d : Cursor) (fault : Fault) :
    OnlyReads (α := α) c (.error (.refused fault), d) := .inr ⟨fault, rfl⟩

/-- Reading on behind a read. -/
theorem OnlyReads.behind {x : Option Char} {s : Scanned α} (hread : c.read = (.ok x, d))
    (h : OnlyReads d s) : OnlyReads c s := by
  rcases h with ⟨n, hskip⟩ | hrefused
  · refine .inl ⟨n + 1, ?_⟩
    rw [skip, hread]
    exact hskip
  · exact .inr hrefused

/-- Reading on behind a scan that gave something. -/
theorem OnlyReads.trans {a : α} {s : Scanned β} (h : OnlyReads c (.ok a, d))
    (hnext : OnlyReads d s) : OnlyReads c s := by
  rcases h with ⟨n, hskip⟩ | ⟨fault, hrefused⟩
  · rcases hnext with ⟨m, hmore⟩ | hrefused
    · exact .inl ⟨n + m, by rw [skip_add hskip]; exact hmore⟩
    · exact .inr hrefused
  · cases hrefused

/-- What stops a scan stops all that was to follow. -/
theorem OnlyReads.stop {reason : Stop} (h : OnlyReads (α := α) c (.error reason, d)) :
    OnlyReads (α := β) c (.error reason, d) := by
  rcases h with hskip | ⟨fault, hrefused⟩
  · exact .inl hskip
  · exact .inr ⟨fault, congrArg _ (Except.error.inj hrefused)⟩

theorem OnlyReads.andThen {s : Scanned α} {next : α → Cursor → Scanned β} (h : OnlyReads c s)
    (hnext : ∀ a d, OnlyReads d (next a d)) : OnlyReads c (s.andThen next) := by
  obtain ⟨result, d⟩ := s
  cases result with
  | ok a => exact h.trans (hnext a d)
  | error stop => exact h.stop

theorem onlyReads_consume (c : Cursor) : OnlyReads c c.consume := by
  unfold consume
  split
  next hread => exact .behind hread (.stay _ _)
  next => exact .refused _ _ _

theorem onlyReads_advance (c : Cursor) (n : Nat) : OnlyReads c (c.advance n) := by
  unfold advance
  split
  next hskip => exact .inl ⟨n, hskip⟩
  next => exact .refused _ _ _

theorem onlyReads_readWhile (p : Char → Bool) (c : Cursor) : OnlyReads c (c.readWhile p) := by
  fun_induction readWhile p c with
  | case1 c _ x next hread ih => exact .behind hread (ih.andThen fun _ d => .stay d _)
  | case2 => exact .refused _ _ _
  | case3 c => exact .stay c _

theorem onlyReads_readBlock (start : Position) (c : Cursor) :
    OnlyReads c (c.readBlock start) := by
  fun_induction readBlock start c with
  | case1 => exact .refused _ _ _
  | case2 c next hread => exact .behind hread (.stay _ _)
  | case3 c ch next hread _ =>
      exact .behind hread ((onlyReads_consume next).andThen fun _ d => .stay d _)
  | case4 c ch next hread _ ih => exact .behind hread ih

theorem onlyReads_readBody (delim : Char) (c : Cursor) : OnlyReads c (c.readBody delim) := by
  fun_induction readBody delim c with
  | case1 => exact .refused _ _ _
  | case2 c next hread => exact .behind hread (.stay _ _)
  | case3 c next hread => exact .behind hread (.stay _ _)
  | case4 => exact .refused _ _ _
  | case5 c next last hescape hread _ => exact .behind hread (.behind hescape (.stay _ _))
  | case6 c next escaped last hescape hread _ ih =>
      exact .behind hread (.behind hescape (ih.andThen fun _ d => .stay d _))
  | case7 c ch next hread _ _ ih => exact .behind hread (ih.andThen fun _ d => .stay d _)

theorem onlyReads_skipComment (start : Position) (c : Cursor) :
    OnlyReads c (c.skipComment start) := by
  refine (onlyReads_consume c).andThen fun _ c => ?_
  refine (onlyReads_consume c).andThen fun second c => ?_
  split
  next => exact (onlyReads_readWhile _ c).andThen fun _ d => .stay d _
  next => exact onlyReads_readBlock start c

theorem onlyReads_takeTrailingIf (c : Cursor) : OnlyReads c c.takeTrailingIf := by
  simp only [takeTrailingIf]
  split
  next => exact .stay c _
  next =>
    split
    next => exact .stay c _
    next => exact (onlyReads_advance c _).andThen fun _ d => .stay d _

theorem onlyReads_scanString (mode : Mode) (start : Position) (delim : Char) (c : Cursor) :
    OnlyReads c (c.scanString mode start delim) := by
  refine (onlyReads_consume c).andThen fun _ c => ?_
  refine (onlyReads_readBody delim c).andThen fun value c => ?_
  split
  next => exact .stay c _
  next =>
    split
    next => exact .stay c _
    next => exact .stay c _

theorem onlyReads_scanWord (mode : Mode) (start : Position) (c : Cursor) :
    OnlyReads c (c.scanWord mode start) := by
  refine (onlyReads_readWhile _ c).andThen fun word c => ?_
  split
  next => exact .stay c _
  next =>
    split
    next => exact (onlyReads_takeTrailingIf c).andThen fun _ d => .stay d _
    next => exact .stay c _

theorem onlyReads_scanSymbol (start : Position) (ch : Char) (c : Cursor) :
    OnlyReads c (c.scanSymbol start ch) := by
  unfold scanSymbol
  split
  next => exact (onlyReads_advance c _).andThen fun _ d => .stay d _
  next => exact .stay c _

theorem onlyReads_scanLexeme (mode : Mode) (start : Position) (ch : Char) (c : Cursor) :
    OnlyReads c (c.scanLexeme mode start ch) := by
  unfold scanLexeme
  split
  next => exact onlyReads_scanString mode start ch c
  next =>
    split
    next => exact .stay c _
    next =>
      split
      next => exact (onlyReads_readWhile _ c).andThen fun _ d => .stay d _
      next =>
        split
        next => exact onlyReads_scanWord mode start c
        next => exact onlyReads_scanSymbol start ch c

theorem OnlyReads.of_readWhile {p : Char → Bool} {result : Except Stop Text}
    (h : c.readWhile p = (result, d)) : OnlyReads c (result, d) :=
  h ▸ onlyReads_readWhile p c

theorem OnlyReads.of_skipComment {start : Position} {result : Except Stop Unit}
    (h : c.skipComment start = (result, d)) : OnlyReads c (result, d) :=
  h ▸ onlyReads_skipComment start c

theorem onlyReads_scanToken (mode : Mode) (c : Cursor) : OnlyReads c (c.scanToken mode) := by
  fun_induction scanToken mode c with
  | case1 c stop next hblanks => exact (OnlyReads.of_readWhile hblanks).stop
  | case2 c text next hblanks => exact (OnlyReads.of_readWhile hblanks).trans (.stay next _)
  | case3 c text next hblanks =>
      refine (OnlyReads.of_readWhile hblanks).trans ?_
      exact (onlyReads_consume next).andThen fun _ d => .stay d _
  | case4 c text next hblanks start _ ch _ _ stop last hcomment =>
      refine (OnlyReads.of_readWhile hblanks).trans ?_
      exact (OnlyReads.of_skipComment hcomment).stop
  | case5 c text next hblanks start _ ch _ _ last hcomment ih =>
      refine (OnlyReads.of_readWhile hblanks).trans ?_
      exact (OnlyReads.of_skipComment hcomment).trans ih
  | case6 c text next hblanks start _ ch =>
      refine (OnlyReads.of_readWhile hblanks).trans ?_
      exact onlyReads_scanLexeme mode start ch next

theorem scanHead_ne_refused (mode : Mode) (before unread : Text) (fault : Fault) :
    (scanHead mode before unread).1 ≠ .error (.refused fault) := by
  unfold scanHead
  split
  case h_4 =>
    split
    next => exact nofun
    next => exact nofun
  all_goals exact nofun

/-- In its source, a scan is never refused a read: no loop of it goes on when the end has been
read. -/
theorem Within.scanToken_ne_refused {source : Text} (h : c.Within source) (mode : Mode)
    (fault : Fault) : (c.scanToken mode).1 ≠ .error (.refused fault) := by
  cases h with
  | @between before unread _ =>
      obtain ⟨gap, hgap, hunread⟩ := Gap.exists_isGap unread
      rw [hunread, scanToken_gap hgap, scanToken_head (Gap.afterPiece?_rest unread)]
      exact scanHead_ne_refused mode _ _ fault
  | spent =>
      rw [scanToken_spent]
      exact nofun

theorem Within.exists_skip_scanToken {source : Text} (h : c.Within source) (mode : Mode) :
    ∃ n, c.skip n = (.ok (), (c.scanToken mode).2) := by
  rcases onlyReads_scanToken mode c with hskip | ⟨fault, hrefused⟩
  · exact hskip
  · exact absurd hrefused (h.scanToken_ne_refused mode fault)

end Cursor

/-! ## What a lexer reads -/

namespace Lexer

variable {lx : Lexer} {mode : Mode} {source : Text}

/-- A lexer whose cursor is in its source. -/
structure InSource (lx : Lexer) (mode : Mode) (source : Text) : Prop where
  lexes : lx.Lexes mode source
  within : lx.cursor.Within source

theorem InSource.offset_le (h : lx.InSource mode source) : lx.offset ≤ source.length :=
  h.within.offset_le

theorem Lexes.cause_ne_endMisuse (h : lx.Lexes mode source) {e : LexError}
    (hfailure : lx.failure = some e) : e.cause ≠ .endMisuse := by
  have hstep := h.step_of_eq (pullValued_of_failure hfailure)
  exact hstep.failure_eq.2

theorem Lexes.error_of_pulls (h : lx.Lexes mode source) (n : Nat) {e : LexError}
    (he : .error e ∈ (lx.pulls n).1) : e.cause ≠ .endMisuse := by
  induction n generalizing lx with
  | zero => cases he
  | succ n ih =>
      rcases List.mem_cons.mp he with hfirst | hrest
      · have hstep := h.step
        rw [← hfirst] at hstep
        exact hstep.failure_eq.2
      · exact ih h.step.lexes hrest

/-- A pull moves the cursor by reads, and none of them is refused. -/
theorem InSource.exists_skip (h : lx.InSource mode source) :
    ∃ n, lx.cursor.skip n = (.ok (), lx.pullValued.2.cursor) := by
  have hscanned := h.within.exists_skip_scanToken lx.mode
  rcases lx.pullValued_cases with ⟨e, -, hpull⟩ | ⟨t, c, hscan, hpull⟩ | ⟨stop, c, hscan, hpull⟩
  · rw [hpull]
    exact ⟨0, rfl⟩
  · rw [hscan] at hscanned
    rw [hpull]
    exact hscanned
  · rw [hscan] at hscanned
    rw [hpull]
    exact hscanned

theorem InSource.pullValued (h : lx.InSource mode source) :
    lx.pullValued.2.InSource mode source := by
  obtain ⟨n, hskip⟩ := h.exists_skip
  exact ⟨h.lexes.step.lexes, (h.within.skip hskip).1⟩

/-- Any number of pulls. -/
theorem InSource.exists_skip_pulls (h : lx.InSource mode source) (n : Nat) :
    ∃ reads, lx.cursor.skip reads = (.ok (), (lx.pulls n).2.cursor) := by
  induction n generalizing lx with
  | zero => exact ⟨0, rfl⟩
  | succ n ih =>
      obtain ⟨first, hfirst⟩ := h.exists_skip
      obtain ⟨rest, hrest⟩ := ih h.pullValued
      exact ⟨first + rest, by rw [Cursor.skip_add hfirst, hrest]; rfl⟩

theorem InSource.pulls (h : lx.InSource mode source) (n : Nat) :
    (lx.pulls n).2.InSource mode source := by
  obtain ⟨reads, hskip⟩ := h.exists_skip_pulls n
  exact ⟨h.lexes.pulls n, (h.within.skip hskip).1⟩

theorem inSource_ofSource (source : Text) (mode : Mode) (filename : Text) :
    (ofSource source mode filename).InSource mode source := by
  refine ⟨lexes_ofSource source mode filename, ?_⟩
  rw [(stands_ofSource source mode filename).cursor]
  exact .between rfl

/-- Every token but the end takes a character at least. -/
theorem Iterates.offset_add_le {limit : Option Nat} {r : Run} (hr : Iterates limit lx r)
    (h : lx.InSource mode source) :
    lx.offset + (r.tokens.countP (·.token.kind ≠ .endOfInput) : Nat) ≤ source.length := by
  induction hr with
  | left => simpa using h.offset_le
  | fails => simpa using h.offset_le
  | ends _ _ hkind => simpa [hkind] using h.offset_le
  | @goesOn limit lx next t r _ hpull hkind _ ih =>
      have hstep := h.lexes.step_of_eq hpull
      have hnext := h.pullValued
      rw [hpull] at hnext
      have hlt := (hstep.advances hkind).2
      have hrest := ih hnext
      rw [List.countP_cons_of_pos (by simpa using hkind)]
      omega

/-! ## Calls -/

/-- **Progress.** Let a lexer have answered any calls. However often it is pulled, no read of a
scan is refused, so none is made once the end has been read. Whatever the lexer is asked for
next, it makes at most one read more than there are unread characters, and a misuse of the end
is neither reported nor remembered. The offset stays in the source and never falls; every token
but the end raises it. Hence an iteration stops without a limit, with no more tokens than there
are characters. -/
theorem calls_progress (mode : Mode) (source filename : Text) (calls : List Call) :
    let lx := ((ofSource source mode filename).answers calls).2
    0 ≤ lx.offset ∧ lx.offset ≤ source.length ∧
    (∀ n, let next := (lx.pulls n).2
      ∀ fault, (next.cursor.scanToken next.mode).1 ≠ .error (.refused fault)) ∧
    (∀ e, lx.failure = some e → e.cause ≠ .endMisuse) ∧
    (∀ call, lx.offset ≤ (lx.answer call).2.offset ∧
      (∀ e, .error e ∈ (lx.answer call).1.outcomes → e.cause ≠ .endMisuse) ∧
      ∃ reads ≤ lx.cursor.unread.length + 1,
        lx.cursor.skip reads = (.ok (), (lx.answer call).2.cursor) ∧
        ∀ i < reads, (lx.cursor.skip i).2.exhausted = false) ∧
    (∀ t next, lx.pull = (.ok t, next) → t.kind ≠ .endOfInput → lx.offset < next.offset) ∧
    Iterates none lx lx.run ∧
    lx.offset + (lx.run.tokens.countP (·.token.kind ≠ .endOfInput) : Nat) ≤ source.length := by
  intro lx
  have hlx : lx.InSource mode source := by
    have hpulls := (inSource_ofSource source mode filename).pulls
      ((ofSource source mode filename).callOutcomes calls).length
    rwa [pulls_answers] at hpulls
  have hiterates : Iterates none lx lx.run := hlx.lexes.iterates_take (Nat.lt_succ_self _)
  refine ⟨hlx.within.offset_nonneg, hlx.offset_le, ?_, ?_, ?_, ?_, hiterates,
    hiterates.offset_add_le hlx⟩
  · intro n next fault
    exact (hlx.pulls n).within.scanToken_ne_refused next.mode fault
  · intro e hfailure
    exact hlx.lexes.cause_ne_endMisuse hfailure
  · intro call
    have hanswer := pulls_answer lx call
    obtain ⟨reads, hskip⟩ := hlx.exists_skip_pulls (lx.answer call).1.outcomes.length
    rw [hanswer] at hskip
    obtain ⟨-, hoffset, hleft⟩ := hlx.within.skip hskip
    refine ⟨hoffset, ?_, reads, ?_, hskip, fun i hi => Cursor.exhausted_of_skip hskip hi⟩
    · intro e he
      apply hlx.lexes.error_of_pulls (lx.answer call).1.outcomes.length
      rw [hanswer]
      exact he
    · have hmost := hlx.within.readsLeft_le
      omega
  · intro t next hpull hkind
    have hvalued : lx.pullValued = (.ok ⟨t, next.value⟩, next) := by simp [pullValued, hpull]
    exact ((hlx.lexes.step_of_eq hvalued).advances hkind).2

/-- Behind a name that an iteration has taken, two words and the tab between them are read as
one token. -/
theorem calls_progress_else_if :
    let lx := ((ofSource "a else\tif" {} []).answers [.iterate (some 1)]).2
    lx.pull.1 = .ok ⟨.elseIfWords, 1, 3⟩ ∧ lx.offset < lx.pull.2.offset := by
  refine ⟨by decide +kernel, ?_⟩
  obtain ⟨-, -, -, -, -, hraises, -⟩ := calls_progress {} "a else\tif" [] [.iterate (some 1)]
  exact hraises ⟨.elseIfWords, 1, 3⟩ _ (Prod.ext (by decide +kernel) rfl) (by decide)

end Lexer

end ScriptLex
