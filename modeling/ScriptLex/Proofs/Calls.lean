import ScriptLex.Proofs.Pulls

/-!
# Ways to ask for tokens

A lexer is asked for one token at a time, with an error raised or handed back, or by
iterating over it. An iteration has nothing of its own to remember: taken up again after
other calls it goes on as a fresh one does, so calls that start a fresh iteration and leave
it at any point are all that is needed. Whatever the calls are, their pulls are those of the
lexer in order.
-/

namespace ScriptLex

namespace Lexer

/-- What the pulls behind a reply came to. -/
def Reply.outcomes : Reply → List Outcome
  | returned t => [.ok t]
  | raised e => [.error e]
  | handedBack e => [.error e]
  | iterated tokens failure => tokens.map .ok ++ (failure.map .error).toList

/-- The replies to calls in a row, and the lexer behind them. -/
def answers (lx : Lexer) : List Call → List Reply × Lexer
  | [] => ([], lx)
  | call :: calls =>
    let (reply, next) := lx.answer call
    let (replies, last) := next.answers calls
    (reply :: replies, last)

/-- What the pulls of calls in a row came to. -/
def callOutcomes (lx : Lexer) (calls : List Call) : List Outcome :=
  (lx.answers calls).1.flatMap Reply.outcomes

/-! ## Calls as pulls -/

/-- One call makes as many pulls as its reply has outcomes. -/
theorem pulls_answer (lx : Lexer) (call : Call) :
    lx.pulls (lx.answer call).1.outcomes.length =
      ((lx.answer call).1.outcomes, (lx.answer call).2) := by
  rcases hpull : lx.pullValued with ⟨outcome, next⟩
  cases call with
  | next =>
      cases outcome with
      | ok t => simp [answer, Reply.outcomes, pulls, hpull]
      | error e => simp [answer, Reply.outcomes, pulls, hpull]
  | tryNext =>
      cases outcome with
      | ok t => simp [answer, Reply.outcomes, pulls, hpull]
      | error e => simp [answer, Reply.outcomes, pulls, hpull]
  | iterate limit =>
      cases limit with
      | some limit => exact pulls_take limit lx
      | none => exact pulls_take _ lx

/-- and so do calls in a row. -/
theorem pulls_answers (lx : Lexer) (calls : List Call) :
    lx.pulls (lx.callOutcomes calls).length = (lx.callOutcomes calls, (lx.answers calls).2) := by
  induction calls generalizing lx with
  | nil => rfl
  | cons call calls ih =>
      have hcons : lx.callOutcomes (call :: calls) =
          (lx.answer call).1.outcomes ++ (lx.answer call).2.callOutcomes calls := rfl
      rw [hcons, List.length_append, pulls_add, pulls_answer, ih]
      rfl

/-! ## Iterations -/

/-- An iteration, with or without a limit: it pulls until the end of the input or an error,
unless it is left before. -/
inductive Iterates : (limit : Option Nat) → Lexer → Run → Prop
  | left {lx : Lexer} : Iterates (some 0) lx ⟨[], none, lx⟩
  | fails {limit : Option Nat} {lx next : Lexer} {e : LexError} (hlimit : limit ≠ some 0)
      (h : lx.pullValued = (.error e, next)) : Iterates limit lx ⟨[], some e, next⟩
  | ends {limit : Option Nat} {lx next : Lexer} {t : ValuedToken} (hlimit : limit ≠ some 0)
      (h : lx.pullValued = (.ok t, next)) (hkind : t.token.kind = .endOfInput) :
      Iterates limit lx ⟨[t], none, next⟩
  | goesOn {limit : Option Nat} {lx next : Lexer} {t : ValuedToken} {r : Run}
      (hlimit : limit ≠ some 0) (h : lx.pullValued = (.ok t, next))
      (hkind : t.token.kind ≠ .endOfInput) (hrest : Iterates (limit.map (· - 1)) next r) :
      Iterates limit lx ⟨t :: r.tokens, r.failure, r.lexer⟩

theorem take_iterates (limit : Nat) (lx : Lexer) : Iterates (some limit) lx (lx.take limit) := by
  induction limit generalizing lx with
  | zero => exact .left
  | succ limit ih =>
      have hlimit : some (limit + 1) ≠ some 0 := by simp
      rcases hpull : lx.pullValued with ⟨outcome, next⟩
      cases outcome with
      | error e =>
          rw [take_succ_of_error hpull]
          exact .fails hlimit hpull
      | ok t =>
          rw [take_succ_of_ok hpull]
          by_cases hkind : t.token.kind = .endOfInput
          · rw [if_pos hkind]
            exact .ends hlimit hpull hkind
          · rw [if_neg hkind]
            exact .goesOn hlimit hpull hkind (ih next)

/-- A limit above the number of unread characters is never reached. -/
theorem Lexes.iterates_take {mode : Mode} {source : Text} {lx : Lexer} (h : lx.Lexes mode source)
    {limit : Nat} (hlimit : lx.cursor.unread.length < limit) :
    Iterates none lx (lx.take limit) := by
  induction limit generalizing lx with
  | zero => exact absurd hlimit (Nat.not_lt_zero _)
  | succ limit ih =>
      rcases hpull : lx.pullValued with ⟨outcome, next⟩
      have hstep := h.step_of_eq hpull
      cases outcome with
      | error e =>
          rw [take_succ_of_error hpull]
          exact .fails (by simp) hpull
      | ok t =>
          rw [take_succ_of_ok hpull]
          by_cases hkind : t.token.kind = .endOfInput
          · rw [if_pos hkind]
            exact .ends (by simp) hpull hkind
          · rw [if_neg hkind]
            have hshort := (hstep.advances hkind).1
            exact .goesOn (by simp) hpull hkind (ih hstep.lexes (by omega))

/-- Nothing new comes behind it: the end of the input, or an error. -/
def IsLast : Outcome → Prop
  | .ok t => t.token.kind = .endOfInput
  | .error _ => True

/-- Where an iteration stops: at the first outcome that is a last one, or where it is left. -/
structure Stopped (limit : Option Nat) (given : List Outcome) : Prop where
  goesOn : ∀ outcome ∈ given.dropLast, ¬ IsLast outcome
  length_le : ∀ n ∈ limit, given.length ≤ n
  stops : limit = some given.length ∨ ∃ outcome ∈ given.getLast?, IsLast outcome

theorem Stopped.single {limit : Option Nat} {outcome : Outcome} (hlimit : limit ≠ some 0)
    (h : IsLast outcome) : Stopped limit [outcome] where
  goesOn := by simp
  length_le n hn := by
    have hzero : n ≠ 0 := by
      rintro rfl
      exact hlimit hn
    exact Nat.pos_of_ne_zero hzero
  stops := .inr ⟨outcome, rfl, h⟩

theorem Stopped.cons {limit : Option Nat} {outcome : Outcome} {given : List Outcome}
    (hlimit : limit ≠ some 0) (houtcome : ¬ IsLast outcome)
    (h : Stopped (limit.map (· - 1)) given) : Stopped limit (outcome :: given) where
  goesOn x hx := by
    cases given with
    | nil => cases hx
    | cons y rest =>
        rcases List.mem_cons.mp hx with rfl | hrest
        · exact houtcome
        · exact h.goesOn x hrest
  length_le n hn := by
    cases hn
    have hzero : n ≠ 0 := fun hzero => hlimit (congrArg some hzero)
    have hle := h.length_le (n - 1) rfl
    rw [List.length_cons]
    omega
  stops := by
    rcases h.stops with hleft | ⟨last, hlast, hfinal⟩
    · left
      cases limit with
      | none => cases hleft
      | some n =>
          have hzero : n ≠ 0 := fun hzero => hlimit (congrArg some hzero)
          have hlength : n - 1 = given.length := Option.some.inj hleft
          rw [List.length_cons, ← hlength]
          exact congrArg some (by omega)
    · right
      refine ⟨last, ?_, hfinal⟩
      rw [Option.mem_def, List.getLast?_cons, hlast]
      rfl

theorem Iterates.stopped {limit : Option Nat} {lx : Lexer} {r : Run} (h : Iterates limit lx r) :
    Stopped limit r.outcomes := by
  induction h with
  | left => exact ⟨by simp [Run.outcomes], by simp [Run.outcomes], .inl rfl⟩
  | fails hlimit _ => exact .single hlimit trivial
  | ends hlimit _ hkind => exact .single hlimit hkind
  | goesOn hlimit _ hkind _ ih => exact .cons hlimit hkind ih

/-! ## Replies -/

/-- The reply to a call whose pulls come to `outcome 0`, `outcome 1` and so on: one token or one
error is asked for by a single pull, and an iteration gives what its pulls give. -/
inductive Call.AnsweredBy (outcome : Nat → Outcome) : Call → Reply → Prop
  | nextReturns {t : ValuedToken} (h : outcome 0 = .ok t) : AnsweredBy outcome .next (.returned t)
  | nextRaises {e : LexError} (h : outcome 0 = .error e) : AnsweredBy outcome .next (.raised e)
  | tryReturns {t : ValuedToken} (h : outcome 0 = .ok t) : AnsweredBy outcome .tryNext (.returned t)
  | tryHandsBack {e : LexError} (h : outcome 0 = .error e) :
      AnsweredBy outcome .tryNext (.handedBack e)
  | iterates {limit : Option Nat} {tokens : List ValuedToken} {failure : Option LexError}
      (h : (Reply.iterated tokens failure).outcomes =
        (List.range (Reply.iterated tokens failure).outcomes.length).map outcome)
      (hstopped : Stopped limit (Reply.iterated tokens failure).outcomes) :
      AnsweredBy outcome (.iterate limit) (.iterated tokens failure)

/-- A lexer answers each call by its next pulls. -/
theorem Lexes.answeredBy {mode : Mode} {source : Text} {lx : Lexer} (h : lx.Lexes mode source)
    {outcome : Nat → Outcome} (hpulls : ∀ n, (lx.pulls n).1 = (List.range n).map outcome)
    (call : Call) : call.AnsweredBy outcome (lx.answer call).1 := by
  have hfirst : lx.pullValued.1 = outcome 0 := (List.cons.inj (hpulls 1)).1
  have hgiven : (lx.answer call).1.outcomes =
      (List.range (lx.answer call).1.outcomes.length).map outcome := by
    rw [← hpulls, pulls_answer]
  cases call with
  | next =>
      rw [answer]
      split
      next t next hpull => exact .nextReturns (by rw [← hfirst, hpull])
      next e next hpull => exact .nextRaises (by rw [← hfirst, hpull])
  | tryNext =>
      rw [answer]
      split
      next t next hpull => exact .tryReturns (by rw [← hfirst, hpull])
      next e next hpull => exact .tryHandsBack (by rw [← hfirst, hpull])
  | iterate limit =>
      cases limit with
      | some limit => exact .iterates hgiven (take_iterates limit lx).stopped
      | none => exact .iterates hgiven (h.iterates_take (Nat.lt_succ_self _)).stopped

/-- **Calls are interchangeable and ends are final.** Calls of any kind in any order come to
what so many pulls come to, and leave the lexer as those do. Pull number `n` depends on the
source and the mode only: it gives the tokens of one run, in order. After any calls, whose pulls
are numbered up to `n`, the next call is answered by what the pulls from number `n` on come to,
and leaves the lexer behind those that its reply shows. The end of the input is
followed by the end of the source for ever, which it is itself unless a string that is never
closed was taken for it. An error is followed by the same error for ever, and nothing of the
lexer changes any more. After every pull the lexer shows the last token that was given, and
its value exactly if there is one. -/
theorem calls_interchangeable (mode : Mode) (source filename : Text) :
    let lx := ofSource source mode filename
    (∀ calls, lx.pulls (lx.callOutcomes calls).length =
      (lx.callOutcomes calls, (lx.answers calls).2)) ∧
    (∀ calls call,
      let asked := (lx.answers calls).2
      let n := (lx.callOutcomes calls).length
      call.AnsweredBy (fun i => outcomeAt mode source (n + i)) (asked.answer call).1 ∧
        (asked.answer call).2 = (lx.pulls (n + (asked.answer call).1.outcomes.length)).2) ∧
    (∀ n, (lx.pulls n).1 = (List.range n).map (outcomeAt mode source) ∧
      (lx.pulls n).2.Remembers (lx.pulls n).1) ∧
    (∀ n t, outcomeAt mode source n = .ok t → t.token.kind = .endOfInput →
      t.value = none ∧
      (t = .endOf source ∨ mode.lenientStrings = true ∧
        ∃ before tail, source = before ++ tail ∧ StringLiteral.Open tail ∧
          t = .startingAt (Position.behind before) .endOfInput none) ∧
      ∀ m, n < m → outcomeAt mode source m = .ok (.endOf source)) ∧
    ∀ n e, outcomeAt mode source n = .error e → ∀ m, n < m →
      outcomeAt mode source m = .error e ∧ (lx.pulls m).2 = (lx.pulls (n + 1)).2 := by
  intro lx
  have hcalls := pulls_answers lx
  refine ⟨hcalls, ?_, ?_, ?_, ?_⟩
  · intro calls call asked n
    have hasked : (lx.pulls n).2 = asked := congrArg Prod.snd (hcalls calls)
    have hlexes : asked.Lexes mode source := by
      rw [← hasked]
      exact (lexes_ofSource source mode filename).pulls n
    have hpulls (m : Nat) : (asked.pulls m).1 =
        (List.range m).map fun i => outcomeAt mode source (n + i) := by
      have hadd := pulls_ofSource mode source filename (n + m)
      rw [pulls_add, pulls_ofSource, List.range_add, List.map_append, List.map_map] at hadd
      rw [← hasked]
      exact List.append_cancel_left hadd
    refine ⟨hlexes.answeredBy hpulls call, ?_⟩
    rw [pulls_add, hasked, pulls_answer]
  · intro n
    exact ⟨pulls_ofSource mode source filename n, remembers_pulls source mode filename n⟩
  · intro n t h hkind
    have hstep := ((lexes_ofSource source mode filename).pulls n).step
    rw [pullValued_pulls, h] at hstep
    obtain ⟨-, hvalue, hplace⟩ := hstep.ended_of_kind hkind
    exact ⟨hvalue, hplace, fun m hm => outcomeAt_of_endOfInput h hkind hm⟩
  · intro n e h m hm
    exact outcomeAt_of_error filename h hm

/-- An iteration is left behind a name. The string that is never closed is then handed over as
the end of the input, at its quote, and every later pull gives the end behind it. -/
theorem calls_open_string :
    ((ofSource "a 'b" ⟨true, true⟩ []).answers [.iterate (some 1), .tryNext]).1 =
        [.iterated [⟨⟨.identifier, 1, 1⟩, some ['a']⟩] none,
          .returned ⟨⟨.endOfInput, 1, 3⟩, none⟩] ∧
      outcomeAt ⟨true, true⟩ "a 'b" 1 = .ok ⟨⟨.endOfInput, 1, 3⟩, none⟩ ∧
      outcomeAt ⟨true, true⟩ "a 'b" 5 = .ok ⟨⟨.endOfInput, 1, 5⟩, none⟩ := by
  have hreplies : ((ofSource "a 'b" ⟨true, true⟩ []).answers [.iterate (some 1), .tryNext]).1 =
      [.iterated [⟨⟨.identifier, 1, 1⟩, some ['a']⟩] none,
        .returned ⟨⟨.endOfInput, 1, 3⟩, none⟩] := by
    decide +kernel
  have hcount :
      ((ofSource "a 'b" ⟨true, true⟩ []).callOutcomes [.iterate (some 1)]).length = 1 := by
    decide +kernel
  obtain ⟨-, hanswers, -, hend, -⟩ := calls_interchangeable ⟨true, true⟩ "a 'b" []
  obtain ⟨hanswered, -⟩ := hanswers [.iterate (some 1)] .tryNext
  rw [show (((ofSource "a 'b" ⟨true, true⟩ []).answers [.iterate (some 1)]).2.answer .tryNext).1 =
    .returned ⟨⟨.endOfInput, 1, 3⟩, none⟩ from (List.cons.inj (List.cons.inj hreplies).2).1]
    at hanswered
  cases hanswered with
  | tryReturns hsecond =>
      rw [hcount] at hsecond
      obtain ⟨-, -, hlater⟩ := hend 1 _ hsecond rfl
      exact ⟨hreplies, hsecond, hlater 5 (by decide)⟩

end Lexer

end ScriptLex
