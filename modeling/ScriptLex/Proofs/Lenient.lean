import ScriptLex.Proofs.Scan

/-!
# Strings that are never closed

The two ways to take a string that is never closed share the cut of a source: segments, last
gap and tail do not depend on how such a string is taken. They part only over a tail that is
one, which either ends the token stream where it starts or is refused there.
-/

namespace ScriptLex

variable {mode : Mode} {source : Text}

/-! ## The tail in either mode -/

/-- A tail is refused as an open string only where such strings are refused. -/
theorem Offends.open_of_cause {before tail : Text} {e : LexError}
    (h : Offends mode before tail e) (hcause : e.cause = .unterminatedString) :
    mode.lenientStrings = false ∧ StringLiteral.Open tail := by
  have hreason := h.reason
  rw [hcause] at hreason
  obtain ⟨-, -, hmode, hopen⟩ := hreason
  exact ⟨hmode, hopen⟩

/-- Any other reason does not look at how open strings are taken. -/
theorem Offends.in_mode {before tail : Text} {e : LexError} (h : Offends mode before tail e)
    (hcause : e.cause ≠ .unterminatedString) (lenient : Bool) :
    Offends { mode with lenientStrings := lenient } before tail e := by
  obtain ⟨hsource, hposition, hreason⟩ := h
  refine ⟨hsource, hposition, ?_⟩
  cases hkind : e.cause with
  | unterminatedString => exact absurd hkind hcause
  | _ =>
      rw [hkind] at hreason
      exact hreason

/-! ## Strict and lenient lexing -/

/-- **Lenient lexing differs at open strings alone.** What strict lexing accepts has the same
tokens leniently. Where strict lexing refuses a string that is never closed, lenient lexing
gives the tokens before it and then the end of the input, at the place of the string. Any
other error is the same in both, behind the same tokens. Lenient lexing refuses no string. -/
theorem tokenize_lenient (mode : Mode) (source : Text) :
    let strict : Mode := { mode with lenientStrings := false }
    let lenient : Mode := { mode with lenientStrings := true }
    (∀ tokens, tokenize strict source = .ok tokens → tokenize lenient source = .ok tokens) ∧
    (∀ e, tokenize strict source = .error e → e.cause = .unterminatedString →
      tokenize lenient source =
        .ok (yielded strict source ++
          [⟨⟨.endOfInput, e.position.line, e.position.column⟩, none⟩])) ∧
    (∀ e, tokenize strict source = .error e → e.cause ≠ .unterminatedString →
      tokenize lenient source = .error e ∧ yielded lenient source = yielded strict source) ∧
    ∀ e, tokenize lenient source = .error e → e.cause ≠ .unterminatedString := by
  intro strict lenient
  refine ⟨?_, ?_, ?_, ?_⟩
  · intro tokens hok
    obtain ⟨c, hends, rfl⟩ := exists_cut_of_ok hok
    rcases hends with htail | ⟨hmode, -⟩
    · exact @Cut.tokenize_of_ends lenient source c (.inl htail)
    · cases hmode
  · intro e herror hcause
    obtain ⟨c, hoffends⟩ := exists_cut_of_error herror
    obtain ⟨-, hopen⟩ := hoffends.open_of_cause hcause
    have hends : Ends lenient c.tail := .inr ⟨rfl, hopen⟩
    rw [@Cut.tokenize_of_ends lenient source c hends, c.yielded_of_offends hoffends,
      hoffends.position]
    rfl
  · intro e herror hcause
    obtain ⟨c, hoffends⟩ := exists_cut_of_error herror
    have hoffends' : Offends lenient c.before c.tail e := hoffends.in_mode hcause true
    refine ⟨@Cut.tokenize_of_offends lenient source c e hoffends', ?_⟩
    rw [@Cut.yielded_of_offends lenient source c e hoffends', c.yielded_of_offends hoffends]
  · intro e herror hcause
    obtain ⟨c, hoffends⟩ := exists_cut_of_error herror
    obtain ⟨hmode, -⟩ := hoffends.open_of_cause hcause
    cases hmode

/-- The backslash at the end escapes nothing, so the string is open. The tokens before it and
its own place remain. -/
theorem tokenize_lenient_backslash :
    tokenize ⟨true, true⟩ ("x\n 'a\\" : Text) =
      .ok [⟨⟨.identifier, 1, 1⟩, some "x"⟩, ⟨⟨.lineFeed, 1, 2⟩, none⟩,
        ⟨⟨.endOfInput, 2, 2⟩, none⟩] := by
  have hyielded : yielded {} ("x\n 'a\\" : Text) =
      [⟨⟨.identifier, 1, 1⟩, some "x"⟩, ⟨⟨.lineFeed, 1, 2⟩, none⟩] := by
    decide +kernel
  have hend := (tokenize_lenient {} ("x\n 'a\\" : Text)).2.1
    { cause := .unterminatedString
      message := "string literal reaches end of input"
      position := ⟨2, 2, 3⟩
      source := "x\n 'a\\"
      length := 1 }
    (by decide +kernel) rfl
  rw [hyielded] at hend
  exact hend

end ScriptLex
