import ScriptLex.Proofs.Scan

/-!
# The lexical grammar

The lexer accepts the sources that can be cut, and refuses the others with the error that
the place where the cut stops calls for.
-/

namespace ScriptLex

/-- **Acceptance.** A source has tokens exactly if it can be cut into gaps and lexemes up to
its end, or up to a string that is never closed where such a string may end the stream. The
tokens are those of the cut, each at the place where its lexeme starts, and there is no
other cut. -/
theorem tokenize_eq_ok_iff (mode : Mode) (source : Text) (tokens : List ValuedToken) :
    (tokenize mode source = .ok tokens ↔
      ∃ c : Cut mode.joinElseIf source, Ends mode c.tail ∧ c.stream = tokens) ∧
    ∀ c c' : Cut mode.joinElseIf source, Ends mode c.tail → Ends mode c'.tail → c = c' := by
  refine ⟨⟨exists_cut_of_ok, ?_⟩, ?_⟩
  · rintro ⟨c, hends, rfl⟩
    exact c.tokenize_of_ends hends
  · intro c c' h h'
    exact Cut.eq_of_stops h.stops h'.stops

/-- **Refusal.** A source is refused with an error exactly if it can be cut up to a tail
that offends for the reason of that error. A character is unknown exactly if it is no symbol
by itself and does not start `!=`. -/
theorem tokenize_eq_error_iff (mode : Mode) (source : Text) (e : LexError) :
    (tokenize mode source = .error e ↔
      ∃ c : Cut mode.joinElseIf source, Offends mode c.before c.tail e) ∧
    ∀ (c : Char) (after : Text), (∀ s ∈ Symbol.script, ¬ s.pattern <+: c :: after) ↔
      (∀ s ∈ Symbol.script, s.pattern ≠ [c]) ∧ (c :: after).take 2 ≠ ['!', '='] := by
  refine ⟨⟨exists_cut_of_error, ?_⟩, Symbol.script_none_iff⟩
  rintro ⟨c, hoffends⟩
  exact c.tokenize_of_offends hoffends

end ScriptLex
