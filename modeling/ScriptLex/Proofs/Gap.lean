import Mathlib.Data.List.Infix
import ScriptLex.CharClass
import ScriptLex.Proofs.Text

/-!
# The grammar of gaps

A gap is a sequence of blanks and complete comments. What may stand in it is said here
without a scanner: a block comment has no `*/` in its body, a line comment no line feed,
and the latter stops only where a line feed or the end of the text follows. Skipping a gap
takes exactly such a sequence, and the longest one.
-/

namespace ScriptLex.Gap

/-! ## Skipping gaps -/

/-- What follows the first `*/`, none if there is no `*/`. -/
def afterClose? : Text → Option Text
  | [] => none
  | '*' :: '/' :: rest => some rest
  | _ :: rest => afterClose? rest

/-- The next line feed and all behind it. -/
def afterLine (t : Text) : Text := t.dropWhile (· ≠ '\n')

/-- What follows the blank or the complete comment that a text starts with. -/
def afterPiece? : Text → Option Text
  | '/' :: '/' :: body => some (afterLine body)
  | '/' :: '*' :: body => afterClose? body
  | c :: rest => if isBlank c then some rest else none
  | [] => none

theorem length_lt_of_afterClose? {t rest : Text} (h : afterClose? t = some rest) :
    rest.length < t.length := by
  fun_induction afterClose? t with
  | case1 => simp at h
  | case2 r =>
    obtain rfl : r = rest := by simpa using h
    simp only [List.length_cons]
    omega
  | case3 _ r _ ih =>
    have := ih h
    simp only [List.length_cons]
    omega

theorem length_afterLine_le (t : Text) : (afterLine t).length ≤ t.length :=
  (List.dropWhile_sublist _).length_le

theorem length_lt_of_afterPiece? {t rest : Text} (h : afterPiece? t = some rest) :
    rest.length < t.length := by
  unfold afterPiece? at h
  split at h
  case h_1 body =>
    obtain rfl : afterLine body = rest := by simpa using h
    have := length_afterLine_le body
    simp only [List.length_cons]
    omega
  case h_2 body =>
    have := length_lt_of_afterClose? h
    simp only [List.length_cons]
    omega
  case h_3 c r _ _ =>
    split at h
    · obtain rfl : r = rest := by simpa using h
      simp
    · simp at h
  case h_4 => simp at h

/-- What follows the gap that a text starts with. -/
def rest (t : Text) : Text :=
  match _piece : afterPiece? t with
  | some after => rest after
  | none => t
termination_by t.length
decreasing_by exact length_lt_of_afterPiece? _piece

/-! ## The rules -/

/-- A blank or a complete comment in front of the text `after`. -/
inductive Piece : (piece after : Text) → Prop
  | blank {c : Char} {after : Text} (hc : isBlank c = true) : Piece [c] after
  | blockComment {body after : Text} (hbody : ¬ ['*', '/'] <:+: body) :
      Piece ('/' :: '*' :: (body ++ ['*', '/'])) after
  | lineComment {body after : Text} (hbody : Text.Run (· ≠ '\n') body after) :
      Piece ('/' :: '/' :: body) after

/-- Blanks and complete comments in front of the text `after`. -/
inductive IsGap : (gap after : Text) → Prop
  | nil {after : Text} : IsGap [] after
  | cons {piece gap after : Text} (hpiece : Piece piece (gap ++ after))
      (hgap : IsGap gap after) : IsGap (piece ++ gap) after

/-! ## Comments -/

theorem afterClose?_eq_none_iff {t : Text} : afterClose? t = none ↔ ¬ ['*', '/'] <:+: t := by
  fun_induction afterClose? t with
  | case1 => simp
  | case2 r =>
      have hin : ['*', '/'] <:+: '*' :: '/' :: r := (List.prefix_append _ r).isInfix
      simp [hin]
  | case3 c r hno ih =>
      have hpre : ¬ ['*', '/'] <+: c :: r := by
        rintro ⟨s, hs⟩
        have hs' : '*' :: '/' :: s = c :: r := hs
        injection hs' with hc hr
        exact hno s hc.symm hr.symm
      rw [ih, List.infix_cons_iff]
      simp [hpre]

theorem afterClose?_append {body : Text} (hbody : ¬ ['*', '/'] <:+: body) (after : Text) :
    afterClose? (body ++ '*' :: '/' :: after) = some after := by
  induction body with
  | nil => rfl
  | cons c body ih =>
      rw [List.infix_cons_iff, not_or] at hbody
      have hstep : afterClose? (c :: (body ++ '*' :: '/' :: after)) =
          afterClose? (body ++ '*' :: '/' :: after) := by
        rw [afterClose?]
        intro r hc hr
        -- the two characters of an early close would both lie in the body
        cases body with
        | nil => exact absurd (List.cons.inj hr).1 (by decide)
        | cons d body =>
            obtain ⟨hd, -⟩ := List.cons.inj hr
            subst hc hd
            exact hbody.1 (List.prefix_append _ body)
      rw [List.cons_append, hstep]
      exact ih hbody.2

theorem exists_body_of_afterClose? {t after : Text} (h : afterClose? t = some after) :
    ∃ body, ¬ ['*', '/'] <:+: body ∧ t = body ++ '*' :: '/' :: after := by
  fun_induction afterClose? t with
  | case1 => simp at h
  | case2 r =>
      obtain rfl : r = after := by simpa using h
      exact ⟨[], by simp, rfl⟩
  | case3 c r hno ih =>
      obtain ⟨body, hbody, rfl⟩ := ih h
      refine ⟨c :: body, ?_, rfl⟩
      rw [List.infix_cons_iff, not_or]
      refine ⟨?_, hbody⟩
      rintro ⟨s, hs⟩
      have hs' : '*' :: '/' :: s = c :: body := hs
      injection hs' with hc hr
      exact hno (s ++ '*' :: '/' :: after) hc.symm (by rw [← hr]; rfl)

/-! ## One piece -/

theorem Piece.afterPiece? {piece after : Text} (h : Piece piece after) :
    afterPiece? (piece ++ after) = some after := by
  cases h with
  | @blank c _ hc =>
      have hne : c ≠ '/' := by
        rintro rfl
        exact absurd hc (by decide)
      simp [Gap.afterPiece?, hne, hc]
  | @blockComment body _ hbody =>
      show afterClose? ((body ++ ['*', '/']) ++ after) = some after
      rw [List.append_assoc]
      exact afterClose?_append hbody after
  | @lineComment body _ hbody =>
      show some (afterLine (body ++ after)) = some after
      rw [afterLine, hbody.dropWhile_eq]

theorem exists_piece_of_afterPiece? {t after : Text} (h : afterPiece? t = some after) :
    ∃ piece, Piece piece after ∧ t = piece ++ after := by
  unfold afterPiece? at h
  split at h
  case h_1 body =>
    obtain rfl : afterLine body = after := by simpa using h
    refine ⟨'/' :: '/' :: body.takeWhile (· ≠ '\n'), .lineComment ?_, ?_⟩
    · exact Text.run_takeWhile _ body
    · simp [afterLine]
  case h_2 body =>
    obtain ⟨comment, hcomment, rfl⟩ := exists_body_of_afterClose? h
    exact ⟨_, .blockComment hcomment, by simp⟩
  case h_3 c r _ _ =>
    split at h
    next hc =>
      obtain rfl : r = after := by simpa using h
      exact ⟨[c], .blank hc, rfl⟩
    next => simp at h
  case h_4 => simp at h

/-! ## The whole gap -/

theorem rest_of_none {t : Text} (h : afterPiece? t = none) : rest t = t := by
  rw [rest]
  split
  next hsome => rw [h] at hsome; cases hsome
  next => rfl

theorem rest_of_some {t after : Text} (h : afterPiece? t = some after) :
    rest t = rest after := by
  rw [rest]
  split
  next hsome =>
    rw [h] at hsome
    cases hsome
    rfl
  next hnone => rw [h] at hnone; cases hnone

theorem afterPiece?_rest (t : Text) : afterPiece? (rest t) = none := by
  fun_induction rest t with
  | case1 t after _ ih => exact ih
  | case2 t h => exact h

/-- What is skipped is a gap. -/
theorem exists_isGap (t : Text) : ∃ gap, IsGap gap (rest t) ∧ t = gap ++ rest t := by
  fun_induction rest t with
  | case1 t after h ih =>
      obtain ⟨gap, hgap, hafter⟩ := ih
      obtain ⟨piece, hpiece, rfl⟩ := exists_piece_of_afterPiece? h
      rw [hafter] at hpiece
      exact ⟨piece ++ gap, .cons hpiece hgap, by rw [List.append_assoc, ← hafter]⟩
  | case2 t => exact ⟨[], .nil, rfl⟩

/-- All of a gap is skipped. -/
theorem IsGap.rest_append {gap after : Text} (h : IsGap gap after) :
    rest (gap ++ after) = rest after := by
  induction h with
  | nil => rfl
  | @cons piece gap after hpiece _ ih =>
      rw [List.append_assoc, rest_of_some hpiece.afterPiece?, ih]

/-- **Gaps are unique.** In front of a text that starts with no piece of a gap, skipping
stops exactly there. -/
theorem IsGap.rest_eq {gap after : Text} (h : IsGap gap after)
    (hstop : Gap.afterPiece? after = none) : rest (gap ++ after) = after := by
  rw [h.rest_append, rest_of_none hstop]

end ScriptLex.Gap
