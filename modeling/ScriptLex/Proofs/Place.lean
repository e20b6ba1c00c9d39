import Mathlib.Data.List.Induction
import ScriptLex.Cursor
import ScriptLex.Proofs.Text

/-!
# Places in a source

Line, column and offset of a character are functions of the text before it. A cursor
counts them one character at a time; here they are read off that text as a whole, and the
two agree: reading moves a cursor from the place behind a text to the place behind the
longer text, whatever stands in it.
-/

namespace ScriptLex

/-! ## The place behind a text -/

namespace Text

/-- How many characters follow the last line feed. -/
def lastLineLength (t : Text) : Nat := (t.reverse.takeWhile (· ≠ '\n')).length

theorem lastLineLength_le (t : Text) : t.lastLineLength ≤ t.length := by
  have hsublist : (t.reverse.takeWhile (· ≠ '\n')).length ≤ t.reverse.length :=
    (List.takeWhile_sublist _).length_le
  rwa [List.length_reverse] at hsublist

theorem lastLineLength_concat (t : Text) (c : Char) :
    lastLineLength (t ++ [c]) = if c = '\n' then 0 else lastLineLength t + 1 := by
  by_cases hc : c = '\n'
  · simp [lastLineLength, hc]
  · simp [lastLineLength, hc]

/-- A text with a line feed in it hides what stands before. -/
theorem lastLineLength_append (a b : Text) :
    lastLineLength (a ++ b) =
      if '\n' ∈ b then lastLineLength b else lastLineLength a + b.length := by
  induction b using List.reverseRecOn with
  | nil => simp
  | append_singleton b c ih =>
      rw [← List.append_assoc, lastLineLength_concat, lastLineLength_concat, ih]
      by_cases hc : c = '\n'
      · simp [hc]
      · by_cases hb : '\n' ∈ b
        · simp [hc, hb]
        · simp [hc, hb, Ne.symm hc]
          omega

end Text

/-- The place of the character that `before` leads up to. -/
def Position.behind (before : Text) : Position :=
  ⟨1 + before.count '\n', before.lastLineLength + 1, before.length⟩

/-- A position of a text when that text starts behind `column` characters of line `line`,
at the offset `offset` of a longer one. Only the first line is pushed to the right. -/
def Position.moved (line column offset : Int) (p : Position) : Position :=
  ⟨line + p.line - 1, if p.line = 1 then column + p.column else p.column, p.offset + offset⟩

/-- **Places compose.** Behind `a ++ b` one stands where one stands behind `b`, if `b`
itself starts behind `a`. -/
theorem Position.behind_append (a b : Text) :
    Position.behind (a ++ b) =
      (Position.behind b).moved (1 + a.count '\n') a.lastLineLength a.length := by
  unfold Position.behind Position.moved
  rw [Text.lastLineLength_append]
  -- a line feed in `b` hides the columns of `a`; without one, the columns add up
  by_cases hb : '\n' ∈ b
  · have hpos : 0 < b.count '\n' := List.count_pos_iff.mpr hb
    have hline : ¬ (1 + (b.count '\n' : Int) = 1) := by omega
    simp [hb, List.count_append, hline]
    omega
  · have hzero : b.count '\n' = 0 := List.count_eq_zero.mpr hb
    have hlast : b.lastLineLength = b.length := by
      have := Text.lastLineLength_append [] b
      simpa [hb, Text.lastLineLength] using this
    simp [hb, List.count_append, hzero, hlast]
    omega

/-- A token of a text that starts there. -/
def ValuedToken.moved (line column : Int) (t : ValuedToken) : ValuedToken :=
  { t with token := { t.token with
      line := line + t.token.line - 1
      column := if t.token.line = 1 then column + t.token.column else t.token.column } }

/-- An error of a text that starts there, in the longer text `source`. -/
def LexError.moved (line column offset : Int) (source : Text) (e : LexError) : LexError :=
  { e with position := e.position.moved line column offset, source }

/-- A token of the text behind `before`, as a token of the whole. -/
theorem ValuedToken.startingAt_behind_append (before t : Text) (kind : Kind)
    (value : Option Text) :
    startingAt (Position.behind (before ++ t)) kind value =
      (startingAt (Position.behind t) kind value).moved (1 + before.count '\n')
        before.lastLineLength := by
  rw [Position.behind_append]
  rfl

/-! ## Cursors at a place -/

namespace Cursor

/-- The cursor that has consumed `before` and has `unread` in front of it. -/
def between (before unread : Text) : Cursor where
  source := before ++ unread
  offset := before.length
  line := 1 + before.count '\n'
  column := before.lastLineLength

/-- The cursor that has also read the end. -/
def spent (source : Text) : Cursor := { between source [] with exhausted := true }

@[simp] theorem unread_between (before unread : Text) :
    (between before unread).unread = unread := by
  simp [Cursor.unread, between]

@[simp] theorem position_between (before unread : Text) :
    (between before unread).position = Position.behind before := rfl

@[simp] theorem exhausted_between (before unread : Text) :
    (between before unread).exhausted = false := rfl

@[simp] theorem source_between (before unread : Text) :
    (between before unread).source = before ++ unread := rfl

@[simp] theorem unread_spent (source : Text) : (spent source).unread = [] := by
  simp [Cursor.unread, spent, between]

@[simp] theorem position_spent (source : Text) :
    (spent source).position = Position.behind source := rfl

@[simp] theorem source_spent (source : Text) : (spent source).source = source :=
  List.append_nil source

@[simp] theorem exhausted_spent (source : Text) : (spent source).exhausted = true := rfl

theorem between_nil (source : Text) : ({ source } : Cursor) = between [] source := by
  simp [between, Text.lastLineLength]

theorem past_between (before unread : Text) (c : Char) :
    (between before (c :: unread)).past c = between (before ++ [c]) unread := by
  unfold past between
  rw [Text.lastLineLength_concat]
  by_cases hc : c = '\n'
  · simp [hc, List.count_append]
    omega
  · simp [hc, List.count_append]

theorem read_between (before unread : Text) (c : Char) :
    (between before (c :: unread)).read = (.ok (some c), between (before ++ [c]) unread) := by
  have hchar : (before ++ c :: unread).charAt before.length = .ok c :=
    Text.charAt_of_getElem? (by simp)
  have hend : (between before (c :: unread)).atEnd = false := by
    have hlength : (before ++ c :: unread).length = before.length + (unread.length + 1) := by
      rw [List.length_append, List.length_cons]
    have hless : ¬ ((before ++ c :: unread).length : Int) ≤ before.length := by omega
    exact decide_eq_false hless
  rw [read, exhausted_between, hend]
  simp only [Bool.false_eq_true, if_false, source_between]
  rw [show (between before (c :: unread)).offset = before.length from rfl, hchar]
  show (Except.ok (some c), (between before (c :: unread)).past c) = _
  rw [past_between]

theorem read_between_nil (source : Text) :
    (between source []).read = (.ok none, spent source) := by
  simp [read, atEnd, between, spent]

/-- Reading as many characters as a text has moves the cursor behind that text. -/
theorem skip_between (before piece unread : Text) :
    (between before (piece ++ unread)).skip piece.length =
      (.ok (), between (before ++ piece) unread) := by
  induction piece generalizing before with
  | nil => simp [skip]
  | cons c piece ih =>
      rw [List.cons_append, List.length_cons, skip, read_between]
      show (between (before ++ [c]) (piece ++ unread)).skip piece.length = _
      rw [ih, List.append_assoc]
      rfl

/-- One read more than there are characters sees the end. -/
theorem skip_between_all (before unread : Text) :
    (between before unread).skip (unread.length + 1) = (.ok (), spent (before ++ unread)) := by
  induction unread generalizing before with
  | nil =>
      rw [List.length_nil, skip, read_between_nil, List.append_nil]
      rfl
  | cons c unread ih =>
      rw [List.length_cons, skip, read_between]
      show (between (before ++ [c]) unread).skip (unread.length + 1) = _
      rw [ih, List.append_assoc]
      rfl

end Cursor

end ScriptLex
