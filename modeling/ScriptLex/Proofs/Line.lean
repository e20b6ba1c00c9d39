import Mathlib.Data.List.Basic
import ScriptLex.Proofs.Place
import ScriptLex.Proofs.Text

/-!
# Lines of a source

A place names a line and a column of that line. The line is found by dividing the source at
its line feeds, and the column counts from where the line starts. So line and column lead back
to the offset of a place, and they grow with it, lines before columns.
-/

namespace ScriptLex

namespace Text

/-! ## The last line -/

/-- The characters behind the last line feed. -/
def lastLine (t : Text) : Text := (t.reverse.takeWhile (· ≠ '\n')).reverse

/-- The index just behind the last line feed, and that of the first character if there is no
line feed. -/
def lastLineStart (t : Text) : Nat := t.length - t.reverse.idxOf '\n'

theorem length_lastLine (t : Text) : t.lastLine.length = t.lastLineLength :=
  List.length_reverse

theorem all_ne_lineFeed {t : Text} (h : '\n' ∉ t) : ∀ c ∈ t, decide (c ≠ '\n') = true := by
  intro c hc
  have hne : c ≠ '\n' := by
    rintro rfl
    exact h hc
  exact decide_eq_true hne

theorem lastLine_of_notMem {t : Text} (h : '\n' ∉ t) : t.lastLine = t := by
  have hreverse : '\n' ∉ t.reverse := by simpa using h
  rw [lastLine, List.takeWhile_eq_self_iff.mpr (all_ne_lineFeed hreverse), List.reverse_reverse]

theorem lastLine_append {b : Text} (a : Text) (h : '\n' ∉ b) : (a ++ '\n' :: b).lastLine = b := by
  have hreverse : (a ++ '\n' :: b).reverse = b.reverse ++ '\n' :: a.reverse := by simp
  have hrun : Run (· ≠ '\n') b.reverse ('\n' :: a.reverse) :=
    ⟨all_ne_lineFeed (by simpa using h), by simp⟩
  rw [lastLine, hreverse, hrun.takeWhile_eq, List.reverse_reverse]

/-- A text is its last line alone, or has a line feed in front of it. -/
theorem lastLine_cases (t : Text) :
    '\n' ∉ t ∨ ∃ a b, t = a ++ '\n' :: b ∧ '\n' ∉ b := by
  by_cases h : '\n' ∈ t
  · obtain ⟨r, s, hreverse, hr⟩ := List.eq_append_cons_of_mem (List.mem_reverse.mpr h)
    refine .inr ⟨s.reverse, r.reverse, ?_, by simpa using hr⟩
    rw [← List.reverse_reverse t, hreverse]
    simp
  · exact .inl h

theorem lastLineStart_add_lastLineLength (t : Text) :
    t.lastLineStart + t.lastLineLength = t.length := by
  have hlength : t.lastLineLength = t.reverse.idxOf '\n' := by
    rw [lastLineLength]
    induction t.reverse with
    | nil => rfl
    | cons c r ih =>
        by_cases hc : c = '\n'
        · simp [hc]
        · rw [List.idxOf_cons_ne r hc, List.takeWhile_cons_of_pos (by simpa using hc),
            List.length_cons, ih]
  have hle := lastLineLength_le t
  rw [lastLineStart, ← hlength]
  omega

/-! ## Dividing at line feeds -/

theorem splitFirst_fst (t : Text) : (splitFirst '\n' t).1 = t.takeWhile (· ≠ '\n') := by
  induction t with
  | nil => rfl
  | cons c t ih =>
      by_cases hc : c = '\n'
      · simp [splitFirst, hc]
      · simp [splitFirst, hc, ih]

/-- The lines before the last line feed are as many as there are line feeds. -/
theorem count_append_lineFeed (a : Text) {b : Text} (h : '\n' ∉ b) :
    (a ++ '\n' :: b).count '\n' = a.lines.length := by
  rw [List.count_append, List.count_cons_self, List.count_eq_zero.mpr h, length_lines]

/-- **Where a place is.** The line that is as far down as there are line feeds before the place
has the last line before it, and all that follows on that line. -/
theorem getElem?_lines (before after : Text) :
    (before ++ after).lines[before.count '\n']? =
      some (before.lastLine ++ after.takeWhile (· ≠ '\n')) := by
  have hfirst : ∀ l : Text, '\n' ∉ l →
      (l ++ after).lines[0]? = some (l ++ after.takeWhile (· ≠ '\n')) := by
    intro l hl
    rw [lines, pieces, List.getElem?_cons_zero, splitFirst_fst,
      List.takeWhile_append_of_pos (all_ne_lineFeed hl)]
  rcases lastLine_cases before with hnone | ⟨a, b, rfl, hb⟩
  · rw [lastLine_of_notMem hnone, List.count_eq_zero.mpr hnone, hfirst before hnone]
  · rw [lastLine_append a hb, count_append_lineFeed a hb, List.append_assoc, List.cons_append,
      lines_append, List.getElem?_append_right (Nat.le_refl _), Nat.sub_self, hfirst b hb]

/-- All lines, with a line feed behind each of them, are the text with a line feed behind it. -/
theorem flatMap_lines (t : Text) : (t.lines.flatMap fun l => l ++ ['\n']) = t ++ ['\n'] := by
  induction t with
  | nil => rfl
  | cons c t ih =>
      simp only [lines, pieces, splitFirst, List.flatMap_cons] at ih ⊢
      by_cases hc : c = '\n'
      · simp only [hc, if_true, List.flatMap_cons, ih]
        rfl
      · simp only [hc, if_false, List.cons_append, ih]

/-- The offset of a line and a column, counted along the lines that the text is divided into:
the lines before with a line feed each, and the characters before in the line itself. -/
def offsetAt (t : Text) (line column : Int) : Int :=
  ((t.lines.take (line - 1).toNat).flatMap fun l => l ++ ['\n']).length + (column - 1)

/-- **Line and column lead back to the offset.** -/
theorem offsetAt_behind (before after : Text) :
    (before ++ after).offsetAt (Position.behind before).line (Position.behind before).column =
      before.length := by
  have hline : ((Position.behind before).line - 1).toNat = before.count '\n' := by
    show (1 + (before.count '\n' : Int) - 1).toNat = _
    omega
  have hcolumn : (Position.behind before).column - 1 = before.lastLineLength := by
    show (before.lastLineLength : Int) + 1 - 1 = _
    omega
  rw [offsetAt, hline, hcolumn, ← length_lastLine]
  rcases lastLine_cases before with hnone | ⟨a, b, rfl, hb⟩
  · rw [lastLine_of_notMem hnone, List.count_eq_zero.mpr hnone]
    simp
  · rw [lastLine_append a hb, count_append_lineFeed a hb, List.append_assoc, List.cons_append,
      lines_append, List.take_left, flatMap_lines]
    simp only [List.length_append, List.length_cons, List.length_nil]
    omega

end Text

/-! ## Places in order -/

namespace Position

def lineColumn (p : Position) : Int × Int := (p.line, p.column)

/-- Whatever is read, one stands further down, or further to the right on the same line. -/
theorem lineColumn_behind_append_lt (before : Text) {x : Text} (hx : x ≠ []) :
    Prod.Lex (· < ·) (· < ·) (behind before).lineColumn (behind (before ++ x)).lineColumn := by
  have hline : (behind (before ++ x)).line = (behind before).line + x.count '\n' := by
    show 1 + ((before ++ x).count '\n' : Int) = 1 + before.count '\n' + x.count '\n'
    rw [List.count_append]
    omega
  rw [lineColumn, lineColumn, Prod.lex_def]
  by_cases hfeed : '\n' ∈ x
  · have hpos : 0 < x.count '\n' := List.count_pos_iff.mpr hfeed
    left
    simp only [hline]
    omega
  · have hpos : 0 < x.length := List.length_pos_iff.mpr hx
    have hcolumn : (behind (before ++ x)).column = (behind before).column + x.length := by
      show ((before ++ x).lastLineLength : Int) + 1 = before.lastLineLength + 1 + x.length
      rw [Text.lastLineLength_append, if_neg hfeed]
      omega
    right
    simp only [hline, hcolumn, List.count_eq_zero.mpr hfeed]
    omega

/-- So places of one source are in the order of their offsets. -/
theorem lineColumn_behind_take_lt {source : Text} {o o' : Nat} (h : o < o')
    (ho' : o' ≤ source.length) :
    Prod.Lex (· < ·) (· < ·) (behind (source.take o)).lineColumn
      (behind (source.take o')).lineColumn := by
  have htake : source.take o' = source.take o ++ (source.drop o).take (o' - o) := by
    rw [← List.take_add, Nat.add_sub_cancel' (Nat.le_of_lt h)]
  rw [htake]
  apply lineColumn_behind_append_lt
  apply List.ne_nil_of_length_pos
  rw [List.length_take, List.length_drop]
  omega

end Position

end ScriptLex
