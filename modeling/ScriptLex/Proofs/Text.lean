import Mathlib.Data.List.TakeWhile
import ScriptLex.Text.Index

/-!
# Runs, prefixes and lines of a text
-/

namespace ScriptLex.Text

/-! ## Longest runs

Words, numbers and line comments are runs of one class of characters that nothing behind
them makes longer. -/

/-- All of `run` belongs to the class, and what follows does not go on with it. -/
structure Run (p : Char → Bool) (run after : Text) : Prop where
  all : ∀ c ∈ run, p c = true
  stop : ∀ c ∈ after.head?, p c = false

variable {p : Char → Bool} {run after : Text}

theorem run_takeWhile (p : Char → Bool) (t : Text) :
    Run p (t.takeWhile p) (t.dropWhile p) where
  all c hc := List.mem_takeWhile_imp hc
  stop c hc := by
    have hhead := List.head?_dropWhile_not p t
    rw [show (t.dropWhile p).head? = some c from hc] at hhead
    simpa using hhead

theorem Run.tail {c : Char} (h : Run p (c :: run) after) : Run p run after :=
  ⟨fun d hd => h.all d (List.mem_cons_of_mem c hd), h.stop⟩

theorem Run.dropWhile_eq (h : Run p run after) : (run ++ after).dropWhile p = after := by
  rw [List.dropWhile_append_of_pos h.all]
  cases after with
  | nil => rfl
  | cons c after => simp [h.stop c rfl]

theorem Run.takeWhile_eq (h : Run p run after) : (run ++ after).takeWhile p = run := by
  have hsplit := List.takeWhile_append_dropWhile (p := p) (l := run ++ after)
  rw [h.dropWhile_eq] at hsplit
  exact List.append_cancel_right hsplit

/-! ## First lines

Nothing that looks ahead looks behind a line feed. So a text may be exchanged for another
if the first line of the new one is how the old one starts. -/

/-- The first line of `t` is how `u` starts. -/
def FirstLineIn (t u : Text) : Prop := ∀ q, '\n' ∉ q → q <+: t → q <+: u

/-- A text may be continued behind a line feed. -/
theorem append_lineFeed_firstLineIn (a b : Text) : FirstLineIn (a ++ '\n' :: b) a := by
  intro q hfeed hq
  rcases List.prefix_or_prefix_of_prefix hq (List.prefix_append a ('\n' :: b)) with
    hshort | ⟨r, rfl⟩
  · exact hshort
  · rw [List.prefix_append_right_inj] at hq
    cases r with
    | nil => simp
    | cons x r =>
        obtain ⟨rfl, -⟩ := List.cons_prefix_cons.mp hq
        exact absurd (by simp) hfeed

theorem FirstLineIn.append {t u : Text} (h : FirstLineIn t u) (s : Text) :
    FirstLineIn (s ++ t) (s ++ u) := by
  intro q hfeed hq
  rcases List.prefix_or_prefix_of_prefix hq (List.prefix_append s t) with hshort | ⟨r, rfl⟩
  · exact hshort.trans (List.prefix_append s u)
  · rw [List.prefix_append_right_inj] at hq ⊢
    exact h r (fun hr => hfeed (List.mem_append_right s hr)) hq

theorem FirstLineIn.stop {t u : Text} (h : FirstLineIn t u) (hp : p '\n' = false)
    (hstop : ∀ c ∈ u.head?, p c = false) : ∀ c ∈ t.head?, p c = false := by
  intro c hc
  by_cases hfeed : c = '\n'
  · rw [hfeed, hp]
  · have hstarts : [c] <+: u :=
      h [c] (by simpa using Ne.symm hfeed) (List.singleton_prefix_iff_head?_eq_some.mpr hc)
    exact hstop c (List.singleton_prefix_iff_head?_eq_some.mp hstarts)

/-- A run that no line feed continues stays one. -/
theorem Run.of_firstLineIn {t u : Text} (h : Run p run u) (hline : FirstLineIn t u)
    (hp : p '\n' = false) : Run p run t :=
  ⟨h.all, hline.stop hp h.stop⟩

/-! ## Characters and slices -/

theorem charAt_of_getElem? {t : Text} {n : Nat} {c : Char} (h : t[n]? = some c) :
    t.charAt n = .ok c := by
  have hleast : ¬ (n : Int) < leastIndex := by
    unfold leastIndex
    omega
  have hnonneg : ¬ (n : Int) < 0 := by omega
  simp [charAt, hleast, hnonneg, h]

theorem bound_natCast (t : Text) (n : Nat) : t.bound n = min n t.length := by
  have hnonneg : ¬ (n : Int) < 0 := by omega
  rw [bound, if_neg hnonneg]
  omega

/-- Between indices that do not count from the end, a slice is what its name says. -/
theorem slice_natCast (t : Text) (m n : Nat) : t.slice m n = (t.take n).drop m := by
  rw [slice, bound_natCast, bound_natCast, List.take_eq_take_min (i := n)]
  by_cases hm : m ≤ t.length
  · rw [Nat.min_eq_left hm]
  · have hlength : (t.take (min n t.length)).length ≤ t.length := by
      rw [List.length_take]
      omega
    rw [List.drop_eq_nil_of_le (by omega), List.drop_eq_nil_of_le (by omega)]

theorem slice_append (before piece after : Text) :
    (before ++ (piece ++ after)).slice before.length (before ++ piece).length = piece := by
  rw [slice_natCast, ← List.append_assoc, List.take_left, List.drop_left]

/-! ## Lines -/

theorem splitFirst_append (a b : Text) :
    splitFirst '\n' (a ++ '\n' :: b) =
      ((splitFirst '\n' a).1, (splitFirst '\n' a).2 ++ lines b) := by
  induction a with
  | nil => simp [splitFirst, lines, pieces]
  | cons c a ih =>
      rw [List.cons_append, splitFirst, ih, splitFirst]
      by_cases hc : c = '\n'
      · simp [hc]
      · simp [hc]

/-- A line feed divides the lines before it from the lines behind it. -/
theorem lines_append (a b : Text) : lines (a ++ '\n' :: b) = lines a ++ lines b := by
  rw [lines, pieces, splitFirst_append]
  rfl

theorem lines_of_notMem {t : Text} (h : '\n' ∉ t) : lines t = [t] := by
  induction t with
  | nil => rfl
  | cons c t ih =>
      rw [List.mem_cons, not_or] at h
      have hsplit := ih h.2
      simp only [lines, pieces, splitFirst, if_neg (Ne.symm h.1)] at hsplit ⊢
      injection hsplit with hfst hsnd
      rw [hfst, hsnd]

theorem length_lines (t : Text) : t.lines.length = t.count '\n' + 1 := by
  induction t with
  | nil => rfl
  | cons c t ih =>
      simp only [lines, pieces, splitFirst, List.length_cons] at ih ⊢
      by_cases hc : c = '\n'
      · simp [hc, ih]
      · simpa [hc] using ih

end ScriptLex.Text
