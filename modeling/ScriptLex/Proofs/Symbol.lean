import Mathlib.Data.List.Find
import Mathlib.Data.List.Infix
import ScriptLex.CharClass
import ScriptLex.StringLiteral
import ScriptLex.Symbol.Script

/-!
# Longest matches

A table keeps its symbols longest first and takes the first that fits. That this is the
longest one that fits follows from the order alone; the symbols of scripts add that no two
of them share a pattern and that the look-ahead covers every pattern.
-/

namespace ScriptLex

namespace Symbol

/-- The symbol fits and no symbol that fits is longer. -/
structure Longest (symbols : List Symbol) (s : Symbol) (t : Text) : Prop where
  mem : s ∈ symbols
  starts : s.pattern <+: t
  longest : ∀ s' ∈ symbols, s'.pattern <+: t → s'.pattern.length ≤ s.pattern.length

@[simp] theorem startsText_iff {s : Symbol} {t : Text} :
    s.startsText t = true ↔ s.pattern <+: t := List.isPrefixOf_iff_prefix

/-! ## The order of a table -/

theorem mem_insertByLength {s x : Symbol} {symbols : List Symbol} :
    x ∈ insertByLength s symbols ↔ x = s ∨ x ∈ symbols := by
  induction symbols with
  | nil => simp [insertByLength]
  | cons y ys ih =>
      by_cases h : y.pattern.length ≤ s.pattern.length
      · simp [insertByLength, h]
      · simp only [insertByLength, if_neg h, List.mem_cons, ih]
        tauto

theorem mem_longestFirst {x : Symbol} {symbols : List Symbol} :
    x ∈ longestFirst symbols ↔ x ∈ symbols := by
  induction symbols with
  | nil => simp [longestFirst]
  | cons s symbols ih =>
      rw [show longestFirst (s :: symbols) = insertByLength s (longestFirst symbols) from rfl,
        mem_insertByLength, ih, List.mem_cons]

/-- Patterns do not grow along the list. -/
def Descending (symbols : List Symbol) : Prop :=
  symbols.Pairwise fun x y => y.pattern.length ≤ x.pattern.length

theorem insertByLength_descending {s : Symbol} {symbols : List Symbol}
    (h : Descending symbols) : Descending (insertByLength s symbols) := by
  induction symbols with
  | nil => exact List.pairwise_singleton _ _
  | cons y ys ih =>
      obtain ⟨hy, hys⟩ := List.pairwise_cons.mp h
      by_cases hle : y.pattern.length ≤ s.pattern.length
      · rw [insertByLength, if_pos hle]
        refine List.pairwise_cons.mpr ⟨?_, h⟩
        intro z hz
        rcases List.mem_cons.mp hz with rfl | hz
        · exact hle
        · exact Nat.le_trans (hy z hz) hle
      · rw [insertByLength, if_neg hle]
        refine List.pairwise_cons.mpr ⟨?_, ih hys⟩
        intro z hz
        rcases mem_insertByLength.mp hz with rfl | hz
        · omega
        · exact hy z hz

theorem longestFirst_descending (symbols : List Symbol) :
    Descending (longestFirst symbols) := by
  induction symbols with
  | nil => exact List.Pairwise.nil
  | cons s symbols ih => exact insertByLength_descending ih

end Symbol

namespace SymbolTable

open ScriptLex.Symbol

theorem longestMatch?_ofDistinct_eq_none_iff {symbols : List Symbol} {t : Text} :
    (ofDistinct symbols).longestMatch? t = none ↔ ∀ s ∈ symbols, ¬ s.pattern <+: t := by
  unfold longestMatch? firstMatch? ofDistinct
  simp [List.find?_eq_none, mem_longestFirst]

/-- In a descending list the first symbol that fits is a longest one. -/
theorem longest_of_longestMatch? {symbols : List Symbol} {s : Symbol} {t : Text}
    (h : (ofDistinct symbols).longestMatch? t = some s) : Longest symbols s t := by
  have hfind : (longestFirst symbols).find? (·.startsText t) = some s := h
  obtain ⟨hs, as, bs, hsplit, has⟩ := List.find?_eq_some_iff_append.mp hfind
  have hsorted := longestFirst_descending symbols
  rw [Descending, hsplit] at hsorted
  have hbs := (List.pairwise_cons.mp (List.pairwise_append.mp hsorted).2.1).1
  refine ⟨mem_longestFirst.mp (by rw [hsplit]; simp), startsText_iff.mp hs, ?_⟩
  intro s' hs' hpre
  have hmem : s' ∈ as ++ s :: bs := hsplit ▸ mem_longestFirst.mpr hs'
  -- no symbol before the first that fits does fit, and none behind it is longer
  rcases List.mem_append.mp hmem with ha | ha
  · have hno := has s' ha
    rw [startsText_iff.mpr hpre] at hno
    exact absurd hno (by decide)
  · rcases List.mem_cons.mp ha with rfl | hb
    · exact Nat.le_refl _
    · exact hbs s' hb

/-- **Longest match.** Where no two symbols share a pattern, the match is the one symbol
that fits and is longest. -/
theorem longestMatch?_ofDistinct_eq_some_iff {symbols : List Symbol}
    (hdistinct : ∀ a ∈ symbols, ∀ b ∈ symbols, a.pattern = b.pattern → a = b)
    {s : Symbol} {t : Text} :
    (ofDistinct symbols).longestMatch? t = some s ↔ Longest symbols s t := by
  refine ⟨longest_of_longestMatch?, fun h => ?_⟩
  cases hmatch : (ofDistinct symbols).longestMatch? t with
  | none => exact absurd h.starts (longestMatch?_ofDistinct_eq_none_iff.mp hmatch s h.mem)
  | some s' =>
      have h' := longest_of_longestMatch? hmatch
      have hlen : s'.pattern.length = s.pattern.length :=
        Nat.le_antisymm (h.longest s' h'.mem h'.starts) (h'.longest s h.mem h.starts)
      have hpre := List.prefix_of_prefix_length_le h'.starts h.starts (Nat.le_of_eq hlen)
      rw [hdistinct s' h'.mem s h.mem (hpre.eq_of_length hlen)]

/-- A window that covers every pattern shows as much as the whole text. -/
theorem longestMatch?_take {symbols : List Symbol} {n : Nat}
    (hn : ∀ s ∈ symbols, s.pattern.length ≤ n) (t : Text) :
    (ofDistinct symbols).longestMatch? (t.take n) = (ofDistinct symbols).longestMatch? t := by
  apply List.find?_congr
  intro s hs
  have hlen := hn s (mem_longestFirst.mp hs)
  rw [Bool.eq_iff_iff, startsText_iff, startsText_iff, List.prefix_take_iff,
    and_iff_left hlen]

end SymbolTable

/-! ## The symbols of scripts -/

namespace Symbol

theorem script_distinct :
    ∀ a ∈ Symbol.script, ∀ b ∈ Symbol.script, a.pattern = b.pattern → a = b := by
  decide +kernel

theorem script_length_le_lookahead :
    ∀ s ∈ Symbol.script, s.pattern.length ≤ SymbolTable.lookahead := by
  decide +kernel

/-- The first character of a symbol starts no other form of lexeme. -/
theorem script_head {s : Symbol} (hs : s ∈ Symbol.script) :
    ∃ c p, s.pattern = c :: p ∧ isBlank c = false ∧ StringLiteral.isDelimiter c = false ∧
      c ≠ '$' ∧ isDigit c = false ∧ isWordStart c = false := by
  have hall : ∀ s ∈ Symbol.script, s.pattern.head?.any (fun c =>
      !isBlank c && !StringLiteral.isDelimiter c && c ≠ '$' && !isDigit c &&
        !isWordStart c) = true := by
    decide +kernel
  have h := hall s hs
  cases hp : s.pattern with
  | nil => simp [hp] at h
  | cons c p =>
      simp only [hp, List.head?_cons, Option.any_some, Bool.and_eq_true, Bool.not_eq_true',
        decide_eq_true_eq] at h
      obtain ⟨⟨⟨⟨hblank, hdelim⟩, hdollar⟩, hdigit⟩, hword⟩ := h
      exact ⟨c, p, rfl, hblank, hdelim, hdollar, hdigit, hword⟩

theorem script_lineFeed : (⟨['\n'], .lineFeed⟩ : Symbol) ∈ Symbol.script := by
  decide +kernel

/-- A line feed stands in no symbol but its own. -/
theorem script_newline :
    ∀ s ∈ Symbol.script, '\n' ∈ s.pattern → s.pattern = ['\n'] := by
  decide +kernel

/-- Every symbol but `!=` goes on from a symbol of one character. -/
theorem script_single :
    ∀ s ∈ Symbol.script, s.pattern = ['!', '='] ∨
      ∃ s' ∈ Symbol.script, s'.pattern = s.pattern.take 1 := by
  decide +kernel

theorem script_notEqual : (⟨['!', '='], .notEqual⟩ : Symbol) ∈ Symbol.script := by
  decide +kernel

/-- Which characters start no symbol at all. -/
theorem script_none_iff (c : Char) (t : Text) :
    (∀ s ∈ Symbol.script, ¬ s.pattern <+: c :: t) ↔
      (∀ s ∈ Symbol.script, s.pattern ≠ [c]) ∧ (c :: t).take 2 ≠ ['!', '='] := by
  constructor
  · intro h
    refine ⟨?_, ?_⟩
    · intro s hs hc
      exact h s hs (by rw [hc]; exact List.prefix_append [c] t)
    · intro htake
      exact h _ script_notEqual (by rw [← htake]; exact List.take_prefix 2 _)
  · rintro ⟨hsingle, hne⟩ s hs hpre
    obtain ⟨d, p, hp, -⟩ := script_head hs
    rcases script_single s hs with hs' | ⟨s', hmem, hs'⟩
    · rw [hs'] at hpre
      exact hne (by rw [List.prefix_iff_eq_take.mp hpre]; rfl)
    · -- any other symbol starts with one of a single character, which is `c`
      rw [hp] at hpre hs'
      obtain ⟨rfl, -⟩ := List.cons_prefix_cons.mp hpre
      exact hsingle s' hmem (by rw [hs']; rfl)

end Symbol

/-- The window of the look-ahead shows the longest script symbol. -/
theorem SymbolTable.script_match_eq_some_iff {s : Symbol} {t : Text} :
    script.longestMatch? (t.take lookahead) = some s ↔ Symbol.Longest Symbol.script s t := by
  rw [script, longestMatch?_take Symbol.script_length_le_lookahead,
    longestMatch?_ofDistinct_eq_some_iff Symbol.script_distinct]

theorem SymbolTable.script_match_eq_none_iff {t : Text} :
    script.longestMatch? (t.take lookahead) = none ↔
      ∀ s ∈ Symbol.script, ¬ s.pattern <+: t := by
  rw [script, longestMatch?_take Symbol.script_length_le_lookahead,
    longestMatch?_ofDistinct_eq_none_iff]

end ScriptLex
