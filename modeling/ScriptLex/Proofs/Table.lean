import Mathlib.Data.List.Induction
import Mathlib.Data.List.Nodup
import Mathlib.Data.List.Perm.Basic
import ScriptLex.Proofs.Cursor
import ScriptLex.Proofs.Symbol
import ScriptLex.Proofs.Text

/-!
# Tables of symbols

A list of symbols makes a table unless one of them is empty or repeats the pattern of an
earlier one, and the first such symbol is the one that is reported. The order of the list
decides which of two symbols of one length stands first in the table. It decides nothing about
what the table matches, since no two patterns of one length start the same text.
-/

namespace ScriptLex

namespace Symbol

/-! ## Lists that make a table -/

/-- No pattern is empty, and no two symbols have the same one. -/
structure Distinct (symbols : List Symbol) : Prop where
  nonempty : ∀ s ∈ symbols, s.pattern ≠ []
  nodup : (symbols.map Symbol.pattern).Nodup

variable {symbols before after : List Symbol} {s : Symbol}

theorem distinct_nil : Distinct [] := ⟨by simp, by simp⟩

theorem Distinct.left (h : Distinct (before ++ after)) : Distinct before where
  nonempty s hs := h.nonempty s (List.mem_append_left after hs)
  nodup := by
    have hnodup := h.nodup
    rw [List.map_append] at hnodup
    exact hnodup.of_append_left

theorem Distinct.perm {symbols' : List Symbol} (h : Distinct symbols)
    (hperm : symbols'.Perm symbols) : Distinct symbols' where
  nonempty s hs := h.nonempty s (hperm.mem_iff.mp hs)
  nodup := (hperm.map Symbol.pattern).nodup_iff.mpr h.nodup

/-- A pattern determines its symbol. -/
theorem Distinct.eq_of_pattern_eq (h : Distinct symbols) :
    ∀ a ∈ symbols, ∀ b ∈ symbols, a.pattern = b.pattern → a = b :=
  fun _ ha _ hb heq => List.inj_on_of_nodup_map h.nodup ha hb heq

theorem Distinct.pattern_ne (h : Distinct (before ++ s :: after)) {x : Symbol}
    (hx : x ∈ before) : x.pattern ≠ s.pattern := by
  have hnodup := h.nodup
  rw [List.map_append, List.map_cons, List.nodup_append] at hnodup
  exact hnodup.2.2 x.pattern (List.mem_map_of_mem hx) s.pattern List.mem_cons_self

theorem Distinct.not_empty_or_repeats (h : Distinct (before ++ s :: after)) :
    ¬ (s.pattern = [] ∨ s.pattern ∈ before.map Symbol.pattern) := by
  rintro (hempty | hrepeats)
  · exact h.nonempty s (by simp) hempty
  · obtain ⟨x, hx, heq⟩ := List.mem_map.mp hrepeats
    exact h.pattern_ne hx heq

theorem distinct_concat_iff :
    Distinct (before ++ [s]) ↔
      Distinct before ∧ s.pattern ≠ [] ∧ ∀ x ∈ before, x.pattern ≠ s.pattern := by
  constructor
  · intro h
    exact ⟨h.left, h.nonempty s (by simp), fun x hx => h.pattern_ne hx⟩
  · rintro ⟨h, hne, hfresh⟩
    refine ⟨?_, ?_⟩
    · intro x hx
      rcases List.mem_append.mp hx with hx | hx
      · exact h.nonempty x hx
      · rw [List.mem_singleton.mp hx]
        exact hne
    · rw [List.map_append, List.nodup_append]
      refine ⟨h.nodup, List.nodup_singleton _, ?_⟩
      intro p hp q hq
      obtain ⟨x, hx, rfl⟩ := List.mem_map.mp hp
      rw [List.mem_singleton.mp hq]
      exact hfresh x hx

end Symbol

namespace SymbolTable

open ScriptLex.Symbol

variable {symbols before after : List Symbol} {s : Symbol} {refusal : Refusal}

/-- The symbol cannot follow those before it, for the reason that the refusal gives. That of a
repeated pattern names the kind of the earlier symbol, and then the symbol's own. -/
def Refuses (before : List Symbol) (s : Symbol) (refusal : Refusal) : Prop :=
  match refusal with
  | .emptyPattern => s.pattern = [] ∧ refusal.message = "empty symbol pattern"
  | .duplicate pattern first second =>
      s = ⟨pattern, second⟩ ∧ pattern ≠ [] ∧ ⟨pattern, first⟩ ∈ before ∧
        refusal.message = "duplicate symbol pattern " ++ Quoted.quote pattern ++
          " (" ++ first.name ++ " and " ++ second.name ++ ")"

/-- A symbol that cannot be added is refused. -/
theorem exists_refuses (hbefore : Distinct before) (h : ¬ Distinct (before ++ [s])) :
    ∃ refusal, Refuses before s refusal := by
  by_cases hempty : s.pattern = []
  · exact ⟨.emptyPattern, hempty, rfl⟩
  · obtain ⟨x, hx, heq⟩ : ∃ x ∈ before, x.pattern = s.pattern := by
      by_contra hfresh
      apply h
      rw [distinct_concat_iff]
      exact ⟨hbefore, hempty, fun x hx heq => hfresh ⟨x, hx, heq⟩⟩
    refine ⟨.duplicate s.pattern x.kind s.kind, rfl, hempty, ?_, rfl⟩
    rw [← heq]
    exact hx

theorem Refuses.empty_or_repeats (h : Refuses before s refusal) :
    s.pattern = [] ∨ s.pattern ∈ before.map Symbol.pattern := by
  cases refusal with
  | emptyPattern => exact .inl h.1
  | duplicate pattern first second =>
      obtain ⟨rfl, -, hmem, -⟩ := h
      exact .inr (List.mem_map.mpr ⟨_, hmem, rfl⟩)

/-- In a list that makes no table there is a first symbol that is refused. -/
theorem exists_first_refused (h : ¬ Distinct symbols) :
    ∃ before s after refusal, symbols = before ++ s :: after ∧ Distinct before ∧
      Refuses before s refusal := by
  induction symbols using List.reverseRecOn with
  | nil => exact absurd distinct_nil h
  | append_singleton init x ih =>
      by_cases hinit : Distinct init
      · obtain ⟨refusal, hrefuses⟩ := exists_refuses hinit h
        exact ⟨init, x, [], refusal, rfl, hinit, hrefuses⟩
      · obtain ⟨before, s, after, refusal, rfl, hbefore, hrefuses⟩ := ih hinit
        exact ⟨before, s, after ++ [x], refusal, by simp, hbefore, hrefuses⟩

/-! ## The check of a list -/

theorem find?_pattern_eq_none (h : Distinct (before ++ [s])) :
    before.find? (·.pattern = s.pattern) = none := by
  rw [List.find?_eq_none]
  intro x hx
  simpa using h.pattern_ne hx

/-- Symbols that can be added are passed over. -/
theorem refusalAfter?_append (before rest : List Symbol) (h : Distinct (before ++ after)) :
    refusalAfter? before (after ++ rest) = refusalAfter? (before ++ after) rest := by
  induction after generalizing before with
  | nil => simp
  | cons s after ih =>
      rw [List.append_cons] at h ⊢
      have hs : Distinct (before ++ [s]) := h.left
      have hne : s.pattern ≠ [] := hs.nonempty s (by simp)
      rw [List.cons_append, refusalAfter?, if_neg hne, find?_pattern_eq_none hs]
      exact ih _ h

theorem refusal?_of_distinct (h : Distinct symbols) : refusal? symbols = none := by
  have hpassed := refusalAfter?_append [] [] h
  rwa [List.append_nil] at hpassed

/-- The first symbol that cannot be added is reported, whatever follows it. -/
theorem Refuses.refusal?_eq (hbefore : Distinct before) (h : Refuses before s refusal)
    (after : List Symbol) : refusal? (before ++ s :: after) = some refusal := by
  have hpassed := refusalAfter?_append [] (s :: after) hbefore
  rw [refusal?, hpassed, List.nil_append, refusalAfter?]
  cases refusal with
  | emptyPattern => rw [if_pos h.1]
  | duplicate pattern first second =>
      obtain ⟨rfl, hne, hmem, -⟩ := h
      -- the symbol that is found has the pattern, and only one symbol has it
      have hfind : before.find? (·.pattern = pattern) = some ⟨pattern, first⟩ := by
        cases hfound : before.find? (·.pattern = pattern) with
        | none =>
            rw [List.find?_eq_none] at hfound
            exact absurd (decide_eq_true rfl) (hfound _ hmem)
        | some x =>
            have hx : x.pattern = pattern := by simpa using List.find?_some hfound
            rw [hbefore.eq_of_pattern_eq x (List.mem_of_find?_eq_some hfound) _ hmem hx]
      rw [if_neg hne, hfind]

theorem ofSymbols_of_distinct (h : Distinct symbols) :
    ofSymbols symbols = .ok (ofDistinct symbols) := by
  rw [ofSymbols, refusal?_of_distinct h]

/-- **Refusal.** A list is refused for its first symbol that cannot follow those before it. -/
theorem ofSymbols_eq_error_iff :
    ofSymbols symbols = .error refusal ↔
      ∃ before s after, symbols = before ++ s :: after ∧ Distinct before ∧
        Refuses before s refusal := by
  constructor
  · intro h
    have hnot : ¬ Distinct symbols := by
      intro hdistinct
      rw [ofSymbols_of_distinct hdistinct] at h
      cases h
    obtain ⟨before, s, after, refusal', rfl, hbefore, hrefuses⟩ := exists_first_refused hnot
    rw [ofSymbols, hrefuses.refusal?_eq hbefore after] at h
    obtain rfl := Except.error.inj h
    exact ⟨before, s, after, rfl, hbefore, hrefuses⟩
  · rintro ⟨before, s, after, rfl, hbefore, hrefuses⟩
    rw [ofSymbols, hrefuses.refusal?_eq hbefore after]

theorem ofSymbols_eq_ok_iff {table : SymbolTable} :
    ofSymbols symbols = .ok table ↔ Distinct symbols ∧ table = ofDistinct symbols := by
  constructor
  · intro h
    by_cases hdistinct : Distinct symbols
    · rw [ofSymbols_of_distinct hdistinct] at h
      exact ⟨hdistinct, (Except.ok.inj h).symm⟩
    · obtain ⟨before, s, after, refusal, rfl, hbefore, hrefuses⟩ := exists_first_refused hdistinct
      rw [ofSymbols, hrefuses.refusal?_eq hbefore after] at h
      cases h
  · rintro ⟨hdistinct, rfl⟩
    exact ofSymbols_of_distinct hdistinct

end SymbolTable

/-! ## The order of a table -/

namespace Symbol

theorem insertByLength_perm (s : Symbol) (symbols : List Symbol) :
    (insertByLength s symbols).Perm (s :: symbols) := by
  induction symbols with
  | nil => exact List.Perm.refl _
  | cons x xs ih =>
      by_cases hle : x.pattern.length ≤ s.pattern.length
      · rw [insertByLength, if_pos hle]
      · rw [insertByLength, if_neg hle]
        exact (ih.cons x).trans (List.Perm.swap s x xs)

theorem longestFirst_perm (symbols : List Symbol) : (longestFirst symbols).Perm symbols := by
  induction symbols with
  | nil => exact List.Perm.refl _
  | cons s symbols ih => exact (insertByLength_perm s _).trans (ih.cons s)

/-- A symbol is put in front of all others of its length: those it is put behind are longer. -/
theorem filter_insertByLength (s : Symbol) (symbols : List Symbol) (n : Nat) :
    (insertByLength s symbols).filter (·.pattern.length = n) =
      (s :: symbols).filter (·.pattern.length = n) := by
  induction symbols with
  | nil => rfl
  | cons x xs ih =>
      by_cases hle : x.pattern.length ≤ s.pattern.length
      · rw [insertByLength, if_pos hle]
      · rw [insertByLength, if_neg hle, List.filter_cons, ih]
        by_cases hs : s.pattern.length = n
        · have hx : x.pattern.length ≠ n := by omega
          simp [hs, hx]
        · simp [hs, List.filter_cons]

theorem filter_longestFirst (symbols : List Symbol) (n : Nat) :
    (longestFirst symbols).filter (·.pattern.length = n) =
      symbols.filter (·.pattern.length = n) := by
  induction symbols with
  | nil => rfl
  | cons s symbols ih =>
      rw [show longestFirst (s :: symbols) = insertByLength s (longestFirst symbols) from rfl,
        filter_insertByLength, List.filter_cons, List.filter_cons, ih]

end Symbol

namespace SymbolTable

open ScriptLex.Symbol

variable {symbols : List Symbol} {table : SymbolTable}

/-- The longest pattern of a descending list is its first. -/
theorem length_le_maxLength (symbols : List Symbol) :
    ∀ s ∈ symbols, s.pattern.length ≤ (ofDistinct symbols).maxLength := by
  intro s hs
  have hmem : s ∈ longestFirst symbols := mem_longestFirst.mpr hs
  have hsorted := longestFirst_descending symbols
  unfold maxLength ofDistinct
  cases hlist : longestFirst symbols with
  | nil =>
      rw [hlist] at hmem
      cases hmem
  | cons x xs =>
      rw [hlist] at hmem hsorted
      rcases List.mem_cons.mp hmem with rfl | hxs
      · exact Nat.le_refl _
      · exact (List.pairwise_cons.mp hsorted).1 s hxs

theorem maxLength_eq_max? (symbols : List Symbol) :
    (ofDistinct symbols).maxLength = ((symbols.map (·.pattern.length)).max?).getD 0 := by
  cases hlist : longestFirst symbols with
  | nil =>
      have hnil : symbols = [] := (hlist ▸ longestFirst_perm symbols).nil_eq.symm
      subst hnil
      rfl
  | cons x xs =>
      have hx : x ∈ symbols := mem_longestFirst.mp (by rw [hlist]; exact List.mem_cons_self)
      have hmax : (ofDistinct symbols).maxLength = x.pattern.length := by
        rw [maxLength, ofDistinct, hlist]
      have hgreatest : (symbols.map (·.pattern.length)).max? = some x.pattern.length := by
        rw [List.max?_eq_some_iff]
        refine ⟨List.mem_map_of_mem hx, ?_⟩
        intro n hn
        obtain ⟨s, hs, rfl⟩ := List.mem_map.mp hn
        rw [← hmax]
        exact length_le_maxLength symbols s hs
      rw [hmax, hgreatest]
      rfl

/-! ## What a table matches -/

/-- The table has the symbols of the list, longest first and those of one length in their order,
and matches the longest one that fits. A list in another order gives a table that matches the
same, and a window as long as the longest pattern shows all that matters. -/
structure Tabulates (symbols : List Symbol) (table : SymbolTable) : Prop where
  perm : table.symbols.Perm symbols
  descending : Descending table.symbols
  stable : ∀ n, table.symbols.filter (·.pattern.length = n) =
    symbols.filter (·.pattern.length = n)
  maxLength : table.maxLength = ((symbols.map (·.pattern.length)).max?).getD 0
  some_iff : ∀ t s, table.longestMatch? t = some s ↔ Longest symbols s t
  none_iff : ∀ t, table.longestMatch? t = none ↔ ∀ s ∈ symbols, ¬ s.pattern <+: t
  reordered : ∀ symbols', symbols'.Perm symbols → ∃ table', ofSymbols symbols' = .ok table' ∧
    ∀ t, table'.longestMatch? t = table.longestMatch? t
  window : ∀ n, table.maxLength ≤ n → ∀ t,
    table.longestMatch? (t.take n) = table.longestMatch? t

theorem longestMatch?_perm {symbols' : List Symbol} (h : Distinct symbols)
    (hperm : symbols'.Perm symbols) (t : Text) :
    (ofDistinct symbols').longestMatch? t = (ofDistinct symbols).longestMatch? t := by
  apply Option.ext
  intro s
  rw [longestMatch?_ofDistinct_eq_some_iff (h.perm hperm).eq_of_pattern_eq,
    longestMatch?_ofDistinct_eq_some_iff h.eq_of_pattern_eq]
  -- whether a symbol is the longest that fits does not depend on the order
  constructor
  · rintro ⟨hmem, hstarts, hlongest⟩
    exact ⟨hperm.mem_iff.mp hmem, hstarts, fun x hx => hlongest x (hperm.mem_iff.mpr hx)⟩
  · rintro ⟨hmem, hstarts, hlongest⟩
    exact ⟨hperm.mem_iff.mpr hmem, hstarts, fun x hx => hlongest x (hperm.mem_iff.mp hx)⟩

theorem tabulates_ofDistinct (h : Distinct symbols) : Tabulates symbols (ofDistinct symbols) where
  perm := longestFirst_perm symbols
  descending := longestFirst_descending symbols
  stable := filter_longestFirst symbols
  maxLength := maxLength_eq_max? symbols
  some_iff _ _ := longestMatch?_ofDistinct_eq_some_iff h.eq_of_pattern_eq
  none_iff _ := longestMatch?_ofDistinct_eq_none_iff
  reordered symbols' hperm :=
    ⟨ofDistinct symbols', ofSymbols_of_distinct (h.perm hperm), longestMatch?_perm h hperm⟩
  window _ hn t :=
    longestMatch?_take (fun s hs => (length_le_maxLength symbols s hs).trans hn) t

/-- **Tables.** A list of symbols is refused exactly if one of them is empty or has the pattern
of an earlier one, and the refusal is that of the first such symbol. From any other list comes
a table that has its symbols longest first, in their order where they are equally long, and
that matches the longest symbol that starts a text. The order of the list does not show in
what is matched, and neither does the text behind the longest pattern. So the few characters
that a cursor shows are as good as all that is in front of it. -/
theorem ofSymbols_tabulates (symbols : List Symbol) :
    (∀ refusal, ofSymbols symbols = .error refusal ↔
      ∃ before s after, symbols = before ++ s :: after ∧ Distinct before ∧
        Refuses before s refusal) ∧
    ((∃ refusal, ofSymbols symbols = .error refusal) ↔
      ∃ before s after, symbols = before ++ s :: after ∧
        (s.pattern = [] ∨ s.pattern ∈ before.map Symbol.pattern)) ∧
    (∀ table, ofSymbols symbols = .ok table → Tabulates symbols table) ∧
    ofSymbols Symbol.script = .ok script ∧
    ∀ c : Cursor, 0 ≤ c.offset →
      script.longestMatch? (c.window lookahead) = script.longestMatch? c.unread := by
  have hscript : ofSymbols Symbol.script = .ok script := by
    decide +kernel
  refine ⟨fun refusal => ofSymbols_eq_error_iff, ?_, ?_, hscript, ?_⟩
  · constructor
    · rintro ⟨refusal, h⟩
      obtain ⟨before, s, after, rfl, -, hrefuses⟩ := ofSymbols_eq_error_iff.mp h
      exact ⟨before, s, after, rfl, hrefuses.empty_or_repeats⟩
    · rintro ⟨before, s, after, rfl, hwrong⟩
      have hnot : ¬ Distinct (before ++ s :: after) := fun hdistinct =>
        hdistinct.not_empty_or_repeats hwrong
      obtain ⟨before, s, after, refusal, hsplit⟩ := exists_first_refused hnot
      exact ⟨refusal, ofSymbols_eq_error_iff.mpr ⟨before, s, after, hsplit⟩⟩
  · intro table h
    obtain ⟨hdistinct, rfl⟩ := ofSymbols_eq_ok_iff.mp h
    exact tabulates_ofDistinct hdistinct
  · intro c hc
    rw [Cursor.window_eq_take c hc, script, longestMatch?_take Symbol.script_length_le_lookahead]

/-- The longer symbols come first, in their order, although a shorter one was given before
them. -/
theorem ofSymbols_tabulates_inferior :
    Tabulates
        [⟨"<", .inferior⟩, ⟨"<=", .inferiorEqual⟩, ⟨"=", .equal⟩, ⟨"<>", .notEqual⟩]
        ⟨[⟨"<=", .inferiorEqual⟩, ⟨"<>", .notEqual⟩, ⟨"<", .inferior⟩, ⟨"=", .equal⟩]⟩ ∧
      script.longestMatch? (Cursor.window ⟨"a<<=bc", 1, 1, 1, false⟩ lookahead) =
        script.longestMatch? (Cursor.unread ⟨"a<<=bc", 1, 1, 1, false⟩) :=
  ⟨(ofSymbols_tabulates _).2.2.1 _ (by decide +kernel),
    (ofSymbols_tabulates []).2.2.2.2 ⟨"a<<=bc", 1, 1, 1, false⟩ (by decide)⟩

/-- A symbol that is empty is not reported behind one that repeats a pattern. -/
example : ofSymbols [⟨"a", .dot⟩, ⟨"b", .comma⟩, ⟨"a", .plus⟩, ⟨"", .minus⟩] =
    .error (.duplicate "a" .dot .plus) := by
  decide +kernel

end SymbolTable

end ScriptLex
