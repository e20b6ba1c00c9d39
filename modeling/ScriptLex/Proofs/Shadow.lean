import ScriptLex.Proofs.Table

/-!
# Symbols in the shadow of others

Taking the first symbol that fits, in the order of a list, is not the same as taking the
longest one. The two differ exactly if some symbol of the list has an earlier one that starts
it: such a symbol is never the first that fits, and at its own pattern it is the longest.
-/

namespace ScriptLex.Symbol

variable {symbols before after : List Symbol} {s x : Symbol} {t : Text}

/-- The pattern of `x` is shorter than that of `s` and starts it. -/
structure Shadows (x s : Symbol) : Prop where
  shorter : x.pattern.length < s.pattern.length
  starts : x.pattern <+: s.pattern

/-! ## What the audit reports -/

theorem mem_startersOf_iff {p q : Text} :
    p ∈ startersOf q before ↔
      ∃ x ∈ before, x.pattern = p ∧ x.pattern.length < q.length ∧ x.pattern <+: q := by
  unfold startersOf
  rw [List.mem_map]
  constructor
  · rintro ⟨x, hx, rfl⟩
    obtain ⟨hmem, htest⟩ := List.mem_filter.mp hx
    rw [Bool.and_eq_true, decide_eq_true_eq, startsText_iff] at htest
    exact ⟨x, hmem, rfl, htest⟩
  · rintro ⟨x, hmem, rfl, htest⟩
    refine ⟨x, List.mem_filter.mpr ⟨hmem, ?_⟩, rfl⟩
    rw [Bool.and_eq_true, decide_eq_true_eq, startsText_iff]
    exact htest

/-- Along the list: each symbol is looked at behind all that stand before it. -/
theorem mem_shadowedAfter_iff {p q : Text} :
    (p, q) ∈ shadowedAfter before symbols ↔
      ∃ pre s post, symbols = pre ++ s :: post ∧ s.pattern = q ∧
        ∃ x ∈ before ++ pre, x.pattern = p ∧ x.Shadows s := by
  induction symbols generalizing before with
  | nil => simp [shadowedAfter]
  | cons y rest ih =>
      rw [shadowedAfter, List.mem_append, ih]
      constructor
      · rintro (hfirst | ⟨pre, s, post, rfl, hs, x, hx, hp, hshadows⟩)
        · obtain ⟨p', hp', heq⟩ := List.mem_map.mp hfirst
          obtain ⟨rfl, rfl⟩ := Prod.mk.inj heq
          obtain ⟨x, hx, hp, hshorter, hstarts⟩ := mem_startersOf_iff.mp hp'
          exact ⟨[], y, rest, rfl, rfl, x, by simpa using hx, hp, hshorter, hstarts⟩
        · rw [← List.append_cons] at hx
          exact ⟨y :: pre, s, post, rfl, hs, x, hx, hp, hshadows⟩
      · rintro ⟨pre, s, post, hsplit, rfl, x, hx, rfl, hshadows⟩
        cases pre with
        | nil =>
            obtain ⟨rfl, rfl⟩ := List.cons.inj hsplit
            rw [List.append_nil] at hx
            left
            exact List.mem_map.mpr ⟨x.pattern,
              mem_startersOf_iff.mpr ⟨x, hx, rfl, hshadows.shorter, hshadows.starts⟩, rfl⟩
        | cons z pre =>
            obtain ⟨rfl, rfl⟩ := List.cons.inj hsplit
            rw [List.append_cons] at hx
            right
            exact ⟨pre, s, post, rfl, rfl, x, hx, rfl, hshadows⟩

/-- **The audit.** It reports an earlier pattern and a later one that it shadows. -/
theorem mem_shadowed_iff {p q : Text} :
    (p, q) ∈ shadowed symbols ↔
      ∃ before s after, symbols = before ++ s :: after ∧ s.pattern = q ∧
        ∃ x ∈ before, x.pattern = p ∧ x.Shadows s :=
  mem_shadowedAfter_iff

theorem shadowed_eq_nil_iff :
    shadowed symbols = [] ↔
      ∀ before s after, symbols = before ++ s :: after → ∀ x ∈ before, ¬ x.Shadows s := by
  rw [List.eq_nil_iff_forall_not_mem]
  constructor
  · intro h before s after hsplit x hx hshadows
    exact h (x.pattern, s.pattern)
      (mem_shadowed_iff.mpr ⟨before, s, after, hsplit, rfl, x, hx, rfl, hshadows⟩)
  · rintro h ⟨p, q⟩ hmem
    obtain ⟨before, s, after, hsplit, -, x, hx, -, hshadows⟩ := mem_shadowed_iff.mp hmem
    exact h before s after hsplit x hx hshadows

/-- Where no later symbol is longer, none is shadowed. -/
theorem Descending.shadowed_eq_nil (h : Descending symbols) : shadowed symbols = [] := by
  rw [shadowed_eq_nil_iff]
  rintro before s after rfl x hx hshadows
  have hle : s.pattern.length ≤ x.pattern.length :=
    (List.pairwise_append.mp h).2.2 x hx s List.mem_cons_self
  exact absurd hshadows.shorter (Nat.not_lt.mpr hle)

/-! ## The first symbol that fits -/

theorem starts_of_firstMatch? (h : firstMatch? symbols t = some s) : s.pattern <+: t := by
  unfold firstMatch? at h
  have hfits := List.find?_some h
  exact startsText_iff.mp hfits

/-- A symbol that is shadowed fits only where an earlier one does. -/
theorem Shadows.firstMatch?_ne (hdistinct : Distinct (before ++ s :: after))
    (hshadows : x.Shadows s) (hx : x ∈ before) {y : Symbol}
    (hfirst : firstMatch? (before ++ s :: after) t = some y) : y.pattern ≠ s.pattern := by
  intro heq
  have hfits : s.pattern <+: t := by
    rw [← heq]
    exact starts_of_firstMatch? hfirst
  rw [firstMatch?, List.find?_append] at hfirst
  cases hfound : before.find? (·.startsText t) with
  | none =>
      rw [List.find?_eq_none] at hfound
      exact hfound x hx (startsText_iff.mpr (hshadows.starts.trans hfits))
  | some z =>
      rw [hfound, Option.some_or] at hfirst
      obtain rfl := Option.some.inj hfirst
      exact hdistinct.pattern_ne (List.mem_of_find?_eq_some hfound) heq

/-- The longest symbol that fits is the first one, unless an earlier one shadows it. -/
theorem Longest.firstMatch?_eq (h : Longest symbols s t) (hdistinct : Distinct symbols)
    (hfree : ∀ before after, symbols = before ++ s :: after → ∀ x ∈ before, ¬ x.Shadows s) :
    firstMatch? symbols t = some s := by
  obtain ⟨before, after, rfl⟩ := List.append_of_mem h.mem
  have hnone : before.find? (·.startsText t) = none := by
    rw [List.find?_eq_none]
    intro x hx hfits
    have hstarts : x.pattern <+: t := startsText_iff.mp hfits
    have hle : x.pattern.length ≤ s.pattern.length :=
      h.longest x (List.mem_append_left _ hx) hstarts
    -- both start the same text, so the one that is no longer starts the other
    have hpre : x.pattern <+: s.pattern := List.prefix_of_prefix_length_le hstarts h.starts hle
    have hne : x.pattern.length ≠ s.pattern.length := fun heq =>
      hdistinct.pattern_ne hx (hpre.eq_of_length heq)
    exact hfree before after rfl x hx ⟨Nat.lt_of_le_of_ne hle hne, hpre⟩
  have hfits : s.startsText t = true := startsText_iff.mpr h.starts
  rw [firstMatch?, List.find?_append, hnone, Option.none_or]
  exact List.find?_cons_of_pos hfits

theorem longest_self (hs : s ∈ symbols) : Longest symbols s s.pattern :=
  ⟨hs, List.prefix_rfl, fun _ _ hpre => hpre.length_le⟩

/-- **Dead symbols.** A pattern is never that of the first symbol that fits exactly if an
earlier symbol shadows its own. -/
theorem dead_iff_mem_shadowed (hdistinct : Distinct symbols) {p : Text}
    (hp : p ∈ symbols.map Symbol.pattern) :
    (∀ t s, firstMatch? symbols t = some s → s.pattern ≠ p) ↔
      p ∈ (shadowed symbols).map Prod.snd := by
  constructor
  · intro hdead
    obtain ⟨s, hs, rfl⟩ := List.mem_map.mp hp
    by_contra hnot
    have hfree : ∀ before after, symbols = before ++ s :: after →
        ∀ x ∈ before, ¬ x.Shadows s := by
      intro before after hsplit x hx hshadows
      have hmem : (x.pattern, s.pattern) ∈ shadowed symbols :=
        mem_shadowed_iff.mpr ⟨before, s, after, hsplit, rfl, x, hx, rfl, hshadows⟩
      exact hnot (List.mem_map_of_mem hmem)
    exact hdead s.pattern s ((longest_self hs).firstMatch?_eq hdistinct hfree) rfl
  · intro hmem t y hfirst
    obtain ⟨⟨p', q⟩, hpair, rfl⟩ := List.mem_map.mp hmem
    obtain ⟨before, s, after, rfl, rfl, x, hx, -, hshadows⟩ := mem_shadowed_iff.mp hpair
    exact hshadows.firstMatch?_ne hdistinct hx hfirst

/-- First and longest agree on every text exactly if nothing is shadowed. -/
theorem firstMatch?_eq_longestMatch?_iff (hdistinct : Distinct symbols) :
    (∀ t, firstMatch? symbols t = (SymbolTable.ofDistinct symbols).longestMatch? t) ↔
      shadowed symbols = [] := by
  constructor
  · intro hagree
    rw [shadowed_eq_nil_iff]
    rintro before s after rfl x hx hshadows
    have hmem : s ∈ before ++ s :: after := by simp
    have hfirst : firstMatch? (before ++ s :: after) s.pattern = some s := by
      rw [hagree, SymbolTable.longestMatch?_ofDistinct_eq_some_iff hdistinct.eq_of_pattern_eq]
      exact longest_self hmem
    exact hshadows.firstMatch?_ne hdistinct hx hfirst rfl
  · intro hnone t
    cases hlongest : (SymbolTable.ofDistinct symbols).longestMatch? t with
    | none =>
        rw [SymbolTable.longestMatch?_ofDistinct_eq_none_iff] at hlongest
        rw [firstMatch?, List.find?_eq_none]
        intro s hs hfits
        exact hlongest s hs (startsText_iff.mp hfits)
    | some s =>
        exact (SymbolTable.longest_of_longestMatch? hlongest).firstMatch?_eq hdistinct
          fun before after hsplit => shadowed_eq_nil_iff.mp hnone before s after hsplit

/-- **Shadowing decides whether order matters.** Let a list of symbols make a table. The first
symbol of the list that fits is the one that the table matches, for every text, exactly if the
audit reports nothing. A pattern of the list is never that of the first symbol that fits
exactly if the audit reports it as a later one. In the order of the table nothing is
reported. -/
theorem shadowed_audits (symbols : List Symbol) (table : SymbolTable)
    (h : SymbolTable.ofSymbols symbols = .ok table) :
    ((∀ t, firstMatch? symbols t = table.longestMatch? t) ↔ shadowed symbols = []) ∧
    (∀ p ∈ symbols.map Symbol.pattern,
      (∀ t s, firstMatch? symbols t = some s → s.pattern ≠ p) ↔
        p ∈ (shadowed symbols).map Prod.snd) ∧
    shadowed table.symbols = [] := by
  obtain ⟨hdistinct, rfl⟩ := SymbolTable.ofSymbols_eq_ok_iff.mp h
  refine ⟨firstMatch?_eq_longestMatch?_iff hdistinct, ?_, ?_⟩
  · intro p hp
    exact dead_iff_mem_shadowed hdistinct hp
  · exact (longestFirst_descending symbols).shadowed_eq_nil

/-- The pattern `<` in front of `<=` hides it. Behind it, as in the table, it does not. -/
theorem shadowed_audits_inferior :
    (¬ ∀ t, firstMatch? [⟨"<", .inferior⟩, ⟨"<=", .inferiorEqual⟩] t =
      SymbolTable.longestMatch? ⟨[⟨"<=", .inferiorEqual⟩, ⟨"<", .inferior⟩]⟩ t) ∧
    (∀ t s, firstMatch? [⟨"<", .inferior⟩, ⟨"<=", .inferiorEqual⟩] t = some s →
      s.pattern ≠ ['<', '=']) ∧
    shadowed [⟨"<=", .inferiorEqual⟩, ⟨"<", .inferior⟩] = [] := by
  obtain ⟨hagree, hdead, hnone⟩ := shadowed_audits
    [⟨"<", .inferior⟩, ⟨"<=", .inferiorEqual⟩] ⟨[⟨"<=", .inferiorEqual⟩, ⟨"<", .inferior⟩]⟩
    (by decide +kernel)
  refine ⟨?_, ?_, hnone⟩
  · rw [hagree]
    decide +kernel
  · exact (hdead ['<', '='] (by decide +kernel)).mpr (by decide +kernel)

end ScriptLex.Symbol
