import ScriptLex.StringLiteral

/-!
# The bodies of string literals

A body is a sequence of single characters and of backslashes with one character each. The
rules below give every such unit the text it denotes; reading a literal finds the first
delimiter that is no part of a unit, and the value of the units before it.
-/

namespace ScriptLex.StringLiteral

/-- The value of a body, up to the delimiter that closes it, and the text behind that
delimiter. There is none if the text ends first. -/
def read? (delim : Char) : Text → Option (Text × Text)
  | [] => none
  | c :: t =>
    if c = delim then some ([], t)
    else if c = '\\' then
      match t with
      | [] => none
      | e :: t => (read? delim t).map fun (value, rest) => (escaped delim e ++ value, rest)
    else (read? delim t).map fun (value, rest) => (plain c :: value, rest)

/-- A body that the delimiter does not close, with the value it denotes. -/
inductive Body (delim : Char) : (body value : Text) → Prop
  | nil : Body delim [] []
  | plain {c : Char} {body value : Text} (hdelim : c ≠ delim) (hslash : c ≠ '\\')
      (hhash : c ≠ '#') (h : Body delim body value) : Body delim (c :: body) (c :: value)
  | hash {body value : Text} (h : Body delim body value) :
      Body delim ('#' :: body) ('\n' :: value)
  | escapedDelim {body value : Text} (h : Body delim body value) :
      Body delim ('\\' :: delim :: body) (delim :: value)
  | escapedN {body value : Text} (h : Body delim body value) :
      Body delim ('\\' :: 'n' :: body) ('\n' :: value)
  | escapedHash {body value : Text} (h : Body delim body value) :
      Body delim ('\\' :: '#' :: body) ('#' :: value)
  | escapedOther {c : Char} {body value : Text} (hdelim : c ≠ delim) (hn : c ≠ 'n')
      (hhash : c ≠ '#') (h : Body delim body value) :
      Body delim ('\\' :: c :: body) ('\\' :: c :: value)

/-- A delimiter behind which no body is ever closed. -/
def Open (t : Text) : Prop :=
  ∃ delim rest, t = delim :: rest ∧ isDelimiter delim = true ∧
    ∀ body value after, Body delim body value → rest ≠ body ++ delim :: after

theorem isDelimiter_iff {c : Char} : isDelimiter c = true ↔ c = '\x22' ∨ c = '\x27' := by
  simp [isDelimiter]

/-- A delimiter plays no other part in a body. -/
theorem delimiter_ne {delim : Char} (h : isDelimiter delim = true) :
    delim ≠ '\\' ∧ delim ≠ '#' ∧ delim ≠ 'n' := by
  rcases isDelimiter_iff.mp h with rfl | rfl
  · decide
  · decide

variable {delim : Char} {body value after : Text}

/-! ## Reading, unit by unit -/

theorem read?_close (delim : Char) (t : Text) : read? delim (delim :: t) = some ([], t) := by
  rw [read?.eq_def]
  simp

theorem read?_cons {c : Char} (hdelim : c ≠ delim) (hslash : c ≠ '\\') (t : Text) :
    read? delim (c :: t) =
      (read? delim t).map fun (value, rest) => (plain c :: value, rest) := by
  rw [read?.eq_def]
  simp [hdelim, hslash]

theorem read?_escaped (hslash : delim ≠ '\\') (c : Char) (t : Text) :
    read? delim ('\\' :: c :: t) =
      (read? delim t).map fun (value, rest) => (escaped delim c ++ value, rest) := by
  rw [read?.eq_def]
  simp [hslash.symm]

theorem Body.read? (hdelim : isDelimiter delim = true) (h : Body delim body value)
    (after : Text) : read? delim (body ++ delim :: after) = some (value, after) := by
  obtain ⟨hs, hh, hn⟩ := delimiter_ne hdelim
  induction h with
  | nil => exact read?_close delim after
  | plain hd hslash hhash _ ih =>
      rw [List.cons_append, read?_cons hd hslash, ih]
      simp [StringLiteral.plain, hhash]
  | hash _ ih =>
      rw [List.cons_append, read?_cons hh.symm (by decide), ih]
      simp [StringLiteral.plain]
  | escapedDelim _ ih =>
      rw [List.cons_append, List.cons_append, read?_escaped hs, ih]
      simp [escaped]
  | escapedN _ ih =>
      rw [List.cons_append, List.cons_append, read?_escaped hs, ih]
      simp [escaped, hn.symm]
  | escapedHash _ ih =>
      rw [List.cons_append, List.cons_append, read?_escaped hs, ih]
      simp [escaped, hh.symm]
  | escapedOther hd hn' hhash _ ih =>
      rw [List.cons_append, List.cons_append, read?_escaped hs, ih]
      simp [escaped, hd, hn', hhash]

/-- A single character is a unit with the value that reading gives it. -/
theorem Body.cons_plain {c : Char} (hdelim : c ≠ delim) (hslash : c ≠ '\\')
    (h : Body delim body value) : Body delim (c :: body) (StringLiteral.plain c :: value) := by
  unfold StringLiteral.plain
  by_cases hhash : c = '#'
  · subst hhash
    exact .hash h
  · rw [if_neg hhash]
    exact .plain hdelim hslash hhash h

/-- So is a backslash with the character behind it. -/
theorem Body.cons_escaped (c : Char) (h : Body delim body value) :
    Body delim ('\\' :: c :: body) (escaped delim c ++ value) := by
  unfold escaped
  by_cases hdelim : c = delim
  · subst hdelim
    rw [if_pos rfl]
    exact .escapedDelim h
  · by_cases hn : c = 'n'
    · subst hn
      rw [if_neg hdelim, if_pos rfl]
      exact .escapedN h
    · by_cases hhash : c = '#'
      · subst hhash
        rw [if_neg hdelim, if_neg hn, if_pos rfl]
        exact .escapedHash h
      · rw [if_neg hdelim, if_neg hn, if_neg hhash]
        exact .escapedOther hdelim hn hhash h

theorem exists_body_of_read? {t : Text} (h : read? delim t = some (value, after)) :
    ∃ body, Body delim body value ∧ t = body ++ delim :: after := by
  fun_induction StringLiteral.read? delim t generalizing value with
  | case1 => cases h
  | case2 t =>
      obtain ⟨rfl, rfl⟩ : [] = value ∧ t = after := by simpa using h
      exact ⟨[], .nil, rfl⟩
  | case3 => cases h
  | case4 e t hslash ih =>
      obtain ⟨⟨v, r⟩, hr, heq⟩ := Option.map_eq_some_iff.mp h
      obtain ⟨rfl, rfl⟩ := Prod.mk.inj heq
      obtain ⟨body, hbody, rfl⟩ := ih hr
      exact ⟨_, hbody.cons_escaped e, rfl⟩
  | case5 c t hdelim hslash ih =>
      obtain ⟨⟨v, r⟩, hr, heq⟩ := Option.map_eq_some_iff.mp h
      obtain ⟨rfl, rfl⟩ := Prod.mk.inj heq
      obtain ⟨body, hbody, rfl⟩ := ih hr
      exact ⟨_, hbody.cons_plain hdelim hslash, rfl⟩

/-- **Open strings.** A literal is never closed exactly where reading it fails. -/
theorem open_cons_iff {rest : Text} :
    Open (delim :: rest) ↔ isDelimiter delim = true ∧ read? delim rest = none := by
  constructor
  · rintro ⟨d, r, heq, hdelim, hopen⟩
    obtain ⟨rfl, rfl⟩ := List.cons.inj heq
    refine ⟨hdelim, ?_⟩
    cases hread : StringLiteral.read? delim rest with
    | none => rfl
    | some result =>
        obtain ⟨body, hbody, hrest⟩ := exists_body_of_read? hread
        exact absurd hrest (hopen body _ _ hbody)
  · rintro ⟨hdelim, hread⟩
    refine ⟨delim, rest, rfl, hdelim, ?_⟩
    rintro body value after hbody rfl
    rw [hbody.read? hdelim] at hread
    cases hread

end ScriptLex.StringLiteral
