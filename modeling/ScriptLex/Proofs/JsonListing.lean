import ScriptLex.Command.Run
import ScriptLex.Proofs.JsonReader

/-!
# Token streams in JSON are read back

A token stream in JSON is one array of objects. How it is laid out does not matter to a reader:
space stands only where space may stand. The array has one object for each token, with its kind,
line, column and value.
-/

namespace ScriptLex

/-- A text, or nothing. -/
def Json.Value.ofOption : Option Text → Json.Value
  | none => .null
  | some t => .string t

/-- What the object of a token says. -/
def ValuedToken.toJson (t : ValuedToken) : Json.Value :=
  .object
    [ ("kind", .string t.token.kind.name),
      ("line", .integer t.token.line),
      ("column", .integer t.token.column),
      ("value", .ofOption t.value) ]

namespace Json

/-! ## Objects and arrays -/

theorem spells_optionalString (value : Option Text) :
    Spells (optionalString value) (.ofOption value) := by
  cases value with
  | none => exact spells_null
  | some t => exact spells_string t

/-- The members of the object of a token: the name, how the value is written, and the value. -/
def membersOf (t : ValuedToken) : List (Text × Text × Value) :=
  [ ("kind", string t.token.kind.name, .string t.token.kind.name),
    ("line", Decimal.ofInt t.token.line, .integer t.token.line),
    ("column", Decimal.ofInt t.token.column, .integer t.token.column),
    ("value", optionalString t.value, .ofOption t.value) ]

/-- The object of a token says what it is to say. -/
theorem spells_token (t : ValuedToken) : Spells t.json t.toJson := by
  have hmembers : ∀ x ∈ membersOf t, Spells x.2.1 x.2.2 := by
    simp only [membersOf, List.forall_mem_cons]
    exact ⟨spells_string _, spells_integer _, spells_integer _, spells_optionalString _, by simp⟩
  have hclose : ("\n  \x7d" : Text) = "\n  ".toList ++ ['\x7d'] := by decide
  have hobject := spells_object (w := "\n  ".toList) (by decide) (List.cons_ne_nil _ _) hmembers
  rw [List.append_assoc, ← hclose] at hobject
  exact hobject

/-- A stream is one array and a line feed. -/
theorem exists_array (ts : List ValuedToken) :
    ∃ array, Listing.json ts = array ++ ['\n'] ∧ array.head? = some '[' ∧
      array.getLast? = some ']' ∧ Spells array (.array (ts.map ValuedToken.toJson)) := by
  cases ts with
  | nil => exact ⟨"[]".toList, by decide, by decide, by decide, spells_empty_array⟩
  | cons t ts =>
      let xs : List (Text × Value) :=
        (t :: ts).map fun t => ("\n  ".toList ++ t.json, t.toJson)
      have hfst : xs.map Prod.fst = (t :: ts).map fun t => "\n  ".toList ++ t.json := by
        simp only [xs, List.map_map, Function.comp_def]
      have hsnd : xs.map Prod.snd = (t :: ts).map ValuedToken.toJson := by
        simp only [xs, List.map_map, Function.comp_def]
      have hxs : ∀ x ∈ xs, Spells x.1 x.2 := by
        intro x hx
        obtain ⟨t, -, rfl⟩ := List.mem_map.mp hx
        exact (spells_token t).space (by decide)
      have hclose : ("\n]\n" : Text) = "\n".toList ++ [']'] ++ ['\n'] := by decide
      have hne : xs ≠ [] := List.cons_ne_nil _ _
      have harray := spells_array (w := "\n".toList) (by decide) hne hxs
      rw [hfst, hsnd] at harray
      refine ⟨_, ?_, rfl, List.getLast?_concat, harray⟩
      rw [Listing.json.eq_2 _ (List.cons_ne_nil t ts), hclose, ← List.append_assoc,
        ← List.append_assoc]

/-! ## ASCII -/

def IsAscii (t : Text) : Prop := ∀ c ∈ t, c.toNat < 128

instance (t : Text) : Decidable (IsAscii t) :=
  decidable_of_iff ((t.all fun c => c.toNat < 128) = true) (by simp [IsAscii])

theorem isAscii_append {a b : Text} (ha : IsAscii a) (hb : IsAscii b) : IsAscii (a ++ b) :=
  List.forall_mem_append.mpr ⟨ha, hb⟩

theorem isAscii_intercalate {ts : List Text} (h : ∀ t ∈ ts, IsAscii t) :
    IsAscii (List.intercalate [','] ts) := by
  induction ts with
  | nil => exact fun c hc => absurd hc List.not_mem_nil
  | cons t ts ih =>
      rw [List.forall_mem_cons] at h
      cases ts with
      | nil =>
          rw [List.intercalate_singleton]
          exact h.1
      | cons u ts =>
          rw [List.intercalate_cons_cons]
          exact isAscii_append (isAscii_append h.1 (by decide)) (ih h.2)

theorem isAscii_ofInt (n : Int) : IsAscii (Decimal.ofInt n) := by
  intro c hc
  rcases Decimal.mem_ofInt hc with rfl | hdigit
  · decide
  · have hle : c.toNat ≤ '9'.toNat := (Char.isDigit_iff_toNat.mp hdigit).2
    exact Nat.lt_of_le_of_lt hle (by decide)

theorem isAscii_unitEscape (n : Nat) : IsAscii (unitEscape n) := by
  have hdigit : ∀ d < 16, (Hex.digit d).toNat < 128 := by decide
  have hfixed : IsAscii (Hex.fixed 4 n) := by
    intro c hc
    obtain ⟨d, hd, rfl⟩ := Hex.mem_fixed hc
    exact hdigit d hd
  exact isAscii_append (a := ['\\', 'u']) (by decide) hfixed

theorem isAscii_escape (c : Char) : IsAscii (escape c) := by
  have hwritten := written_escape c
  generalize escape c = w at hwritten ⊢
  cases hwritten with
  | letter _ _ hx => exact List.forall_mem_cons.mpr ⟨by decide, List.forall_mem_singleton.mpr hx⟩
  | plain _ _ _ hc => exact List.forall_mem_singleton.mpr hc
  | unit _ => exact isAscii_unitEscape _
  | halves _ => exact isAscii_append (isAscii_unitEscape _) (isAscii_unitEscape _)

theorem isAscii_string (t : Text) : IsAscii (string t) := by
  have hbody : IsAscii (t.flatMap escape) := by
    intro c hc
    obtain ⟨x, -, hx⟩ := List.mem_flatMap.mp hc
    exact isAscii_escape x c hx
  exact isAscii_append (isAscii_append (a := ['\x22']) (by decide) hbody) (by decide)

theorem isAscii_optionalString (value : Option Text) : IsAscii (optionalString value) := by
  cases value with
  | none => decide
  | some t => exact isAscii_string t

theorem isAscii_member (name : Text) {text : Text} (h : IsAscii text) :
    IsAscii (member name text) :=
  isAscii_append (isAscii_append (isAscii_append (by decide) (isAscii_string name)) (by decide)) h

theorem isAscii_token (t : ValuedToken) : IsAscii t.json := by
  have hmembers : ∀ x ∈ membersOf t, IsAscii (member x.1 x.2.1) := by
    simp only [membersOf, List.forall_mem_cons]
    exact ⟨isAscii_member _ (isAscii_string _), isAscii_member _ (isAscii_ofInt _),
      isAscii_member _ (isAscii_ofInt _), isAscii_member _ (isAscii_optionalString _), by simp⟩
  have htexts : ∀ m ∈ (membersOf t).map fun x => member x.1 x.2.1, IsAscii m :=
    List.forall_mem_map.mpr hmembers
  exact isAscii_append
    (isAscii_append (a := ['\x7b']) (by decide) (isAscii_intercalate htexts)) (by decide)

theorem isAscii_listing (ts : List ValuedToken) : IsAscii (Listing.json ts) := by
  cases ts with
  | nil => decide
  | cons t ts =>
      have hitems : ∀ item ∈ (t :: ts).map fun t => "\n  ".toList ++ t.json, IsAscii item :=
        List.forall_mem_map.mpr fun u _ => isAscii_append (by decide) (isAscii_token u)
      rw [Listing.json.eq_2 _ (List.cons_ne_nil t ts)]
      exact isAscii_append
        (isAscii_append (a := ['[']) (by decide) (isAscii_intercalate hitems)) (by decide)

end Json

/-- **A token stream in JSON is read back.** It is written in ASCII, as one array and a line feed
behind it, and any reader of JSON finds in it an object for each token, in their order, with its
kind, line, column and value. As with rows, lines and columns beyond `Decimal.digitLimit` digits
are none that a run has to write. -/
theorem Command.render_json_roundtrips (ts : List ValuedToken) :
    Json.IsAscii (render (.named .json) ts) ∧
      (∃ array, render (.named .json) ts = array ++ ['\n'] ∧ array.head? = some '[' ∧
        array.getLast? = some ']' ∧
        Json.parse array = some (.array (ts.map ValuedToken.toJson))) ∧
      Json.parse (render (.named .json) ts) = some (.array (ts.map ValuedToken.toJson)) := by
  obtain ⟨array, hjson, hopen, hclose, hspells⟩ := Json.exists_array ts
  have hrender : render (.named .json) ts = array ++ ['\n'] := hjson
  refine ⟨Json.isAscii_listing ts, ⟨array, hrender, hopen, hclose, ?_⟩, ?_⟩
  · have hparse := hspells.parse (w := []) (by decide)
    rwa [List.append_nil] at hparse
  · rw [hrender]
    exact hspells.parse (by decide)

end ScriptLex
