import ScriptLex.Proofs.Command
import ScriptLex.Proofs.Escape
import ScriptLex.Proofs.Scan

/-!
# Token listings are read back

The rows of a listing are its lines, since no row has a line feed in it. A row is cut at its
colon and at its first two blanks: neither is part of a numeral or of the name of a kind. Whether
a token has a value is seen from what is behind the name, so a token without a value is told
apart from one whose value is empty.
-/

namespace ScriptLex

/-! ## Names of kinds -/

namespace Kind

theorem mem_all (k : Kind) : k ∈ all := by cases k <;> decide

theorem ofName?_name (k : Kind) : ofName? k.name = some k := by
  have hall : ∀ k ∈ all, ofName? k.name = some k := by decide +kernel
  exact hall k (mem_all k)

/-- Names are made of capital letters and underscores. -/
theorem mem_name {k : Kind} {c : Char} (h : c ∈ k.name) : c.isUpper = true ∨ c = '_' := by
  have hall : (all.all fun k => k.name.all fun c => c.isUpper || c = '_') = true := by
    decide +kernel
  have hname := List.all_eq_true.mp (List.all_eq_true.mp hall k (mem_all k)) c h
  simpa using hname

theorem notMem_name {c : Char} (hupper : c.isUpper = false) (hne : c ≠ '_') (k : Kind) :
    c ∉ k.name := by
  intro h
  rcases mem_name h with hc | hc
  · rw [hc] at hupper
    cases hupper
  · exact hne hc

end Kind

/-! ## Rows -/

namespace Text

/-- The parts of a text before and behind the first `c`. -/
def cutAt (c : Char) (t : Text) : Text × Text :=
  (t.takeWhile (· ≠ c), (t.dropWhile (· ≠ c)).tail)

theorem run_of_notMem {c : Char} {a : Text} (h : c ∉ a) (b : Text) :
    Run (· ≠ c) a (c :: b) where
  all x hx := decide_eq_true fun hc => h (hc ▸ hx)
  stop := by simp

theorem cutAt_append {c : Char} {a : Text} (h : c ∉ a) (b : Text) :
    cutAt c (a ++ c :: b) = (a, b) := by
  rw [cutAt, (run_of_notMem h b).takeWhile_eq, (run_of_notMem h b).dropWhile_eq]
  rfl

end Text

namespace ValuedToken

/-- What stands behind the name of the kind: nothing, or a blank and a quoted text. -/
def ofRowEnd? : Text → Option (Option Text)
  | [] => some none
  | _ :: quoted => (Quoted.read? quoted).map some

/-- The token of a row. -/
def ofRow? (row : Text) : Option ValuedToken :=
  let (line, row) := row.cutAt ':'
  let (column, row) := row.cutAt ' '
  do
    let line ← Decimal.read? line
    let column ← Decimal.read? column
    let kind ← Kind.ofName? (row.takeWhile (· ≠ ' '))
    let value ← ofRowEnd? (row.dropWhile (· ≠ ' '))
    return ⟨⟨kind, line, column⟩, value⟩

/-- What a row has behind the name of the kind. -/
def rowEnd (value : Option Text) : Text :=
  match value with
  | none => []
  | some t => ' ' :: Quoted.quote t

theorem row_eq (t : ValuedToken) :
    t.row = Decimal.ofInt t.token.line ++ ':' :: (Decimal.ofInt t.token.column ++
      ' ' :: (t.token.kind.name ++ rowEnd t.value)) := by
  simp only [row, List.append_assoc, List.cons_append]
  rfl

theorem ofRowEnd?_rowEnd (value : Option Text) : ofRowEnd? (rowEnd value) = some value := by
  cases value with
  | none => rfl
  | some t => rw [rowEnd, ofRowEnd?, Quoted.read?_quote, Option.map_some]

theorem run_name (k : Kind) (value : Option Text) :
    Text.Run (· ≠ ' ') k.name (rowEnd value) where
  all c hc := decide_eq_true fun hblank =>
    Kind.notMem_name (by decide) (by decide) k (hblank ▸ hc)
  stop := by
    cases value with
    | none => simp [rowEnd]
    | some t => simp [rowEnd]

/-- **Rows are read back.** -/
theorem ofRow?_row (t : ValuedToken) : ofRow? t.row = some t := by
  have hline : ':' ∉ Decimal.ofInt t.token.line :=
    Decimal.notMem_ofInt (by decide) (by decide) _
  have hcolumn : ' ' ∉ Decimal.ofInt t.token.column :=
    Decimal.notMem_ofInt (by decide) (by decide) _
  have hname := run_name t.token.kind t.value
  rw [ofRow?, row_eq]
  simp only [Text.cutAt_append hline, Text.cutAt_append hcolumn, hname.takeWhile_eq,
    hname.dropWhile_eq, Decimal.read?_ofInt, Kind.ofName?_name, ofRowEnd?_rowEnd,
    Option.bind_eq_bind, Option.bind_some, Option.pure_def]

theorem lineFeed_notMem_row (t : ValuedToken) : '\n' ∉ t.row := by
  have hend : '\n' ∉ rowEnd t.value := by
    cases t.value with
    | none => simp [rowEnd]
    | some v => simp [rowEnd, Quoted.lineFeed_notMem_quote]
  have hline : '\n' ∉ Decimal.ofInt t.token.line :=
    Decimal.notMem_ofInt (by decide) (by decide) _
  have hcolumn : '\n' ∉ Decimal.ofInt t.token.column :=
    Decimal.notMem_ofInt (by decide) (by decide) _
  have hname : '\n' ∉ t.token.kind.name := Kind.notMem_name (by decide) (by decide) _
  rw [row_eq]
  simp [hend, hline, hcolumn, hname]

end ValuedToken

/-! ## Listings -/

namespace Listing

/-- The tokens of a listing: each of its lines is a row, and the last one is ended too. -/
def readRows? (t : Text) : Option (List ValuedToken) :=
  if t.lines.getLast? = some [] then t.lines.dropLast.mapM ValuedToken.ofRow? else none

/-- The lines of a listing are its rows, and an empty one behind the last line feed. -/
theorem lines_rows (ts : List ValuedToken) :
    (rows ts).lines = ts.map ValuedToken.row ++ [[]] := by
  induction ts with
  | nil => rfl
  | cons t ts ih =>
      have hcons : rows (t :: ts) = t.row ++ '\n' :: rows ts := by simp [rows]
      rw [hcons, Text.lines_append, Text.lines_of_notMem t.lineFeed_notMem_row, ih]
      rfl

theorem count_rows (ts : List ValuedToken) : (rows ts).count '\n' = ts.length := by
  have hlength := Text.length_lines (rows ts)
  rw [lines_rows, List.length_append, List.length_map, List.length_singleton] at hlength
  omega

theorem mapM_ofRow?_row (ts : List ValuedToken) :
    (ts.map ValuedToken.row).mapM ValuedToken.ofRow? = some ts := by
  induction ts with
  | nil => rfl
  | cons t ts ih =>
      rw [List.map_cons, List.mapM_cons, ValuedToken.ofRow?_row, ih]
      rfl

/-- **Listings are read back.** -/
theorem readRows?_rows (ts : List ValuedToken) : readRows? (rows ts) = some ts := by
  have hlast : (rows ts).lines.getLast? = some [] := by rw [lines_rows, List.getLast?_concat]
  rw [readRows?, if_pos hlast, lines_rows, List.dropLast_concat, mapM_ofRow?_row]

end Listing

/-! ## Digits -/

/-- The lines and columns of a source that is no longer than any could be are written in few
digits. -/
theorem tokenize_within_digitLimit {mode : Mode} {source : Text} {tokens : List ValuedToken}
    (h : tokenize mode source = .ok tokens)
    (hlength : source.length + 1 < 10 ^ Decimal.digitLimit) :
    ∀ t ∈ tokens, (Decimal.ofInt t.token.line).length ≤ Decimal.digitLimit ∧
      (Decimal.ofInt t.token.column).length ≤ Decimal.digitLimit := by
  intro t ht
  obtain ⟨c, -, rfl⟩ := exists_cut_of_ok h
  obtain ⟨passed, kind, value, hpassed, rfl⟩ := c.exists_of_mem_stream ht
  have hpos : 0 < Decimal.digitLimit := by decide
  have hpassed := hpassed.length_le
  have hline : passed.count '\n' ≤ passed.length := List.count_le_length
  have hcolumn := Text.lastLineLength_le passed
  constructor
  · refine Decimal.length_ofInt_le ?_ hpos ?_
    · show (0 : Int) ≤ 1 + passed.count '\n'
      omega
    · show (1 + (passed.count '\n' : Int)).toNat < _
      omega
  · refine Decimal.length_ofInt_le ?_ hpos ?_
    · show (0 : Int) ≤ Text.lastLineLength passed + 1
      omega
    · show ((Text.lastLineLength passed : Int) + 1).toNat < _
      omega

namespace Command

/-- A run that puts its tokens somewhere dumps them if it is to, wherever it puts them. -/
theorem stderr_deliver (tree : FileTree) (options : Options) (ts : List ValuedToken) :
    ((deliver FileTree.disk options ts).run tree).1.stderr = dump options ts := by
  rw [deliver]
  cases options.output with
  | none => rfl
  | some p =>
      dsimp only
      rw [FileTree.disk_write_bind]
      cases tree.write p (Utf8.encode (render options.format ts)) with
      | ok after => rfl
      | error error => rfl

/-- **Nothing is lost in a listing.** A stream that is written in rows has one line feed for each
token, at the end of its row, and the tokens are read back from the rows. So no two streams have
the same rows. Rows are also what a run dumps. Lines and columns beyond `Decimal.digitLimit` digits
are none that a run has to write. -/
theorem render_text_lossless (ts : List ValuedToken) :
    (render (.named .text) ts).count '\n' = ts.length ∧
      (render (.named .text) ts).lines = ts.map ValuedToken.row ++ [[]] ∧
      Listing.readRows? (render (.named .text) ts) = some ts ∧
      Function.Injective (render (.named .text)) ∧
      ∀ (tree : FileTree) (options : Options), options.debug = true →
        ((deliver FileTree.disk options ts).run tree).1.stderr = render (.named .text) ts := by
  refine ⟨Listing.count_rows ts, Listing.lines_rows ts, Listing.readRows?_rows ts, ?_, ?_⟩
  · intro us vs h
    have hread := congrArg Listing.readRows? h
    rw [render, render, Listing.readRows?_rows, Listing.readRows?_rows] at hread
    exact Option.some.inj hread
  · intro tree options hdebug
    rw [stderr_deliver, dump, if_pos hdebug]
    rfl

end Command

end ScriptLex
