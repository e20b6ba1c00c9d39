import ScriptLex.Proofs.Place
import ScriptLex.Proofs.Text

/-!
# Cursors in use

However a cursor is used, it stands between what it has consumed and what is unread, or it has
read the end as well. What reading it will come to is therefore known beforehand: the unread
characters, the end once, and then a refusal. All that a cursor shows ahead is read off that
list, and a skip stops where the list does.
-/

namespace ScriptLex

namespace Cursor

/-! ## Where a cursor can be -/

/-- The cursor stands in `source`, or has read its end. -/
inductive Within (source : Text) : Cursor → Prop
  | between {before unread : Text} (h : before ++ unread = source) :
      Within source (between before unread)
  | spent : Within source (spent source)

/-- The characters that the cursor has behind it. -/
def consumed (c : Cursor) : Text := c.source.take c.offset.toNat

@[simp] theorem consumed_between (before unread : Text) :
    (between before unread).consumed = before := by
  simp [consumed, between]

@[simp] theorem consumed_spent (source : Text) : (spent source).consumed = source := by
  simp [consumed, spent, between]

variable {source : Text} {c d : Cursor}

theorem within_start (source : Text) : ({ source } : Cursor).Within source := by
  rw [between_nil]
  exact .between rfl

theorem Within.source_eq (h : c.Within source) : c.source = source := by
  cases h with
  | between h => exact h
  | spent => exact List.append_nil source

theorem Within.offset_nonneg (h : c.Within source) : 0 ≤ c.offset := by
  cases h with
  | between h => exact Int.natCast_nonneg _
  | spent => exact Int.natCast_nonneg _

theorem Within.offset_le (h : c.Within source) : c.offset ≤ source.length := by
  cases h with
  | @between before unread h =>
      have hlength := congrArg List.length h
      rw [List.length_append] at hlength
      show (before.length : Int) ≤ source.length
      omega
  | spent => exact Int.le_refl _

theorem Within.consumed_eq (h : c.Within source) :
    c.consumed = source.take c.offset.toNat := by
  rw [consumed, h.source_eq]

theorem Within.length_unread (h : c.Within source) :
    c.unread.length = source.length - c.offset.toNat := by
  rw [unread, h.source_eq, List.length_drop]

/-- Every unread character can be read, and then the end. -/
theorem Within.readsLeft_le (h : c.Within source) : c.readsLeft ≤ c.unread.length + 1 := by
  have hoffset := h.offset_nonneg
  rw [readsLeft, h.length_unread, h.source_eq]
  split <;> omega

theorem Within.position_eq (h : c.Within source) : c.position = Position.behind c.consumed := by
  cases h with
  | between h => rw [consumed_between, position_between]
  | spent => rw [consumed_spent, position_spent]

/-- The end is read behind all characters. -/
theorem Within.eq_spent (h : c.Within source) (hexhausted : c.exhausted = true) :
    c = Cursor.spent source := by
  cases h with
  | between h => cases hexhausted
  | spent => rfl

/-! ## Reads that are not refused -/

theorem read_spent (source : Text) : (spent source).read = (.error .pastEnd, spent source) := by
  simp [read]

theorem skip_spent (source : Text) (n : Nat) :
    (spent source).skip (n + 1) = (.error .pastEnd, spent source) := by
  rw [skip, read_spent]

/-- All that a read can do: it passes a character, sees the end, or is refused. -/
theorem Within.read_cases (h : c.Within source) :
    (∃ before ch rest, c = Cursor.between before (ch :: rest) ∧
      (Cursor.between (before ++ [ch]) rest).Within source ∧
      c.read = (.ok (some ch), Cursor.between (before ++ [ch]) rest)) ∨
    (c = Cursor.between source [] ∧ c.read = (.ok none, Cursor.spent source)) ∨
    (c = Cursor.spent source ∧ c.read = (.error .pastEnd, Cursor.spent source)) := by
  cases h with
  | @between before unread h =>
      cases unread with
      | nil =>
          rw [List.append_nil] at h
          subst h
          exact .inr (.inl ⟨rfl, read_between_nil before⟩)
      | cons ch rest =>
          have hnext : (Cursor.between (before ++ [ch]) rest).Within source :=
            .between (by rw [List.append_assoc]; exact h)
          exact .inl ⟨before, ch, rest, rfl, hnext, read_between before rest ch⟩
  | spent => exact .inr (.inr ⟨rfl, read_spent source⟩)

/-- One read. -/
theorem Within.read (h : c.Within source) {x : Option Char} (hread : c.read = (.ok x, d)) :
    d.Within source ∧ c.offset ≤ d.offset ∧ d.readsLeft + 1 = c.readsLeft := by
  have hleft := readsLeft_of_read hread
  rcases h.read_cases with ⟨before, ch, rest, rfl, hnext, hpasses⟩ | ⟨rfl, hends⟩ | ⟨-, hrefused⟩
  · rw [hpasses] at hread
    obtain ⟨-, rfl⟩ := Prod.mk.inj hread
    refine ⟨hnext, ?_, hleft⟩
    show (before.length : Int) ≤ ((before ++ [ch]).length : Nat)
    rw [List.length_append]
    omega
  · rw [hends] at hread
    obtain ⟨-, rfl⟩ := Prod.mk.inj hread
    exact ⟨.spent, Int.le_refl _, hleft⟩
  · rw [hrefused] at hread
    cases hread

/-- Reads in a row. -/
theorem Within.skip (h : c.Within source) {n : Nat} (hskip : c.skip n = (.ok (), d)) :
    d.Within source ∧ c.offset ≤ d.offset ∧ d.readsLeft + n = c.readsLeft := by
  induction n generalizing c with
  | zero =>
      obtain ⟨-, rfl⟩ := Prod.mk.inj hskip
      exact ⟨h, Int.le_refl _, rfl⟩
  | succ n ih =>
      rw [Cursor.skip] at hskip
      split at hskip
      next x next hread =>
        obtain ⟨hnext, hle, hleft⟩ := h.read hread
        obtain ⟨hd, hle', hleft'⟩ := ih hnext hskip
        exact ⟨hd, Int.le_trans hle hle', by omega⟩
      next => cases hskip

theorem exhausted_of_skip {n i : Nat} (hskip : c.skip n = (.ok (), d)) (hi : i < n) :
    (c.skip i).2.exhausted = false := by
  induction n generalizing c i with
  | zero => exact absurd hi (Nat.not_lt_zero i)
  | succ n ih =>
      rw [skip] at hskip
      split at hskip
      next x next hread =>
        cases i with
        | zero =>
            show c.exhausted = false
            by_contra hexhausted
            rw [Bool.not_eq_false] at hexhausted
            simp [read, hexhausted] at hread
        | succ i =>
            rw [skip, hread]
            exact ih hskip (Nat.lt_of_succ_lt_succ hi)
      next => cases hskip

theorem skip_add {m : Nat} (hskip : c.skip m = (.ok (), d)) (n : Nat) :
    c.skip (m + n) = d.skip n := by
  induction m generalizing c with
  | zero =>
      obtain ⟨-, rfl⟩ := Prod.mk.inj hskip
      rw [Nat.zero_add]
  | succ m ih =>
      rw [skip] at hskip
      split at hskip
      next x next hread =>
        rw [Nat.add_right_comm, skip, hread]
        exact ih hskip
      next => cases hskip

/-! ## Reads up to a refusal -/

/-- What the reads of `skip n` give, one after the other. A refusal is the last of them. -/
def reads : (n : Nat) → Cursor → List (Except Fault (Option Char))
  | 0, _ => []
  | n + 1, c =>
    match c.read with
    | (.ok x, next) => .ok x :: reads n next
    | (.error fault, _) => [.error fault]

/-- What reading a cursor will come to. -/
def ahead (c : Cursor) : List (Except Fault (Option Char)) :=
  c.unread.map (fun ch => .ok (some ch)) ++
    if c.exhausted then [.error .pastEnd] else [.ok none, .error .pastEnd]

/-- **Reads are known beforehand.** They give the unread characters, then the end unless it has
been read, and then they are refused. -/
theorem Within.reads_eq (h : c.Within source) (n : Nat) : c.reads n = c.ahead.take n := by
  induction n generalizing c with
  | zero => rfl
  | succ n ih =>
      rw [reads]
      rcases h.read_cases with
        ⟨before, ch, rest, rfl, hnext, hread⟩ | ⟨rfl, hread⟩ | ⟨rfl, hread⟩
      · rw [hread]
        show .ok (some ch) :: (Cursor.between (before ++ [ch]) rest).reads n = _
        rw [ih hnext]
        simp [ahead]
      · rw [hread]
        show .ok none :: (Cursor.spent source).reads n = _
        rw [ih .spent]
        simp [ahead]
      · rw [hread]
        simp [ahead]

/-- The characters among what reads gave. -/
def characters (given : List (Except Fault (Option Char))) : Text :=
  given.filterMap fun
    | .ok x => x
    | .error _ => none

/-- What a read gives is consumed by it, also if that is nothing. -/
theorem Within.read_consumed (h : c.Within source) :
    c.read.2.Within source ∧ c.read.2.consumed = c.consumed ++ characters [c.read.1] := by
  rcases h.read_cases with ⟨before, ch, rest, rfl, hnext, hread⟩ | ⟨rfl, hread⟩ | ⟨rfl, hread⟩
  · rw [hread]
    exact ⟨hnext, by simp [characters]⟩
  · rw [hread]
    exact ⟨.spent, by simp [characters]⟩
  · rw [hread]
    exact ⟨.spent, by simp [characters]⟩

/-- A skip consumes what its reads give, those before a refusal included. -/
theorem Within.skip_consumed (h : c.Within source) (n : Nat) :
    (c.skip n).2.Within source ∧
      (c.skip n).2.consumed = c.consumed ++ characters (c.reads n) := by
  induction n generalizing c with
  | zero => exact ⟨h, (List.append_nil _).symm⟩
  | succ n ih =>
      obtain ⟨hwithin, hconsumed⟩ := h.read_consumed
      rw [Cursor.skip, reads]
      rcases hread : c.read with ⟨answer, next⟩
      rw [hread] at hwithin hconsumed
      cases answer with
      | ok x =>
          obtain ⟨hlast, htaken⟩ := ih hwithin
          refine ⟨hlast, ?_⟩
          rw [htaken, hconsumed, List.append_assoc]
          cases x with
          | none => rfl
          | some ch => rfl
      | error fault => exact ⟨hwithin, hconsumed⟩

/-! ## Looking ahead -/

/-- A cursor shows the next characters of the text in front of it. -/
theorem window_eq_take (c : Cursor) (h : 0 ≤ c.offset) (n : Nat) :
    c.window n = c.unread.take n := by
  obtain ⟨o, ho⟩ := Int.eq_ofNat_of_zero_le h
  rw [window, unread, ho, ← Int.natCast_add, Text.slice_natCast, Int.toNat_natCast,
    List.drop_take, Nat.add_sub_cancel_left]

/-- A cursor shows any one character of the text in front of it. -/
theorem peek_eq_getElem? (c : Cursor) (h : 0 ≤ c.offset) (n : Nat) :
    c.peek n = .ok c.unread[n]? := by
  obtain ⟨o, ho⟩ := Int.eq_ofNat_of_zero_le h
  rw [peek, unread, ho, ← Int.natCast_add, Int.toNat_natCast, List.getElem?_drop]
  by_cases hlt : o + n < c.source.length
  · have hchar : c.source[o + n]? = some c.source[o + n] := List.getElem?_eq_getElem hlt
    rw [if_pos (Int.ofNat_lt.mpr hlt), Text.charAt_of_getElem? hchar, hchar]
  · rw [if_neg (fun hless => hlt (Int.ofNat_lt.mp hless)),
      List.getElem?_eq_none (Nat.le_of_not_lt hlt)]

/-! ## Uses -/

/-- One use of a cursor. A skip over less than nothing is one over nothing. -/
inductive Use where
  | read
  | skip (count : Int)
  | peek (places : Nat)
  | window (size : Nat)
deriving DecidableEq, Repr

/-- The characters that a use returns, or the fault that it raises, and the cursor behind it. The
end of the source is no character, and a skip returns none. -/
def use (c : Cursor) : Use → Except Fault Text × Cursor
  | .read =>
    let (answer, next) := c.read
    (answer.map Option.toList, next)
  | .skip count =>
    let (answer, next) := c.skip count.toNat
    (answer.map fun _ => [], next)
  | .peek places => ((c.peek places).map Option.toList, c)
  | .window size => (.ok (c.window size), c)

/-- The characters that a use takes away: the one that is read, or those that are skipped. -/
def taken (c : Cursor) : Use → Text
  | .read => characters [c.read.1]
  | .skip count => characters (c.reads count.toNat)
  | .peek _ => []
  | .window _ => []

/-- The cursor behind uses in a row. One that is refused does not keep the next from being made. -/
def afterAll (c : Cursor) (uses : List Use) : Cursor := uses.foldl (fun c u => (c.use u).2) c

/-- The characters that uses in a row take away. -/
def takenByAll (c : Cursor) : List Use → Text
  | [] => []
  | u :: uses => c.taken u ++ (c.use u).2.takenByAll uses

/-- One use. -/
theorem Within.use (h : c.Within source) (u : Use) :
    (c.use u).2.Within source ∧ (c.use u).2.consumed = c.consumed ++ c.taken u := by
  cases u with
  | read => exact h.read_consumed
  | skip count => exact h.skip_consumed count.toNat
  | peek places => exact ⟨h, (List.append_nil _).symm⟩
  | window size => exact ⟨h, (List.append_nil _).symm⟩

/-- Uses in a row. -/
theorem Within.afterAll (h : c.Within source) (uses : List Use) :
    (c.afterAll uses).Within source ∧
      (c.afterAll uses).consumed = c.consumed ++ c.takenByAll uses := by
  induction uses generalizing c with
  | nil => exact ⟨h, (List.append_nil _).symm⟩
  | cons u uses ih =>
      obtain ⟨hwithin, hconsumed⟩ := h.use u
      obtain ⟨hlast, htaken⟩ := ih hwithin
      refine ⟨hlast, ?_⟩
      rw [takenByAll, ← List.append_assoc, ← hconsumed]
      exact htaken

/-- A read, by whether the end has been read. -/
theorem Within.use_read (h : c.Within source) :
    (c.exhausted = true ∧ c.use .read = (.error .pastEnd, c)) ∨
    (c.exhausted = false ∧ ∃ t d, c.use .read = (.ok t, d)) := by
  rw [Cursor.use]
  rcases h.read_cases with ⟨before, ch, rest, rfl, -, hread⟩ | ⟨rfl, hread⟩ | ⟨rfl, hread⟩
  · rw [hread]
    exact .inr ⟨rfl, _, _, rfl⟩
  · rw [hread]
    exact .inr ⟨rfl, _, _, rfl⟩
  · rw [hread]
    exact .inl ⟨rfl, rfl⟩

/-- **Where a skip stops.** It may take all characters that are left, and see the end behind them.
If it goes further, or the end has been seen before, it is refused there. -/
theorem Within.use_skip (h : c.Within source) {n : Int} (hn : 1 ≤ n) :
    (c.exhausted = false ∧ n ≤ c.unread.length ∧ ∃ d, c.use (.skip n) = (.ok [], d) ∧
      d.offset = c.offset + n ∧ d.exhausted = false) ∨
    (c.exhausted = false ∧ n = c.unread.length + 1 ∧
      c.use (.skip n) = (.ok [], Cursor.spent source)) ∨
    ((c.exhausted = true ∨ c.unread.length + 1 < n) ∧
      c.use (.skip n) = (.error .pastEnd, Cursor.spent source)) := by
  obtain ⟨k, rfl⟩ := Int.eq_ofNat_of_zero_le (by omega : 0 ≤ n)
  rw [Cursor.use, Int.toNat_natCast]
  cases h with
  | @between before unread h =>
      rw [unread_between]
      have hall := skip_between_all before unread
      rw [h] at hall
      -- the reads stop in front of the end, at the end, or behind it
      rcases Nat.lt_trichotomy k (unread.length + 1) with hless | rfl | hmore
      · have hle : k ≤ unread.length := Nat.le_of_lt_succ hless
        have hlength : (unread.take k).length = k := List.length_take_of_le hle
        have hskip := skip_between before (unread.take k) (unread.drop k)
        rw [List.take_append_drop, hlength] at hskip
        rw [hskip]
        refine .inl ⟨rfl, by omega, _, rfl, ?_, rfl⟩
        show ((before ++ unread.take k).length : Int) = before.length + k
        rw [List.length_append, hlength]
        omega
      · rw [hall]
        exact .inr (.inl ⟨rfl, by omega, rfl⟩)
      · obtain ⟨more, rfl⟩ := Nat.exists_eq_add_of_lt hmore
        rw [Nat.add_assoc, skip_add hall, skip_spent]
        exact .inr (.inr ⟨.inr (by omega), rfl⟩)
  | spent =>
      obtain ⟨more, rfl⟩ := Nat.exists_eq_succ_of_ne_zero (by omega : k ≠ 0)
      rw [skip_spent]
      exact .inr (.inr ⟨.inl rfl, rfl⟩)

/-! ## What may be relied on -/

/-- The cursor is at a place of `source`, and `taken` is what has been taken from it. -/
structure Tracks (c : Cursor) (source taken : Text) : Prop where
  offset_nonneg : 0 ≤ c.offset
  offset_le : c.offset ≤ source.length
  line_eq : c.line = 1 + (source.take c.offset.toNat).count '\n'
  column_eq : c.column = Text.lastLineLength (source.take c.offset.toNat)
  offset_eq : c.exhausted = true → c.offset = source.length
  taken_eq : taken = source.take c.offset.toNat

/-- What the cursor shows, and that it stays as it is, with `left` characters in front of it. -/
structure Foresees (c : Cursor) (left : Nat) : Prop where
  /-- A window has the characters that the next reads give, one each. -/
  window : ∀ n : Nat, ∃ t, c.use (.window n) = (.ok t, c) ∧
    c.reads (min n left) = t.map fun ch => .ok (some ch)
  /-- A peek has what the last of `n + 1` reads gives, -/
  peek : ∀ n : Nat, n < left ∨ n = left ∧ c.exhausted = false →
    ∃ x : Option Char, c.use (.peek n) = (.ok x.toList, c) ∧
      (c.reads (n + 1))[n]? = some (.ok x)
  /-- and nothing from the end on. -/
  peek_end : ∀ n : Nat, left ≤ n → c.use (.peek n) = (.ok [], c)

/-- What reading and skipping come to, with `left` characters of `source` in front of the
cursor. -/
structure Consumes (c : Cursor) (source : Text) (left : Nat) : Prop where
  read_refused_iff : (c.use .read).1 = .error .pastEnd ↔ c.exhausted = true
  read_refused : (c.use .read).1 = .error .pastEnd → (c.use .read).2 = c
  read_returns : c.exhausted = false → ∃ t, (c.use .read).1 = .ok t
  skip_refused_iff : ∀ n : Int, 1 ≤ n →
    ((c.use (.skip n)).1 = .error .pastEnd ↔ c.exhausted = true ∨ left + 1 < n)
  skip_refused : ∀ n : Int, 1 ≤ n → (c.use (.skip n)).1 = .error .pastEnd →
    (c.use (.skip n)).2.offset = source.length ∧ (c.use (.skip n)).2.exhausted = true
  /-- A skip over all that is left and the end. -/
  skip_end : c.exhausted = false → (c.use (.skip (left + 1))).1 = .ok [] ∧
    (c.use (.skip (left + 1))).2.offset = source.length ∧
    (c.use (.skip (left + 1))).2.exhausted = true
  /-- A skip over no more than is left. -/
  skip_within : ∀ n : Int, 1 ≤ n → n ≤ left → (c.use (.skip n)).1 = .ok [] ∧
    (c.use (.skip n)).2.offset = c.offset + n ∧ (c.use (.skip n)).2.exhausted = false

theorem Within.tracks (h : c.Within source) : c.Tracks source c.consumed where
  offset_nonneg := h.offset_nonneg
  offset_le := h.offset_le
  line_eq := by
    have hline := congrArg Position.line h.position_eq
    rwa [h.consumed_eq] at hline
  column_eq := by
    have hcolumn : c.column + 1 = c.consumed.lastLineLength + 1 :=
      congrArg Position.column h.position_eq
    rw [h.consumed_eq] at hcolumn
    omega
  offset_eq := by
    intro hexhausted
    rw [h.eq_spent hexhausted]
    rfl
  taken_eq := h.consumed_eq

theorem Within.foresees (h : c.Within source) : c.Foresees c.unread.length where
  window n := by
    have hle : min n c.unread.length ≤
        (c.unread.map fun ch => (.ok (some ch) : Except Fault (Option Char))).length := by
      rw [List.length_map]
      exact Nat.min_le_right _ _
    refine ⟨c.unread.take n, ?_, ?_⟩
    · rw [Cursor.use, window_eq_take c h.offset_nonneg]
    · rw [h.reads_eq, ahead, List.take_append_of_le_length hle, ← List.map_take,
        ← List.take_eq_take_min]
  peek n hn := by
    refine ⟨c.unread[n]?, ?_, ?_⟩
    · rw [Cursor.use, peek_eq_getElem? c h.offset_nonneg]
      rfl
    · rw [h.reads_eq, List.getElem?_take_of_lt (Nat.lt_succ_self n), ahead]
      rcases hn with hless | ⟨rfl, hexhausted⟩
      · rw [List.getElem?_append_left (by simpa using hless), List.getElem?_map,
          List.getElem?_eq_getElem hless]
        rfl
      · rw [List.getElem?_append_right (by simp), List.length_map, Nat.sub_self, hexhausted,
          List.getElem?_eq_none (Nat.le_refl _)]
        rfl
  peek_end n hn := by
    rw [Cursor.use, peek_eq_getElem? c h.offset_nonneg, List.getElem?_eq_none hn]
    rfl

theorem Within.consumes (h : c.Within source) : c.Consumes source c.unread.length where
  read_refused_iff := by
    rcases h.use_read with ⟨hexhausted, huse⟩ | ⟨hexhausted, t, d, huse⟩
    · simp [huse, hexhausted]
    · simp [huse, hexhausted]
  read_refused hrefused := by
    rcases h.use_read with ⟨-, huse⟩ | ⟨-, t, d, huse⟩
    · rw [huse]
    · rw [huse] at hrefused
      cases hrefused
  read_returns hexhausted := by
    rcases h.use_read with ⟨hread, -⟩ | ⟨-, t, d, huse⟩
    · rw [hexhausted] at hread
      cases hread
    · exact ⟨t, by rw [huse]⟩
  skip_refused_iff n hn := by
    rcases h.use_skip hn with
      ⟨hexhausted, hle, d, huse, -⟩ | ⟨hexhausted, rfl, huse⟩ | ⟨hends, huse⟩
    · simp only [huse, hexhausted, reduceCtorEq, Bool.false_eq_true, false_or, false_iff]
      omega
    · simp [huse, hexhausted]
    · simp only [huse, hends]
  skip_refused n hn hrefused := by
    rcases h.use_skip hn with ⟨-, -, d, huse, -⟩ | ⟨-, -, huse⟩ | ⟨-, huse⟩
    · rw [huse] at hrefused
      cases hrefused
    · rw [huse] at hrefused
      cases hrefused
    · rw [huse]
      exact ⟨rfl, rfl⟩
  skip_end hexhausted := by
    have hn : (1 : Int) ≤ c.unread.length + 1 := by omega
    rcases h.use_skip hn with ⟨-, hle, -⟩ | ⟨-, -, huse⟩ | ⟨hends, -⟩
    · omega
    · rw [huse]
      exact ⟨rfl, rfl, rfl⟩
    · rw [hexhausted] at hends
      simp at hends
  skip_within n hn hle := by
    rcases h.use_skip hn with ⟨-, -, d, huse, hoffset, hexhausted⟩ | ⟨-, rfl, -⟩ | ⟨hends, -⟩
    · rw [huse]
      exact ⟨rfl, hoffset, hexhausted⟩
    · omega
    · rcases hends with hexhausted | hmore
      · rw [h.eq_spent hexhausted, unread_spent, List.length_nil] at hle
        omega
      · omega

/-- **Cursors keep their contract.** Let a cursor at the start of `source` be used in any way,
and go on being used behind a refusal. It is at a place of the source and counts lines and
columns up to there; what was returned or skipped is all that stands before. From there it shows
what reads will give. A read is refused exactly if the end has been read, and changes nothing
then. A skip takes up to `left` characters, then the end, and is refused behind it. -/
theorem uses_keep_contract (source : Text) (uses : List Use) :
    let start : Cursor := { source }
    let c := start.afterAll uses
    let left := source.length - c.offset.toNat
    c.Tracks source (start.takenByAll uses) ∧ c.Foresees left ∧ c.Consumes source left := by
  intro start c left
  obtain ⟨hwithin, htaken⟩ := (within_start source).afterAll uses
  have hconsumed : c.consumed = start.takenByAll uses := htaken
  have hleft : c.unread.length = left := hwithin.length_unread
  rw [← hconsumed, ← hleft]
  exact ⟨hwithin.tracks, hwithin.foresees, hwithin.consumes⟩

/-- Two characters are left. The third place to skip is the end, and there is no fourth; the
skip that is refused there has still taken both. -/
theorem uses_keep_contract_refused :
    let start : Cursor := { source := "a\nb" }
    let c := start.afterAll [.read, .peek 5]
    ((c.use (.skip 3)).1 = .ok [] ∧ (c.use (.skip 3)).2.exhausted = true) ∧
      (c.use (.skip 4)).1 = .error .pastEnd ∧
      start.takenByAll [.read, .peek 5, .skip 4, .read] = "a\nb" := by
  obtain ⟨-, -, hconsumes⟩ := uses_keep_contract "a\nb" [.read, .peek 5]
  obtain ⟨htracks, -⟩ := uses_keep_contract "a\nb" [.read, .peek 5, .skip 4, .read]
  obtain ⟨hreturned, -, hexhausted⟩ := hconsumes.skip_end rfl
  refine ⟨⟨hreturned, hexhausted⟩, ?_, ?_⟩
  · rw [hconsumes.skip_refused_iff 4 (by decide)]
    exact .inr (by decide)
  · exact htracks.taken_eq

end Cursor

end ScriptLex
