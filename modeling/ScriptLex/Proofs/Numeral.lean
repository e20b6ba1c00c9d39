import Mathlib.Algebra.Group.Nat.Defs
import Mathlib.Data.Nat.Digits.Defs
import ScriptLex.Proofs.Text
import ScriptLex.Text.Decimal
import ScriptLex.Text.Hex

/-!
# Reading numerals

Decimal numerals are read up to a character that is no digit, hexadecimal ones have a fixed
width. Both ways what was written is read.
-/

namespace ScriptLex

/-! ## Decimal numerals -/

namespace Decimal

/-- The number that digits spell, if there are any and nothing else. -/
def readNat? (t : Text) : Option Nat :=
  if t ≠ [] ∧ t.all Char.isDigit then some (Nat.ofDigitChars 10 t 0) else none

/-- The number of a numeral with or without a minus sign. -/
def read? : Text → Option Int
  | '-' :: t => (readNat? t).map fun n => -(n : Int)
  | t => (readNat? t).map fun n => (n : Int)

theorem isDigit_of_mem_ofNat {n : Nat} {c : Char} (h : c ∈ ofNat n) : c.isDigit = true :=
  Nat.isDigit_of_mem_toDigits (b := 10) (by decide) (by decide) h

theorem ofNat_ne_nil (n : Nat) : ofNat n ≠ [] := Nat.toDigits_ne_nil

theorem readNat?_ofNat (n : Nat) : readNat? (ofNat n) = some n := by
  have hall : (ofNat n).all Char.isDigit = true :=
    List.all_eq_true.mpr fun c hc => isDigit_of_mem_ofNat hc
  rw [readNat?, if_pos ⟨ofNat_ne_nil n, hall⟩, ofNat, Nat.ofDigitChars_ten_toDigits]

theorem ofInt_ne_nil (n : Int) : ofInt n ≠ [] := by
  cases n with
  | ofNat n => exact ofNat_ne_nil n
  | negSucc n => exact List.cons_ne_nil _ _

theorem mem_ofInt {n : Int} {c : Char} (h : c ∈ ofInt n) : c = '-' ∨ c.isDigit = true := by
  cases n with
  | ofNat n => exact .inr (isDigit_of_mem_ofNat h)
  | negSucc n =>
      rcases List.mem_cons.mp h with rfl | h
      · exact .inl rfl
      · exact .inr (isDigit_of_mem_ofNat h)

/-- A number below a power of ten has no more digits than that power has zeros. -/
theorem length_ofInt_le {n : Int} {digits : Nat} (hn : 0 ≤ n) (hpos : 0 < digits)
    (hless : n.toNat < 10 ^ digits) : (ofInt n).length ≤ digits := by
  obtain ⟨k, rfl⟩ := Int.eq_ofNat_of_zero_le hn
  exact Nat.toDigits_length 10 k digits hpos hless

/-- A character that no numeral has in it. -/
theorem notMem_ofInt {c : Char} (hminus : c ≠ '-') (hdigit : c.isDigit = false) (n : Int) :
    c ∉ ofInt n := by
  intro h
  rcases mem_ofInt h with rfl | h
  · exact hminus rfl
  · rw [h] at hdigit
    cases hdigit

/-- **Numerals are read back.** -/
theorem read?_ofInt (n : Int) : read? (ofInt n) = some n := by
  cases n with
  | ofNat n =>
      have hminus : ∀ t, ofNat n = '-' :: t → False := by
        intro t ht
        have hdigit : ('-' : Char).isDigit = true :=
          isDigit_of_mem_ofNat (n := n) (by rw [ht]; exact List.mem_cons_self)
        exact absurd hdigit (by decide)
      rw [ofInt, read?.eq_2 _ hminus, readNat?_ofNat]
      rfl
  | negSucc n =>
      rw [ofInt, read?, readNat?_ofNat]
      rfl

theorem head?_ofNat_append (n : Nat) (rest : Text) :
    (ofNat n ++ rest).head? = (ofNat n).head? := by
  rw [List.head?_append, List.head?_eq_some_head (ofNat_ne_nil n), Option.some_or]

/-- Only the numeral of zero starts with a zero. -/
theorem head?_ofNat_ne_zero {n : Nat} (hn : n ≠ 0) : (ofNat n).head? ≠ some '0' := by
  induction n using Nat.strong_induction_on with
  | _ n ih =>
      by_cases hlt : n < 10
      · rw [ofNat, Nat.toDigits_of_lt_base hlt]
        have hdigit : ∀ d < 10, d ≠ 0 → Nat.digitChar d ≠ '0' := by decide
        simpa using hdigit n hlt hn
      · have hle : 10 ≤ n := Nat.le_of_not_lt hlt
        have hhead : (ofNat n).head? = (ofNat (n / 10)).head? := by
          rw [ofNat, Nat.toDigits_of_base_le (by decide) hle]
          exact head?_ofNat_append (n / 10) _
        rw [hhead]
        exact ih (n / 10) (by omega) (by omega)

end Decimal

/-! ## Hexadecimal numerals -/

namespace Hex

theorem value?_digit : ∀ n < 16, value? (digit n) = some n := by decide

@[simp] theorem length_fixed (width n : Nat) : (fixed width n).length = width := by
  induction width generalizing n with
  | zero => rfl
  | succ width ih => simp [fixed, ih]

theorem mem_fixed {width n : Nat} {c : Char} (h : c ∈ fixed width n) :
    ∃ d < 16, c = digit d := by
  induction width generalizing n with
  | zero => cases h
  | succ width ih =>
      rcases List.mem_append.mp h with h | h
      · exact ih h
      · exact ⟨n % 16, Nat.mod_lt _ (by decide), List.mem_singleton.mp h⟩

theorem read?_concat (t : Text) (c : Char) :
    read? (t ++ [c]) = (read? t).bind fun n => (value? c).map fun d => 16 * n + d := by
  simp only [read?, List.foldl_append, List.foldl_cons, List.foldl_nil]
  cases List.foldl (fun n c => do return 16 * (← n) + (← value? c)) (some 0) t with
  | none => rfl
  | some n =>
      cases value? c with
      | none => rfl
      | some d => rfl

/-- **As many digits as are enough are read back.** -/
theorem read?_fixed {width n : Nat} (h : n < 16 ^ width) : read? (fixed width n) = some n := by
  induction width generalizing n with
  | zero =>
      obtain rfl : n = 0 := by simpa using h
      rfl
  | succ width ih =>
      have hdiv : n / 16 < 16 ^ width := by
        rw [Nat.pow_succ] at h
        exact Nat.div_lt_of_lt_mul (by omega)
      rw [fixed, read?_concat, ih hdiv, value?_digit _ (Nat.mod_lt _ (by decide))]
      simp only [Option.bind_some, Option.map_some]
      rw [Nat.div_add_mod]

/-- The number of the next `width` digits, and the text behind them. -/
def take? (width : Nat) (t : Text) : Option (Nat × Text) :=
  if width ≤ t.length then (read? (t.take width)).map fun n => (n, t.drop width) else none

theorem take?_fixed {width n : Nat} (h : n < 16 ^ width) (rest : Text) :
    take? width (fixed width n ++ rest) = some (n, rest) := by
  have hle : width ≤ (fixed width n ++ rest).length := by simp
  rw [take?, if_pos hle, List.take_left' (length_fixed width n),
    List.drop_left' (length_fixed width n), read?_fixed h]
  rfl

theorem length_le_of_take? {width n : Nat} {t rest : Text} (h : take? width t = some (n, rest)) :
    rest.length ≤ t.length := by
  rw [take?] at h
  split at h
  next =>
    obtain ⟨m, -, hpair⟩ := Option.map_eq_some_iff.mp h
    obtain ⟨-, rfl⟩ := Prod.mk.inj hpair
    rw [List.length_drop]
    omega
  next => cases h

end Hex

end ScriptLex
