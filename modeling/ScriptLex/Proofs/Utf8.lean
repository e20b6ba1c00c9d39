import ScriptLex.Text.Utf8

/-!
# Decoding what was encoded

The bytes of a character are a first byte, which says how many follow and within which bounds
the next one lies, and the following ones with six bits each. Decoding takes exactly these bytes
off and puts the bits together again, so every text survives being written and read.
-/

namespace ScriptLex.Utf8

/-- A byte that follows, with the lowest six bits of `n`. -/
def followingByte (n : Nat) : UInt8 := UInt8.ofNat (n % 64 + 0x80)

theorem toNat_ofNat {n : Nat} (h : n < 256) : (UInt8.ofNat n).toNat = n := by
  rw [UInt8.toNat_ofNat']
  exact Nat.mod_eq_of_lt h

theorem toNat_followingByte (n : Nat) : (followingByte n).toNat = n % 64 + 0x80 :=
  toNat_ofNat (by omega)

theorem le_followingByte_le {low high : UInt8} {n : Nat} (hlow : low.toNat ≤ n % 64 + 0x80)
    (hhigh : n % 64 + 0x80 ≤ high.toNat) : low ≤ followingByte n ∧ followingByte n ≤ high := by
  rw [UInt8.le_iff_toNat_le, UInt8.le_iff_toNat_le, toNat_followingByte]
  exact ⟨hlow, hhigh⟩

/-- Within the widest bounds are all of them. -/
theorem followingByte_bounds (n : Nat) : 0x80 ≤ followingByte n ∧ followingByte n ≤ 0xbf := by
  refine le_followingByte_le (Nat.le_add_left _ _) ?_
  show n % 64 + 0x80 ≤ 0xbf
  omega

theorem takeFollowing_cons {count : Nat} {low high b : UInt8} {bytes following rest : List UInt8}
    (hb : low ≤ b ∧ b ≤ high)
    (h : takeFollowing count 0x80 0xbf bytes = .ok (following, rest)) :
    takeFollowing (count + 1) low high (b :: bytes) = .ok (b :: following, rest) := by
  rw [takeFollowing, if_pos hb, h]

/-- Bytes that follow are taken off whatever stands behind them. -/
theorem takeFollowing_followingBytes (ns : List Nat) (rest : List UInt8) :
    takeFollowing ns.length 0x80 0xbf (ns.map followingByte ++ rest) =
      .ok (ns.map followingByte, rest) := by
  induction ns with
  | nil => rfl
  | cons n ns ih => exact takeFollowing_cons (followingByte_bounds n) ih

/-! ## First bytes -/

/-- Which bytes a first byte calls for, by its number. -/
theorem follow?_ofNat {n : Nat} (h : n < 256) : follow? (UInt8.ofNat n) =
    if n < 0x80 then some (0, 0x80, 0xbf)
    else if n < 0xc2 then none
    else if n < 0xe0 then some (1, 0x80, 0xbf)
    else if n = 0xe0 then some (2, 0xa0, 0xbf)
    else if n = 0xed then some (2, 0x80, 0x9f)
    else if n < 0xf0 then some (2, 0x80, 0xbf)
    else if n = 0xf0 then some (3, 0x90, 0xbf)
    else if n < 0xf4 then some (3, 0x80, 0xbf)
    else if n = 0xf4 then some (3, 0x80, 0x8f)
    else none := by
  unfold follow?
  simp only [UInt8.lt_iff_toNat_lt, ← UInt8.toNat_inj, toNat_ofNat h]
  rfl

/-- The bytes of a character: the first one is `lead`, the others have six bits each of the
numbers `ns`. The first calls for so many others, the first of them is within its bounds, and
together they have the code of the character. -/
structure Encodes (c : Char) (lead : Nat) (ns : List Nat) : Prop where
  bytes : String.utf8EncodeChar c = UInt8.ofNat lead :: ns.map followingByte
  bounds : ∃ low high, follow? (UInt8.ofNat lead) = some (ns.length, low, high) ∧
    ∀ n ∈ ns.head?, low ≤ followingByte n ∧ followingByte n ≤ high
  code : ns.foldl (fun code n => code * 64 + n % 64) (leadBits ns.length (UInt8.ofNat lead)) =
    c.toNat

theorem encodes_one {c : Char} (h : c.toNat ≤ 0x7f) : Encodes c c.toNat [] where
  bytes := by
    show String.utf8EncodeChar c = [UInt8.ofNat c.toNat]
    rw [String.utf8EncodeChar]
    exact if_pos h
  bounds := by
    refine ⟨0x80, 0xbf, ?_, by simp⟩
    rw [follow?_ofNat (by omega), if_pos (by omega)]
    rfl
  code := toNat_ofNat (by omega)

theorem encodes_two {c : Char} (hlow : ¬ c.toNat ≤ 0x7f) (hhigh : c.toNat ≤ 0x7ff) :
    Encodes c (c.toNat / 64 % 32 + 0xc0) [c.toNat] where
  bytes := by
    rw [String.utf8EncodeChar]
    exact (if_neg hlow).trans (if_pos hhigh)
  bounds := by
    refine ⟨0x80, 0xbf, ?_, ?_⟩
    · rw [follow?_ofNat (by omega), if_neg (by omega), if_neg (by omega), if_pos (by omega)]
      rfl
    · rintro n -
      exact followingByte_bounds n
  code := by
    have hlead := toNat_ofNat (n := c.toNat / 64 % 32 + 0xc0) (by omega)
    show ((UInt8.ofNat _).toNat - 0xc0) * 64 + c.toNat % 64 = c.toNat
    rw [hlead]
    omega

/-- No character is a surrogate, and there are no codes above the last plane. -/
theorem code_cases (c : Char) :
    c.toNat < 0xd800 ∨ 0xdfff < c.toNat ∧ c.toNat < 0x110000 := c.valid

theorem encodes_three {c : Char} (hlow : ¬ c.toNat ≤ 0x7ff) (hhigh : c.toNat ≤ 0xffff) :
    Encodes c (c.toNat / 4096 % 16 + 0xe0) [c.toNat / 64, c.toNat] where
  bytes := by
    rw [String.utf8EncodeChar]
    exact (if_neg (by show ¬ c.toNat ≤ 0x7f; omega)).trans ((if_neg hlow).trans (if_pos hhigh))
  bounds := by
    have hvalid := code_cases c
    rw [follow?_ofNat (by omega), if_neg (by omega), if_neg (by omega), if_neg (by omega)]
    by_cases hfirst : c.toNat / 4096 % 16 + 0xe0 = 0xe0
    · refine ⟨0xa0, 0xbf, if_pos hfirst, ?_⟩
      rintro n hn
      obtain rfl : c.toNat / 64 = n := by simpa using hn
      exact le_followingByte_le (by show 160 ≤ _; omega) (by show _ ≤ 191; omega)
    · by_cases hlast : c.toNat / 4096 % 16 + 0xe0 = 0xed
      · refine ⟨0x80, 0x9f, (if_neg hfirst).trans (if_pos hlast), ?_⟩
        rintro n hn
        obtain rfl : c.toNat / 64 = n := by simpa using hn
        exact le_followingByte_le (by show 128 ≤ _; omega) (by show _ ≤ 159; omega)
      · refine ⟨0x80, 0xbf, ?_, ?_⟩
        · rw [if_neg hfirst, if_neg hlast, if_pos (by omega)]
          rfl
        · rintro n -
          exact followingByte_bounds n
  code := by
    have hlead := toNat_ofNat (n := c.toNat / 4096 % 16 + 0xe0) (by omega)
    show (((UInt8.ofNat _).toNat - 0xe0) * 64 + c.toNat / 64 % 64) * 64 + c.toNat % 64 = c.toNat
    rw [hlead]
    omega

theorem encodes_four {c : Char} (hlow : ¬ c.toNat ≤ 0xffff) :
    Encodes c (c.toNat / 262144 % 8 + 0xf0) [c.toNat / 4096, c.toNat / 64, c.toNat] where
  bytes := by
    rw [String.utf8EncodeChar]
    exact (if_neg (by show ¬ c.toNat ≤ 0x7f; omega)).trans
      ((if_neg (by show ¬ c.toNat ≤ 0x7ff; omega)).trans (if_neg hlow))
  bounds := by
    have hvalid := code_cases c
    rw [follow?_ofNat (by omega), if_neg (by omega), if_neg (by omega), if_neg (by omega),
      if_neg (by omega), if_neg (by omega), if_neg (by omega)]
    by_cases hfirst : c.toNat / 262144 % 8 + 0xf0 = 0xf0
    · refine ⟨0x90, 0xbf, if_pos hfirst, ?_⟩
      rintro n hn
      obtain rfl : c.toNat / 4096 = n := by simpa using hn
      exact le_followingByte_le (by show 144 ≤ _; omega) (by show _ ≤ 191; omega)
    · by_cases hlast : c.toNat / 262144 % 8 + 0xf0 < 0xf4
      · refine ⟨0x80, 0xbf, (if_neg hfirst).trans (if_pos hlast), ?_⟩
        rintro n -
        exact followingByte_bounds n
      · refine ⟨0x80, 0x8f, ?_, ?_⟩
        · rw [if_neg hfirst, if_neg hlast, if_pos (by omega)]
          rfl
        · rintro n hn
          obtain rfl : c.toNat / 4096 = n := by simpa using hn
          exact le_followingByte_le (by show 128 ≤ _; omega) (by show _ ≤ 143; omega)
  code := by
    have hvalid := code_cases c
    have hlead := toNat_ofNat (n := c.toNat / 262144 % 8 + 0xf0) (by omega)
    show ((((UInt8.ofNat _).toNat - 0xf0) * 64 + c.toNat / 4096 % 64) * 64 +
      c.toNat / 64 % 64) * 64 + c.toNat % 64 = c.toNat
    rw [hlead]
    omega

theorem exists_encodes (c : Char) : ∃ lead ns, Encodes c lead ns := by
  by_cases hone : c.toNat ≤ 0x7f
  · exact ⟨_, _, encodes_one hone⟩
  · by_cases htwo : c.toNat ≤ 0x7ff
    · exact ⟨_, _, encodes_two hone htwo⟩
    · by_cases hthree : c.toNat ≤ 0xffff
      · exact ⟨_, _, encodes_three htwo hthree⟩
      · exact ⟨_, _, encodes_four hthree⟩

/-! ## Texts -/

theorem Encodes.takeFollowing {c : Char} {lead : Nat} {ns : List Nat} (h : Encodes c lead ns)
    (rest : List UInt8) :
    ∃ low high, follow? (UInt8.ofNat lead) = some (ns.length, low, high) ∧
      takeFollowing ns.length low high (ns.map followingByte ++ rest) =
        .ok (ns.map followingByte, rest) := by
  obtain ⟨low, high, hfollow, hbounds⟩ := h.bounds
  refine ⟨low, high, hfollow, ?_⟩
  cases ns with
  | nil => rfl
  | cons n ns => exact takeFollowing_cons (hbounds n rfl) (takeFollowing_followingBytes ns rest)

theorem Encodes.assemble {c : Char} {lead : Nat} {ns : List Nat} (h : Encodes c lead ns) :
    assemble (UInt8.ofNat lead) (ns.map followingByte) = c := by
  have hsix : ∀ n, (followingByte n).toNat - 0x80 = n % 64 := by
    intro n
    rw [toNat_followingByte, Nat.add_sub_cancel]
  rw [Utf8.assemble, List.foldl_map, List.length_map]
  simp only [hsix]
  rw [h.code, Char.ofNat_toNat]

/-- One character. -/
theorem decodeFrom_encodeChar_append (c : Char) {bytes : List UInt8} {t : Text}
    (h : ∀ position, decodeFrom position bytes = .ok t) (position : Nat) :
    decodeFrom position (String.utf8EncodeChar c ++ bytes) = .ok (c :: t) := by
  obtain ⟨lead, ns, hc⟩ := exists_encodes c
  obtain ⟨low, high, hfollow, htake⟩ := hc.takeFollowing bytes
  rw [hc.bytes, List.cons_append, decodeFrom, hfollow]
  dsimp only
  split
  next reason fitting herror =>
    rw [htake] at herror
    cases herror
  next following rest hok =>
    rw [htake] at hok
    obtain ⟨rfl, rfl⟩ := Prod.mk.inj (Except.ok.inj hok)
    rw [h, hc.assemble]

/-- **Every text survives.** -/
theorem decode_encode (t : Text) : decode (encode t) = .ok t := by
  have hall : ∀ position, decodeFrom position (encode t) = .ok t := by
    induction t with
    | nil =>
        intro position
        rw [encode, List.flatMap_nil, decodeFrom]
    | cons c t ih =>
        intro position
        rw [encode, List.flatMap_cons]
        exact decodeFrom_encodeChar_append c ih position
  exact hall 0

end ScriptLex.Utf8
