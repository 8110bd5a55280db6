import ApiReference.Text.Utf8

/-! # Texts and their bytes

Decoding the bytes of a text gives the text back (`decode?_encode`), so texts with the same bytes are
the same (`encode_injective`). -/

namespace ApiReference.Utf8

theorem toNat_byte {n : Nat} (h : n < 256) : (UInt8.ofNat n).toNat = n :=
  Nat.mod_eq_of_lt h

theorem continuation?_byte {n : Nat} (h : n < 64) :
    continuation? (UInt8.ofNat (0x80 + n)) = some n := by
  have hn : (UInt8.ofNat (0x80 + n)).toNat = 0x80 + n := toNat_byte (by omega)
  have hrange : (0x80 ≤ 0x80 + n && 0x80 + n < 0xc0) = true := by
    simp only [Bool.and_eq_true, decide_eq_true_eq]
    omega
  rw [continuation?, hn, if_pos hrange, Nat.add_sub_cancel_left]

theorem checked?_toNat {least : Nat} {c : Char} (h : least ≤ c.toNat) :
    checked? least c.toNat = some c := by
  have hvalid : c.toNat < 0xd800 ∨ 0xdfff < c.toNat ∧ c.toNat < 0x110000 := c.valid
  rw [checked?, if_pos, Char.ofNat_toNat]
  simp only [Bool.and_eq_true, decide_eq_true_eq, Bool.not_eq_true', Bool.and_eq_false_iff,
    decide_eq_false_iff_not]
  omega

/-! ### Bytes of each length

What is read depends on the number that the first byte gives.  The lemmas speak of that number and
of the six bits that each further byte adds, so the character itself stays out of the arithmetic. -/

section

variable {c : Char} {n : Nat} (rest : List UInt8)

theorem decode?_one (hn : n < 0x80) :
    decode? (UInt8.ofNat n :: rest) = (decode? rest).map (Char.ofNat n :: ·) := by
  have hfirst : (UInt8.ofNat n).toNat = n := toNat_byte (by omega)
  rw [decode?.eq_def]
  simp only [hfirst, hn, if_true]

theorem decode?_two {x : Nat} (hn : n < 0x20) (hx : x < 64)
    (hc : checked? 0x80 (n * 64 + x) = some c) :
    decode? (UInt8.ofNat (0xc0 + n) :: UInt8.ofNat (0x80 + x) :: rest) =
      (decode? rest).map (c :: ·) := by
  have hfirst : (UInt8.ofNat (0xc0 + n)).toNat = 0xc0 + n := toNat_byte (by omega)
  rw [decode?.eq_def]
  simp only [hfirst]
  rw [if_neg (by omega), if_neg (by omega), if_pos (by omega), continuation?_byte hx,
    Nat.add_sub_cancel_left]
  rw [Option.bind_eq_bind, Option.bind_some, hc]
  cases decode? rest <;> rfl

theorem decode?_three {x y : Nat} (hn : n < 0x10) (hx : x < 64) (hy : y < 64)
    (hc : checked? 0x800 (n * 4096 + x * 64 + y) = some c) :
    decode? (UInt8.ofNat (0xe0 + n) :: UInt8.ofNat (0x80 + x) :: UInt8.ofNat (0x80 + y) :: rest) =
      (decode? rest).map (c :: ·) := by
  have hfirst : (UInt8.ofNat (0xe0 + n)).toNat = 0xe0 + n := toNat_byte (by omega)
  rw [decode?.eq_def]
  simp only [hfirst]
  rw [if_neg (by omega), if_neg (by omega), if_neg (by omega), if_pos (by omega),
    continuation?_byte hx, continuation?_byte hy, Nat.add_sub_cancel_left]
  rw [Option.bind_eq_bind, Option.bind_some, Option.bind_eq_bind, Option.bind_some, hc]
  cases decode? rest <;> rfl

theorem decode?_four {x y z : Nat} (hn : n < 0x8) (hx : x < 64) (hy : y < 64) (hz : z < 64)
    (hc : checked? 0x10000 (n * 262144 + x * 4096 + y * 64 + z) = some c) :
    decode? (UInt8.ofNat (0xf0 + n) :: UInt8.ofNat (0x80 + x) :: UInt8.ofNat (0x80 + y) ::
      UInt8.ofNat (0x80 + z) :: rest) = (decode? rest).map (c :: ·) := by
  have hfirst : (UInt8.ofNat (0xf0 + n)).toNat = 0xf0 + n := toNat_byte (by omega)
  rw [decode?.eq_def]
  simp only [hfirst]
  rw [if_neg (by omega), if_neg (by omega), if_neg (by omega), if_neg (by omega),
    if_pos (by omega), continuation?_byte hx, continuation?_byte hy, continuation?_byte hz,
    Nat.add_sub_cancel_left]
  -- One at a time: to see two binds at once as one step, the products would be computed.
  rw [Option.bind_eq_bind, Option.bind_some, Option.bind_eq_bind, Option.bind_some,
    Option.bind_eq_bind, Option.bind_some, hc]
  cases decode? rest <;> rfl

end

/-- The bytes of a character are read as that character. -/
theorem decode?_encodeChar_append (c : Char) (rest : List UInt8) :
    decode? (encodeChar c ++ rest) = (decode? rest).map (c :: ·) := by
  have hvalid : c.toNat < 0xd800 ∨ 0xdfff < c.toNat ∧ c.toNat < 0x110000 := c.valid
  have hmod (n : Nat) : n % 64 < 64 := Nat.mod_lt n (by omega)
  unfold encodeChar
  simp only [Nat.shiftRight_eq_div_pow, Nat.pow_zero, Nat.div_one]
  split
  · next h =>
    rw [List.singleton_append, decode?_one rest h, Char.ofNat_toNat]
  · next h1 =>
    split
    · next h2 =>
      have hall : c.toNat / 64 * 64 + c.toNat % 64 = c.toNat := by omega
      refine decode?_two rest (by omega) (hmod _) ?_
      rw [hall, checked?_toNat (Nat.le_of_not_lt h1)]
    · next h2 =>
      split
      · next h3 =>
        have hall : c.toNat / 4096 * 4096 + c.toNat / 2 ^ 6 % 64 * 64 + c.toNat % 64 =
            c.toNat := by
          omega
        refine decode?_three rest (by omega) (hmod _) (hmod _) ?_
        rw [hall, checked?_toNat (Nat.le_of_not_lt h2)]
      · next h3 =>
        have hall : c.toNat / 262144 * 262144 + c.toNat / 2 ^ 12 % 64 * 4096 +
            c.toNat / 2 ^ 6 % 64 * 64 + c.toNat % 64 = c.toNat := by
          omega
        refine decode?_four rest (by omega) (hmod _) (hmod _) (hmod _) ?_
        rw [hall, checked?_toNat (Nat.le_of_not_lt h3)]

theorem decode?_encode (x : Text) : decode? (encode x) = some x := by
  induction x with
  | nil => rfl
  | cons c x ih =>
      rw [encode, List.flatMap_cons, decode?_encodeChar_append]
      exact congrArg (Option.map _) ih

theorem encode_injective {x y : Text} (h : encode x = encode y) : x = y :=
  Option.some.inj (by rw [← decode?_encode x, h, decode?_encode y])

end ApiReference.Utf8
