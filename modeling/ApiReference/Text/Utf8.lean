import ApiReference.Text.Basic

/-! # Texts as bytes

The UTF-8 form of texts.  Decoding refuses bytes that no text is encoded to: overlong forms, the
halves of pairs, numbers beyond the last code point, and sequences that are cut off. -/

namespace ApiReference.Utf8

/-- The bytes of a character. -/
def encodeChar (c : Char) : List UInt8 :=
  let n := c.toNat
  let tail (k : Nat) : UInt8 := UInt8.ofNat (0x80 + (n >>> k) % 64)
  if n < 0x80 then [UInt8.ofNat n]
  else if n < 0x800 then [UInt8.ofNat (0xc0 + n / 64), tail 0]
  else if n < 0x10000 then [UInt8.ofNat (0xe0 + n / 4096), tail 6, tail 0]
  else [UInt8.ofNat (0xf0 + n / 262144), tail 12, tail 6, tail 0]

/-- The bytes of a text. -/
def encode (x : Text) : List UInt8 := x.flatMap encodeChar

/-- The last six bits of a byte that continues a character. -/
def continuation? (b : UInt8) : Option Nat :=
  if 0x80 ≤ b.toNat && b.toNat < 0xc0 then some (b.toNat - 0x80) else none

/-- The character of that number, if it is no smaller than it has to be. -/
def checked? (least n : Nat) : Option Char :=
  if least ≤ n && n ≤ 0x10ffff && !(0xd800 ≤ n && n < 0xe000) then some (Char.ofNat n) else none

/-- Reads bytes as a text, character by character. -/
def decode? : List UInt8 → Option Text
  | [] => some []
  | a :: rest =>
    let n := a.toNat
    if n < 0x80 then (decode? rest).map (Char.ofNat n :: ·)
    else if n < 0xc0 then none
    else if n < 0xe0 then
      match rest with
      | b :: rest => do
        let c ← checked? 0x80 ((n - 0xc0) * 64 + (← continuation? b))
        return c :: (← decode? rest)
      | [] => none
    else if n < 0xf0 then
      match rest with
      | b :: c :: rest => do
        let c ← checked? 0x800
          ((n - 0xe0) * 4096 + (← continuation? b) * 64 + (← continuation? c))
        return c :: (← decode? rest)
      | _ => none
    else if n < 0xf8 then
      match rest with
      | b :: c :: d :: rest => do
        let c ← checked? 0x10000
          ((n - 0xf0) * 262144 + (← continuation? b) * 4096 + (← continuation? c) * 64 +
            (← continuation? d))
        return c :: (← decode? rest)
      | _ => none
    else none

end ApiReference.Utf8
