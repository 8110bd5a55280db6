import ApiReference.Text.Blank

/-! # Digits and whole numbers

The decimal digits of every script, the digits of larger bases, and the reading of a whole number
from a text: blanks around it, a sign, perhaps a mark of the base, and digits that single
underscores may separate. -/

namespace ApiReference

/-! ### Digits -/

/-- The digits zero of every script; each is followed by its nine companions. -/
def zeroDigits : List Nat :=
  [0x30, 0x660, 0x6f0, 0x7c0, 0x966, 0x9e6, 0xa66, 0xae6, 0xb66, 0xbe6, 0xc66, 0xce6, 0xd66, 0xde6,
   0xe50, 0xed0, 0xf20, 0x1040, 0x1090, 0x17e0, 0x1810, 0x1946, 0x19d0, 0x1a80, 0x1a90, 0x1b50,
   0x1bb0, 0x1c40, 0x1c50, 0xa620, 0xa8d0, 0xa900, 0xa9d0, 0xa9f0, 0xaa50, 0xabf0, 0xff10, 0x104a0,
   0x10d30, 0x11066, 0x110f0, 0x11136, 0x111d0, 0x112f0, 0x11450, 0x114d0, 0x11650, 0x116c0,
   0x11730, 0x118e0, 0x11950, 0x11c50, 0x11d50, 0x11da0, 0x16a60, 0x16ac0, 0x16b50, 0x1d7ce,
   0x1d7d8, 0x1d7e2, 0x1d7ec, 0x1d7f6, 0x1e140, 0x1e2f0, 0x1e950, 0x1fbf0]

/-- The value of a decimal digit. -/
def digitValue? (c : Char) : Option Nat :=
  if c.isDigit then some (c.toNat - 0x30)
  else (zeroDigits.find? fun start => start ≤ c.toNat && c.toNat < start + 10).map (c.toNat - ·)

/-- The value of a digit in a base; letters come after the ten digits. -/
def digitIn? (base : Nat) (c : Char) : Option Nat :=
  let value? :=
    if c.isDigit then some (c.toNat - 0x30)
    else if c.isLower then some (c.toNat - 0x61 + 10)
    else if c.isUpper then some (c.toNat - 0x41 + 10)
    else none
  value?.filter (· < base)

/-- The value of a hexadecimal digit. -/
def hexValue? (c : Char) : Option Nat := digitIn? 16 c

/-- A text whose decimal digits are all written in one script. -/
def withPlainDigits (x : Text) : Text :=
  x.map fun c => ((digitValue? c).map fun d => Char.ofNat (0x30 + d)).getD c

/-! ### Whole numbers -/

/-- Reads digits after a first one; an underscore must be followed by a digit. -/
def moreDigits? (base value : Nat) : Text → Option Nat
  | [] => some value
  | '_' :: c :: rest => (digitIn? base c).bind fun d => moreDigits? base (base * value + d) rest
  | c :: rest => (digitIn? base c).bind fun d => moreDigits? base (base * value + d) rest

/-- Reads a text of digits as a natural number. -/
def natural? (base : Nat) : Text → Option Nat
  | [] => none
  | c :: rest => (digitIn? base c).bind fun d => moreDigits? base d rest

/-- The letters that mark a base after a zero. -/
def baseMarks : List (Char × Nat) := [('b', 2), ('o', 8), ('x', 16)]

/-- The digits after the mark of a base, which an underscore may follow. -/
def dropBaseMark (base : Nat) : Text → Text
  | '0' :: c :: rest =>
    if baseMarks.lookup c.toLower == some base then
      match rest with
      | '_' :: digits => digits
      | digits => digits
    else '0' :: c :: rest
  | digits => digits

/-- A blank that may stand around a number; the information separators may not. -/
def isNumberBlank (c : Char) : Bool := isBlank c && !(0x1c ≤ c.toNat && c.toNat ≤ 0x1f)

/-- The most digits that a whole number of base ten can have. -/
def mostDigits : Nat := 4300

/-- Reads digits as a natural number in a base.  Base ten may be limited to so many digits. -/
def naturalWithin? (most : Option Nat) (base : Nat) (digits : Text) : Option Nat :=
  if base == 10 && most.any (· < (digits.filter (· != '_')).length) then none
  else natural? base (dropBaseMark base digits)

/-- Reads a text as a whole number in a base, with such a limit. -/
def wholeWithin? (most : Option Nat) (base : Nat) (x : Text) : Option Int :=
  match withPlainDigits (Text.trimWhile isNumberBlank x) with
  | '-' :: digits => (naturalWithin? most base digits).map fun n => -Int.ofNat n
  | '+' :: digits => (naturalWithin? most base digits).map Int.ofNat
  | digits => (naturalWithin? most base digits).map Int.ofNat

/-- Reads a text as a whole number in a base. -/
def wholeIn? (base : Nat) (x : Text) : Option Int := wholeWithin? (some mostDigits) base x

/-- Reads a text as a whole number. -/
def whole? (x : Text) : Option Int := wholeIn? 10 x

end ApiReference
