import ApiReference.Text.Printable
import ApiReference.Text.Basic

/-! # Quoted texts

The quoted form of a text in log lines and lists: between apostrophes, or between double quotes if
that saves escaping an apostrophe, with everything that would not print written as an escape. -/

namespace ApiReference

/-- The lower-case hexadecimal digits of a number, filled up with zeros to a width. -/
def hexDigits (width n : Nat) : Text :=
  let digits := Nat.toDigits 16 n
  List.replicate (width - digits.length) '0' ++ digits

/-- A character by its number: the shortest of the three escapes that can write it. -/
def codeForm (c : Char) : Text :=
  if c.toNat ≤ 0xff then "\\x" ++ hexDigits 2 c.toNat
  else if c.toNat ≤ 0xffff then "\\u" ++ hexDigits 4 c.toNat
  else "\\U" ++ hexDigits 8 c.toNat

/-- One character inside the given quotation mark. -/
def quotedChar (mark c : Char) : Text :=
  if c == mark || c == '\x5c' then ['\x5c', c]
  else if c == '\t' then "\\t"
  else if c == '\n' then "\\n"
  else if c == '\r' then "\\r"
  else if isPrintable c then [c]
  else codeForm c

namespace Text

/-- The quotation mark a text is quoted with. -/
def quotationMark (x : Text) : Char :=
  if x.contains '\x27' && !x.contains '\x22' then '\x22' else '\x27'

/-- The text in quotation marks. -/
def quoted (x : Text) : Text :=
  let mark := quotationMark x
  [mark] ++ x.flatMap (quotedChar mark) ++ [mark]

end Text

end ApiReference
