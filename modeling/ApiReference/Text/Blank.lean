import ApiReference.Text.Basic

/-! # Blank characters

The characters that count as white space: the ASCII blanks and line ends, the four information
separators, and the blank characters of Unicode.  Trimming a text and cutting it into words go by
this class alone.

Main statement: words are cut at every blank (`words_append_cons`). -/

namespace ApiReference

/-- The blank characters.  The zero-width space and the byte order mark are not among them. -/
def isBlank (c : Char) : Bool :=
  let n := c.toNat
  (0x09 ≤ n && n ≤ 0x0d) || (0x1c ≤ n && n ≤ 0x20) || n == 0x85 || n == 0xa0 || n == 0x1680 ||
    (0x2000 ≤ n && n ≤ 0x200a) || n == 0x2028 || n == 0x2029 || n == 0x202f || n == 0x205f ||
    n == 0x3000

namespace Text

/-- The text without the blanks at its start. -/
def stripStart (x : Text) : Text := x.dropWhile isBlank

/-- The text without the blanks at its end. -/
def stripEnd (x : Text) : Text := dropEndWhile isBlank x

/-- The text without the blanks at both ends. -/
def strip (x : Text) : Text := trimWhile isBlank x

/-- The text holds blanks only. -/
def isAllBlank (x : Text) : Bool := x.all isBlank

/-- The longest runs of characters that are not blank. -/
def words (x : Text) : List Text := (splitWhere isBlank x).filter fun piece => !piece.isEmpty

/-- The words of a text with one space between each two. -/
def singleSpaced (x : Text) : Text := joinWith [' '] (words x)

/-- No word runs across a blank. -/
theorem words_append_cons {c : Char} (h : isBlank c = true) (x y : Text) :
    words (x ++ c :: y) = words x ++ words y := by
  unfold words
  rw [splitWhere_append_cons h, List.filter_append]

end Text

end ApiReference
