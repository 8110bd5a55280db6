import ApiReference.Text.Basic

/-! # Reading positions

A position in a text that is read once from start to end: the text that remains, and where in its
lines the position lies.  Indentation decides the structure of the texts that are read this way. -/

namespace ApiReference.Yaml

/-- Why a text is not read as a value. -/
inductive Fault
  /-- The text breaks the rules of the notation. -/
  | malformed
  /-- A scalar does not hold what its tag asks for. -/
  | badScalar
  /-- An empty scalar is tagged as a number. -/
  | emptyScalar
  /-- A scalar that is tagged as a truth value is no word for one. -/
  | unknownTruth
  /-- A scalar that is tagged as a date is not written like one. -/
  | unknownDate
  /-- An escape writes a number that is too large even to be looked at. -/
  | hugeEscape
deriving DecidableEq, Inhabited, Repr

/-- The characters that end a line. -/
def isBreak (c : Char) : Bool :=
  c == '\n' || c == '\r' || c == '\u0085' || c == '\u2028' || c == '\u2029'

/-- The character, or the end of the text, ends a word. -/
def endsWord (c? : Option Char) : Bool := c?.all fun c => c == ' ' || c == '\t' || isBreak c

/-- A reading position. -/
structure Cursor where
  rest : Text
  index : Nat := 0
  line : Nat := 0
  column : Nat := 0
deriving Inhabited

namespace Cursor

/-- The next character. -/
def peek (cursor : Cursor) : Option Char := cursor.rest.head?

/-- The character that many places ahead. -/
def peekAt (cursor : Cursor) (n : Nat) : Option Char := cursor.rest[n]?

/-- The next character is that one. -/
def sees (cursor : Cursor) (c : Char) : Bool := cursor.peek == some c

/-- The next character is one of these. -/
def seesAny (cursor : Cursor) (cs : Text) : Bool := cursor.peek.any cs.contains

/-- The next character ends a line. -/
def atBreak (cursor : Cursor) : Bool := cursor.peek.any isBreak

/-- Nothing remains. -/
def atEnd (cursor : Cursor) : Bool := cursor.rest.isEmpty

/-- Moves past one character.  A carriage return before a newline does not end a line by itself, and
a byte order mark takes no column. -/
def next (cursor : Cursor) : Cursor :=
  match cursor.rest with
  | [] => cursor
  | c :: rest =>
    let index := cursor.index + 1
    if isBreak c && !(c == '\r' && rest.head? == some '\n') then
      { rest, index, line := cursor.line + 1, column := 0 }
    else
      { rest, index, line := cursor.line
        column := if c == '\ufeff' then cursor.column else cursor.column + 1 }

/-- Moves past that many characters. -/
def skip (cursor : Cursor) : Nat → Cursor
  | 0 => cursor
  | n + 1 => cursor.next.skip n

/-- Moves past the longest run of characters that satisfy `p`. -/
def dropWhile (cursor : Cursor) (p : Char → Bool) : Cursor :=
  cursor.skip (cursor.rest.takeWhile p).length

/-- The longest run of characters that satisfy `p`, and the position after it. -/
def span (cursor : Cursor) (p : Char → Bool) : Text × Cursor :=
  (cursor.rest.takeWhile p, cursor.dropWhile p)

/-- Takes a line end, which is read as a newline unless it is a separator of lines or
paragraphs. -/
def lineBreak (cursor : Cursor) : Text × Cursor :=
  match cursor.rest with
  | '\r' :: '\n' :: _ => (['\n'], cursor.skip 2)
  | c :: _ =>
    if c == '\u2028' || c == '\u2029' then ([c], cursor.next)
    else if isBreak c then (['\n'], cursor.next)
    else ([], cursor)
  | [] => ([], cursor)

/-- Three equal marks that end a document, or begin one, stand here. -/
def atSeparator (cursor : Cursor) : Bool :=
  (cursor.rest.startsWith "---" || cursor.rest.startsWith "...") && endsWord (cursor.peekAt 3)

/-- Moves past blanks and a comment up to the end of the line. -/
def skipComment (cursor : Cursor) : Cursor :=
  if cursor.sees '#' then cursor.dropWhile fun c => !isBreak c else cursor

end Cursor

end ApiReference.Yaml
