import ApiReference.Document.Block
import ApiReference.Text.Alphanumeric

/-! # Lines that are blocks

A line that is a heading or a container tag makes a block by itself.  Component names begin with a
capital letter of ASCII; a tag has to end where the line ends, and a quotation mark in it hides
everything up to the next mark of its sort. -/

namespace ApiReference

/-! ### Headings -/

/-- A heading has one to six number signs, a blank, and a title. -/
def headingLine? (stripped : Text) : Option Block :=
  let marks := stripped.takeWhile (· == '#')
  match stripped.dropWhile (· == '#') with
  | c :: rest =>
    if 1 ≤ marks.length && marks.length ≤ 6 && isBlank c then
      some (Block.heading marks.length rest)
    else none
  | [] => none

/-! ### Closing tags -/

/-- A component name at the start of a text, and what follows it. -/
def componentName? : Text → Option (Text × Text)
  | c :: rest =>
    if isAsciiCapital c then some (c :: rest.takeWhile isWordChar, rest.dropWhile isWordChar)
    else none
  | [] => none

/-- A closing tag holds a component name and nothing else. -/
def closingLine? (stripped : Text) : Option Block :=
  match stripped with
  | '<' :: '/' :: rest =>
    match componentName? rest with
    | some (name, ['>']) => some (Block.closeTag name)
    | _ => none
  | _ => none

/-! ### Opening tags -/

/-- Only blanks stand before the next closing angle bracket. -/
def meetsTagEnd (x : Text) : Bool := (x.dropWhile isBlank).head? == some '>'

/-- Reads attributes up to the end of the tag, which has to be the end of the text, and tells
whether the tag closes itself; `mark` is the quotation mark of the value being read. -/
def tagEnd? : Option Char → Text → Option Bool
  | _, [] => none
  | some mark, c :: rest => if c == mark then tagEnd? none rest else tagEnd? (some mark) rest
  | none, c :: rest =>
    if c == '>' then if rest.isEmpty then some false else none
    else if c == '\x22' || c == '\x27' then tagEnd? (some c) rest
    else if c == '/' && meetsTagEnd rest then if rest == ['>'] then some true else none
    else tagEnd? none rest

/-- An opening tag holds a component name, and attributes after a blank. -/
def openingLine? (stripped : Text) : Option Block :=
  match stripped with
  | '<' :: rest =>
    match componentName? rest with
    | none => none
    | some (name, after) =>
      let selfClosing? :=
        match after with
        | ['>'] => some false
        | ['/', '>'] => some true
        | c :: attributes => if isBlank c then tagEnd? none attributes else none
        | [] => none
      selfClosing?.map fun selfClosing =>
        { kind := .opening, text := stripped, name, selfClosing }
  | _ => none

/-- The block that a line makes by itself. -/
def lineBlock? (line : Text) : Option Block :=
  let stripped := line.strip
  headingLine? stripped <|> closingLine? stripped <|> openingLine? stripped

end ApiReference
