import ApiReference.Document.Tag

/-! # Documents

A document is a list of blocks with a location and a title.  It is written as a text and read from
one.  Inside fenced code no line means anything but the one that ends the code. -/

namespace ApiReference

/-- The blocks of one page, with its place in the site and its title. -/
structure Document where
  location : Text := []
  title : Text := []
  blocks : List Block := []
deriving DecidableEq, Inhabited

/-! ### Writing -/

namespace Block

/-- The blocks after a first one, each with what separates it from the one before. -/
def renderAfter (before : Block) : List Block → Text
  | [] => []
  | block :: more => separator before block ++ block.render ++ renderAfter block more

/-- Blocks written as a text that ends in one newline; no blocks make no text. -/
def renderAll : List Block → Text
  | [] => []
  | block :: more => Text.stripEnd (block.render ++ renderAfter block more) ++ ['\n']

end Block

/-! ### Reading -/

/-- The line begins or ends fenced code. -/
def isFence (line : Text) : Bool := line.strip.startsWith "```"

/-- The line bounds the frontmatter. -/
def isRule (line : Text) : Bool := line.strip == ("---" : Text)

/-- The lines of an unfinished block, the last one first. -/
inductive Pending
  | paragraph (lines : List Text)
  | fence (lines : List Text)

/-- The paragraph of the pending lines, if there are any. -/
def paragraphOf (lines : List Text) : List Block :=
  if lines.isEmpty then [] else [Block.paragraph (Text.unlines lines.reverse)]

/-- The code of the pending lines. -/
def fenceOf (lines : List Text) : Block := { kind := .code, text := Text.unlines lines.reverse }

/-- The blocks that lines make after an unfinished block. -/
def blocksOfLines : Pending → List Text → List Block
  | .paragraph lines, [] => paragraphOf lines
  | .fence lines, [] => [fenceOf lines]
  | .fence lines, line :: more =>
    if isFence line then
      fenceOf (line.stripEnd :: lines) :: blocksOfLines (.paragraph []) more
    else blocksOfLines (.fence (line.stripEnd :: lines)) more
  | .paragraph lines, line :: more =>
    if isFence line then paragraphOf lines ++ blocksOfLines (.fence [line.stripEnd]) more
    else if line.isAllBlank then paragraphOf lines ++ blocksOfLines (.paragraph []) more
    else
      match lineBlock? line with
      | some block => paragraphOf lines ++ block :: blocksOfLines (.paragraph []) more
      | none => blocksOfLines (.paragraph (line.stripEnd :: lines)) more

/-- Cuts lines after the first rule among them. -/
def cutAfterRule? : List Text → Option (List Text × List Text)
  | [] => none
  | line :: more =>
    if isRule line then some ([line], more)
    else (cutAfterRule? more).map fun (before, after) => (line :: before, after)

/-- The blocks that lines make.  A first line that is a rule begins the frontmatter, provided that
another rule ends it. -/
def blocksOfAll : List Text → List Block
  | [] => []
  | first :: more =>
    match if isRule first then cutAfterRule? more else none with
    | some (matter, rest) =>
      { kind := .frontmatter, text := Text.unlines (first :: matter) } ::
        blocksOfLines (.paragraph []) rest
    | none => blocksOfLines (.paragraph []) (first :: more)

/-! ### Frontmatter values -/

/-- The content of a double-quoted value after its opening mark, and what follows it.  A backslash
keeps the next character, which cannot be a line end, in the content. -/
def quotedContent? : Text → Option (Text × Text)
  | [] => none
  | '\x22' :: rest => some ([], rest)
  | ['\x5c'] => none
  | '\x5c' :: c :: rest =>
    if c == '\n' then none
    else (quotedContent? rest).map fun (content, after) => ('\x5c' :: c :: content, after)
  | c :: rest => (quotedContent? rest).map fun (content, after) => (c :: content, after)

/-- Drops the backslash before every quotation mark. -/
def unescapeMarks : Text → Text
  | [] => []
  | '\x5c' :: '\x22' :: rest => '\x22' :: unescapeMarks rest
  | c :: rest => c :: unescapeMarks rest

/-- The value of a key that stands right here: a quoted text that ends its line. -/
def valueHere? (key x : Text) : Option Text := do
  let afterKey ← Text.dropStart? (key ++ [':']) x
  match Text.stripStart afterKey with
  | '\x22' :: quoted =>
    let (content, after) ← quotedContent? quoted
    let gap := after.takeWhile isBlank
    if gap.contains '\n' || (after.dropWhile isBlank).isEmpty then some (unescapeMarks content)
    else none
  | _ => none

/-- The value of a key at the first line start that has one. -/
def valueFrom? (key : Text) : Bool → Text → Option Text
  | atLineStart, [] => if atLineStart then valueHere? key [] else none
  | atLineStart, c :: rest =>
    match if atLineStart then valueHere? key (c :: rest) else none with
    | some value => some value
    | none => valueFrom? key (c == '\n') rest

namespace Document

/-- The document as a text. -/
def toText (doc : Document) : Text := Block.renderAll doc.blocks

/-- The blocks that a text is made of. -/
def blocksOf (x : Text) : List Block := blocksOfAll (Text.lines x.unifyLineEnds)

/-- Reads a document. -/
def parse (x : Text) (location title : Text) : Document := { location, title, blocks := blocksOf x }

/-- The headings, all or those of one level. -/
def headings (doc : Document) (level? : Option Int) : List Block :=
  doc.blocks.filter fun block =>
    block.kind == .heading && (level?.all fun level => block.level == level)

/-- The value of a key in the frontmatter. -/
def frontmatterValue? (doc : Document) (key : Text) : Option Text :=
  doc.blocks.findSome? fun block =>
    if block.kind == .frontmatter then valueFrom? key true block.text else none

end Document

end ApiReference
