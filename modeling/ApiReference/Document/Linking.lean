import ApiReference.Document.Basic
import ApiReference.Markup.Inline
import ApiReference.Reference.Map
import ApiReference.Log

/-! # Linking literal spans

Turns literal spans that mention a known name into links.  A line is seen as its literal spans, each
with the text before it, and the text after the last one.  A span that is exactly a name is linked
where it names a parameter or stands free; a span that holds a name in angle brackets is linked
there.  Longer names are tried first.  Code, headings and tags stay as they are. -/

namespace ApiReference

/-! ### Lines with literal spans -/

/-- A literal span without its backticks, and the text between the span before and it. -/
structure Span where
  before : Text
  inner : Text
deriving DecidableEq, Inhabited

/-- A line as its literal spans and what follows the last one. -/
structure SpanLine where
  spans : List Span
  tail : Text
deriving DecidableEq, Inhabited

namespace SpanLine

/-- Pairs up the pieces between backticks; a last backtick without a partner is plain text. -/
def ofPieces : List Text → SpanLine
  | [] => ⟨[], []⟩
  | [tail] => ⟨[], tail⟩
  | [before, rest] => ⟨[], before ++ '\x60' :: rest⟩
  | before :: inner :: more =>
    let rest := ofPieces more
    ⟨⟨before, inner⟩ :: rest.spans, rest.tail⟩

/-- Reads a line. -/
def ofText (line : Text) : SpanLine := ofPieces (Text.split '\x60' line)

/-- A literal span as it is written. -/
def literal (inner : Text) : Text := '\x60' :: inner ++ ['\x60']

/-- Writes a line, with the given text for each span. -/
def render (write : Span → Text → Text) (tail : Text) : List Span → Text
  | [] => tail
  | [span] => span.before ++ write span tail ++ tail
  | span :: next :: more => span.before ++ write span next.before ++ render write tail (next :: more)

end SpanLine

/-! ### When a span is linked -/

/-- The text ends in a word. -/
def endsInWord (x : Text) : Bool := x.getLast?.any isWordChar

/-- The text ends in a word in bold. -/
def endsInBoldWord (x : Text) : Bool :=
  match x.reverse with
  | '*' :: '*' :: rest =>
    !(rest.takeWhile isWordChar).isEmpty && Text.startsWith (rest.dropWhile isWordChar) "**"
  | _ => false

/-- The text ends in what introduces the type of a parameter: its name, perhaps with a question mark
or in bold, a colon and a blank. -/
def endsInParameter (x : Text) : Bool :=
  match x.reverse with
  | ' ' :: ':' :: '?' :: rest => endsInWord rest.reverse
  | ' ' :: ':' :: rest => endsInWord rest.reverse || endsInBoldWord rest.reverse
  | _ => false

/-- A word can begin after this text. -/
def endsFree (before : Text) : Bool := before.getLast?.all isBlank

/-- A word can end before this text. -/
def startsFree (after : Text) : Bool :=
  after.head?.all fun c =>
    isBlank c || c == '.' || c == ',' || c == ';' || c == ':' || c == ')' || c == '>'

/-- A name linked to its page. -/
def linkTo (name href : Text) : Text := '[' :: name ++ "](" ++ href ++ [')']

/-- The link form of a span for one name, if the name is to be linked there. -/
def linkedSpan? (inner before after name href : Text) : Option Text :=
  if inner == name then
    if endsInParameter before then some (linkTo (SpanLine.literal name) href)
    else if endsFree before && startsFree after then some (linkTo name href)
    else none
  else
    (Text.cutAt? (['<'] ++ name ++ ['>']) inner).map fun (start, rest) =>
      Markup.escapeInline (start ++ ['<']) ++ linkTo name href ++
        Markup.escapeInline ('>' :: rest)

/-- Names with the addresses they lead to, in the order in which they are tried. -/
abbrev LinkTable := List (Text × Option Text)

/-- The link form of a span for the first name that has one; a name without address is passed
over. -/
def linkSpan? (table : LinkTable) (inner before after : Text) : Option Text :=
  table.findSome? fun (name, href?) =>
    match href? with
    | some href => if href.isEmpty then none else linkedSpan? inner before after name href
    | none => none

/-- A span, linked or as it is. -/
def linkSpan (table : LinkTable) (span : Span) (after : Text) : Text :=
  (linkSpan? table span.inner span.before after).getD (SpanLine.literal span.inner)

/-! ### Lines, blocks and documents -/

/-- A line with its spans linked. -/
def linkLine (table : LinkTable) (line : Text) : Text :=
  let spanLine := SpanLine.ofText line
  SpanLine.render (linkSpan table) spanLine.tail spanLine.spans

/-- Lines with their spans linked, except inside fences. -/
def linkLines (table : LinkTable) : Bool → List Text → List Text
  | _, [] => []
  | inFence, line :: more =>
    if isFence line then line :: linkLines table (!inFence) more
    else (if inFence then line else linkLine table line) :: linkLines table inFence more

/-- Running text with its spans linked. -/
def linkText (table : LinkTable) (x : Text) : Text :=
  Text.unlines (linkLines table false (Text.lines x))

/-- A block with its spans linked, if it is running text. -/
def linkBlock (table : LinkTable) (block : Block) : Block :=
  if block.kind == .text then
    let text := linkText table block.text
    if text == block.text then block else Block.paragraph text
  else block

namespace ReferenceMap

/-- The names with their addresses, the longest names first. -/
def linkTable (refs : ReferenceMap) : LinkTable :=
  refs.namesLongestFirst.map fun name => (name, refs.href? name)

end ReferenceMap

namespace Document

/-- The document with its spans linked. -/
def link (table : LinkTable) (doc : Document) : Document :=
  { doc with blocks := doc.blocks.map (linkBlock table) }

/-- The number of blocks that linking changes. -/
def linkedCount (table : LinkTable) (doc : Document) : Nat :=
  (doc.blocks.filter fun block =>
    block.kind == .text && linkText table block.text != block.text).length

/-- What linking has to say. -/
def linkLog (table : LinkTable) (doc : Document) : Log :=
  let changed := doc.linkedCount table
  let shown := if doc.location.isEmpty then doc.title else doc.location
  if changed == 0 then []
  else
    [LogEntry.debug "postproc.links"
      ("Linked references in " ++ Text.ofNat changed ++ " block(s) of " ++ shown)]

end Document

end ApiReference
