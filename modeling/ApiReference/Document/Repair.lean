import ApiReference.Document.Basic
import ApiReference.Log

/-! # Repairing documents

Three passes make a list of blocks presentable.  Balancing drops closing tags that match nothing and
opening tags that are never closed or are jumped over.  Demoting turns headings that are too deep
into bold text.  Cleaning tidies the blanks of running text and drops text and fields that are left
empty. -/

namespace ApiReference

/-! ### Balancing -/

/-- An opening tag that waits for its closing tag, with the blocks since, the last one first. -/
structure Frame where
  opening : Block
  inner : List Block

/-- The state of balancing: the blocks outside every open container, the last one first; the open
containers, the innermost one first; and what was dropped so far. -/
structure Sweep where
  outer : List Block := []
  frames : List Frame := []
  notes : List Text := []

/-- The name of a container whose stray closing tags are kept. -/
def isKeptWhenStray (name : Text) : Bool := name == ("CodeGroup" : Text)

namespace Sweep

/-- Puts blocks, the last one first, into the innermost open container. -/
def add (blocks : List Block) (sweep : Sweep) : Sweep :=
  match sweep.frames with
  | [] => { sweep with outer := blocks ++ sweep.outer }
  | frame :: more => { sweep with frames := { frame with inner := blocks ++ frame.inner } :: more }

/-- Some open container has that name. -/
def hasOpen (name : Text) (sweep : Sweep) : Bool :=
  sweep.frames.any fun frame => frame.opening.name == name

/-- Closes the innermost container of that name.  Containers inside it lose their opening tags and
leave their blocks to it; `loose` holds those already set free. -/
def closeThrough (closing : Block) (outer : List Block) (notes : List Text) (loose : List Block) :
    List Frame → Sweep
  | [] => { outer := loose ++ outer, notes }
  | frame :: more =>
    if frame.opening.name == closing.name then
      add (closing :: (loose ++ frame.inner ++ [frame.opening])) { outer, frames := more, notes }
    else
      closeThrough closing outer
        (notes ++ ["Dropping <" ++ frame.opening.name ++ "> closed out of order"])
        (loose ++ frame.inner) more

/-- Takes the next block in. -/
def step (sweep : Sweep) (block : Block) : Sweep :=
  if block.opens then { sweep with frames := ⟨block, []⟩ :: sweep.frames }
  else if block.closes then
    if sweep.hasOpen block.name then
      closeThrough block sweep.outer sweep.notes [] sweep.frames
    else if isKeptWhenStray block.name then sweep.add [block]
    else { sweep with notes := sweep.notes ++ ["Dropping unmatched </" ++ block.name ++ ['>']] }
  else sweep.add [block]

/-- Sets the blocks of all open containers free; the last one comes first. -/
def remaining (sweep : Sweep) : List Block :=
  sweep.frames.flatMap (·.inner) ++ sweep.outer

/-- What is said about the containers that stay open, the outermost one first. -/
def finalNotes (sweep : Sweep) : List Text :=
  sweep.frames.reverse.map fun frame => "Dropping unclosed <" ++ frame.opening.name ++ ['>']

/-- Takes all blocks in. -/
def run (blocks : List Block) : Sweep := blocks.foldl step {}

end Sweep

/-- The blocks without the tags that match nothing. -/
def balance (blocks : List Block) : List Block := (Sweep.run blocks).remaining.reverse

/-- What balancing has to say about the tags it drops. -/
def balanceNotes (blocks : List Block) : List Text :=
  let sweep := Sweep.run blocks
  sweep.notes ++ sweep.finalNotes

/-! ### Demoting -/

/-- Headings above the greatest level become bold text. -/
def demote (maxLevel : Int) (block : Block) : Block :=
  if block.kind == .heading && maxLevel < block.level then
    Block.paragraph ("**" ++ block.text ++ "**")
  else block

/-! ### Cleaning -/

/-- The line holds spaces and tabs only. -/
def isSpaceLine (line : Text) : Bool := line.all fun c => c == ' ' || c == '\t'

/-- A run of space lines, the last one first, is cut down to two if it has four or more. -/
def shortenRun (run : List Text) : List Text :=
  if 4 ≤ run.length then [[], []] else run.reverse

/-- Shortens the runs of space lines; `run` holds the current one.  The last line belongs to no
run. -/
def collapseAfter (run : List Text) : List Text → List Text
  | [] => run.reverse
  | [last] => shortenRun run ++ [last]
  | line :: more =>
    if isSpaceLine line then collapseAfter (line :: run) more
    else shortenRun run ++ line :: collapseAfter [] more

/-- Shortens the runs of space lines after the first line. -/
def collapseRuns : List Text → List Text
  | [] => []
  | first :: more => first :: collapseAfter [] more

/-- Running text with short runs of empty lines, no blanks at line ends, and no empty lines at its
ends. -/
def cleanText (x : Text) : Text :=
  Text.trimWhile (· == '\n')
    (Text.unlines ((collapseRuns (Text.lines x)).map Text.stripEnd))

/-- The block is the opening tag that this closing tag would leave without content. -/
def wouldEmpty (closing before : Block) : Bool :=
  closing.closes && Block.isFieldName closing.name && before.opens && before.name == closing.name

/-- Adds a block to those already cleaned, the last one first; a closing tag right after the opening
tag of its field takes that with it. -/
def addCleaned (cleaned : List Block) (block : Block) : List Block :=
  match cleaned with
  | before :: more => if wouldEmpty block before then more else block :: cleaned
  | [] => [block]

/-- A block with its text cleaned, unless nothing is left of it. -/
def cleanBlock? (block : Block) : Option Block :=
  if block.kind == .text then
    let text := cleanText block.text
    if text.isAllBlank then none
    else some (if text == block.text then block else Block.paragraph text)
  else some block

/-- The cleaned blocks. -/
def clean (blocks : List Block) : List Block :=
  ((blocks.filterMap cleanBlock?).foldl addCleaned []).reverse

/-! ### All passes -/

/-- The repaired blocks. -/
def repairBlocks (maxLevel : Int) (blocks : List Block) : List Block :=
  clean ((balance blocks).map (demote maxLevel))

namespace Document

/-- The repaired document. -/
def repair (maxLevel : Int) (doc : Document) : Document :=
  { doc with blocks := repairBlocks maxLevel doc.blocks }

/-- What repairing has to say. -/
def repairLog (doc : Document) : Log :=
  (balanceNotes doc.blocks).map (LogEntry.debug "postproc.repair")

end Document

end ApiReference
