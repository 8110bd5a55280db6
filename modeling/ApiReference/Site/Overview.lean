import ApiReference.Page.Render
import ApiReference.Reference.Manifest

/-! # The overview

The page that lists all others: for each of them a heading, one line of description and a link, or
the table of members for an enum.  Entries are grouped by kind; several groups fold. -/

namespace ApiReference

/-- A finished page with the declaration it is about. -/
structure PageDetail where
  name : Text
  kind : Kind
  page : Document
deriving DecidableEq, Inhabited

/-- The groups of the overview in their order. -/
def overviewGroups : List (Text × Kind) :=
  navigationGroups ++ [(("Modules" : Text), Kind.moduleScope)]

namespace Overview

/-! ### Reading pages -/

/-- The least level of the headings among blocks. -/
def topLevel? (blocks : List Block) : Option Int :=
  ((blocks.filter fun block => block.kind == .heading).map (·.level)).min?

/-- The first heading of that level, and the blocks after it. -/
def cutAtLevel (level : Int) : List Block → Option (Block × List Block)
  | [] => none
  | block :: more =>
    if block.kind == .heading && block.level == level then some (block, more)
    else cutAtLevel level more

/-- The first heading of the least level, and the blocks after it. -/
def cutAtTop? (blocks : List Block) : Option (Block × List Block) :=
  (topLevel? blocks).bind fun level => cutAtLevel level blocks

/-- The blocks before the next heading. -/
def untilHeading (blocks : List Block) : List Block :=
  blocks.takeWhile fun block => block.kind != .heading

/-- What a line begins with that never serves as a description. -/
def skippedStarts : List Text := [['\x60'], ['>'], ['<'], ['*'], ['|'], ['-']]

/-- The first line that can serve as a description. -/
def descriptionLine? (lines : List Text) : Option Text :=
  (lines.map Text.strip).find? fun line =>
    !line.isEmpty && !skippedStarts.any fun start => line.startsWith start

/-- The first description outside all containers; `depth` is the number of open ones. -/
def firstDescription (depth : Nat) : List Block → Option Text
  | [] => none
  | block :: more =>
    if block.opens then firstDescription (depth + 1) more
    else if block.closes then firstDescription (depth - 1) more
    else if block.kind == .text && depth == 0 then
      match descriptionLine? (Text.lines block.text) with
      | some line => some line
      | none => firstDescription depth more
    else firstDescription depth more

/-- The first table among blocks. -/
def firstTable? (blocks : List Block) : Option Block :=
  blocks.find? fun block => block.kind == .text && block.text.stripStart.startsWith ['|']

/-! ### Entries -/

/-- The link to a page. -/
def pageLink (refs : ReferenceMap) (location : Text) : Block :=
  Block.paragraph ("[View full documentation →](" ++ refs.urlFor location ++ [')'])

/-- The entry of a page. -/
def entry (refs : ReferenceMap) (detail : PageDetail) : List Block :=
  let cut := cutAtTop? detail.page.blocks
  let name := match cut with
    | some (heading, _) => heading.text
    | none => detail.name
  let body := match cut with
    | some (_, after) => after
    | none => detail.page.blocks
  let description := (firstDescription 0 (untilHeading body)).getD
    ((detail.page.frontmatterValue? "description").getD [])
  let ending :=
    if detail.kind == .enumeration then (firstTable? body).toList
    else [pageLink refs detail.page.location]
  Block.heading 3 name :: Fragment.plainText description ++ ending

/-- The entries of each group that has some. -/
def sections (refs : ReferenceMap) (details : List PageDetail) : List (Text × List Block) :=
  (overviewGroups.map fun (title, kind) =>
    (title, (details.filter fun detail => detail.kind == kind).flatMap (entry refs))).filter
      fun (_, blocks) => !blocks.isEmpty

/-- The groups: one under a heading, several as foldable sections. -/
def arrange : List (Text × List Block) → List Block
  | [] => []
  | [(title, blocks)] => Block.heading 2 title :: blocks
  | several => Fragment.accordionGroup several

/-! ### The page -/

/-- The overview of finished pages. -/
def document (ctx : PageContext) (details : List PageDetail) (name description : Option Text) :
    Except TemplateFault Document := do
  let title := givenOr name defaultSiteName
  let shown := givenOr description ("Complete API reference for " ++ title ++ ['.'])
  let frontmatter ← Fragment.frontmatter ctx.layout title shown
  return {
    location := ctx.settings.indexPage
    title
    blocks := frontmatter :: arrange (sections ctx.refs details) }

/-- What making the overview has to say. -/
def log (ctx : PageContext) (details : List PageDetail) : Log :=
  [LogEntry.debug "postproc.overview"
    ("Summarized " ++ Text.ofNat (sections ctx.refs details).length ++
      " group(s) into " ++ ctx.settings.indexPage)]

end Overview

end ApiReference
