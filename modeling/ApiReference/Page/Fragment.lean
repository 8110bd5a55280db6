import ApiReference.Document.Basic
import ApiReference.Markup.Inline
import ApiReference.Markup.Prose
import ApiReference.Page.Layout

/-! # Fragments of pages

Builders for the parts of a page: containers with their tags around given blocks, frontmatter,
tables, tables of contents, and blocks made from texts. -/

namespace ApiReference.Fragment

/-! ### Blocks of texts -/

/-- The blocks of a text, without frontmatter. -/
def richText (x : Text) : List Block :=
  (Document.blocksOf x).filter fun block => block.kind != .frontmatter

/-- Blocks whose closing paragraph ends in a final mark. -/
def punctuate : List Block → List Block
  | [] => []
  | [last] =>
    if last.kind == .text then [Block.paragraph (Markup.ensurePeriod last.text)] else [last]
  | block :: more => block :: punctuate more

/-- The blocks of a text, the closing paragraph ending in a final mark. -/
def prose (x : Text) : List Block := punctuate (richText x)

/-- A text as one paragraph, unless it is empty. -/
def plainText (x : Text) : List Block := if x.isEmpty then [] else [Block.paragraph x]

/-! ### Containers -/

/-- Blocks in a container. -/
def wrap (name : Text) (content : List Block) (attributes : Text) : List Block :=
  Block.openTag name attributes false :: content ++ [Block.closeTag name]

/-- An attribute with its value, which is escaped. -/
def attr (name value : Text) : Text :=
  name ++ "=\"" ++ Markup.attributeValue value ++ ['\x22']

/-- A flag among attributes. -/
def flag (name : Text) (isSet : Bool) : Text := if isSet then ' ' :: name else []

/-- A foldable section. -/
def accordion (title : Text) (content : List Block) : List Block :=
  wrap "Accordion" content (attr "title" title)

/-- Foldable sections side by side. -/
def accordionGroup (items : List (Text × List Block)) : List Block :=
  wrap "AccordionGroup" (items.flatMap fun (title, content) => accordion title content) []

/-- A part that can be shown and hidden. -/
def expandable (title : Text) (content : List Block) (isOpen : Bool) : List Block :=
  wrap "Expandable" content (attr "title" title ++ flag "defaultOpen" isOpen)

/-- A parameter at a place of a request, with its type. -/
def paramField (place name type : Text) (content : List Block) (required : Bool) : List Block :=
  wrap "ParamField" content
    (attr place name ++ [' '] ++ attr "type" type ++ flag "required" required)

/-- A field of a result, with its type. -/
def responseField (name type : Text) (content : List Block) (required : Bool) : List Block :=
  wrap "ResponseField" content
    (attr "name" name ++ [' '] ++ attr "type" type ++ flag "required" required)

/-- The container of each sort of callout; a sort that is not known makes a note. -/
def calloutName (sort : Text) : Text :=
  if sort == ("info" : Text) then "Info"
  else if sort == ("warning" : Text) then "Warning"
  else if sort == ("tip" : Text) then "Tip"
  else if sort == ("check" : Text) then "Check"
  else "Note"

/-- A callout, with a title if there is one. -/
def callout (sort : Text) (content : List Block) (title : Text) : List Block :=
  wrap (calloutName sort) content (if title.isEmpty then [] else attr "title" title)

/-- Code with a language and a title. -/
structure CodeSample where
  code : Text
  language : Text
  title : Text

/-- Several pieces of code, one of which is shown at a time. -/
def codeGroup (samples : List CodeSample) : List Block :=
  wrap "CodeGroup"
    (samples.map fun sample => Block.code sample.code (sample.language ++ ' ' :: sample.title)) []

/-! ### Fragments with a layout -/

/-- The frontmatter of a page. -/
def frontmatter (layout : Layout) (title description : Text) : Except TemplateFault Block := do
  let text ← layout.frontmatter (Markup.attributeValue title)
    (Text.strip (Markup.attributeValue description))
  return { kind := .frontmatter, text }

/-- The escape of a character in a table cell. -/
def cellChar (c : Char) : Text :=
  if c == '|' then ['\x5c', '|'] else if c == '\n' then [' '] else [c]

/-- A table cell, on one line and with its vertical bars escaped. -/
def cell (x : Text) : Text := Text.strip (x.flatMap cellChar)

/-- A table. -/
def table (layout : Layout) (headers : List Text) (rows : List (List Text)) :
    Except TemplateFault Block := do
  return Block.paragraph (← layout.table headers (rows.map fun row => row.map cell))

/-- A table of contents, unless there is nothing to list. -/
def contents (layout : Layout) (titles : List Text) : Except TemplateFault (List Block) := do
  if titles.isEmpty then return []
  let links ← layout.contents (titles.map fun title => (title, Markup.anchor title))
  return [Block.openTag "Toc" [] false, Block.paragraph links, Block.closeTag "Toc"]

end ApiReference.Fragment
