import ApiReference.Text.Blank

/-! # Blocks

The units that a document is made of.  Container tags are blocks of their own, one for the opening
and one for the closing tag, so a list of blocks can be unbalanced. -/

namespace ApiReference

/-- What a block is. -/
inductive BlockKind
  | frontmatter
  | heading
  | text
  | code
  | opening
  | closing
deriving DecidableEq, Inhabited, Repr

/-- One unit of a document.  The text of a heading is its title, that of a container tag the tag,
and that of any other block what is written. -/
structure Block where
  kind : BlockKind
  text : Text := []
  level : Int := 0
  name : Text := []
  selfClosing : Bool := false
deriving DecidableEq, Inhabited

namespace Block

/-! ### Making blocks -/

/-- A heading. -/
def heading (level : Int) (title : Text) : Block := { kind := .heading, text := title.strip, level }

/-- Running text. -/
def paragraph (text : Text) : Block := { kind := .text, text }

/-- Fenced code. -/
def code (code language : Text) : Block :=
  { kind := .code, text := "```" ++ language ++ '\n' :: code.stripEnd ++ "\n```" }

/-- An opening tag; a self-closing one has no content. -/
def openTag (name attributes : Text) (selfClosing : Bool) : Block :=
  let given := attributes.strip
  let shown := if given.isEmpty then [] else ' ' :: given
  { kind := .opening
    text := ['<'] ++ name ++ shown ++ (if selfClosing then [' ', '/', '>'] else ['>'])
    name
    selfClosing }

/-- A closing tag. -/
def closeTag (name : Text) : Block := { kind := .closing, text := "</" ++ name ++ ['>'], name }

/-! ### Reading blocks off -/

/-- The block opens a container that a closing tag must close. -/
def opens (block : Block) : Bool := block.kind == .opening && !block.selfClosing

/-- The block closes a container. -/
def closes (block : Block) : Bool := block.kind == .closing

/-- The block is a container tag. -/
def isContainer (block : Block) : Bool := block.kind == .opening || block.kind == .closing

/-- The block as it is written. -/
def render (block : Block) : Text :=
  if block.kind == .heading then List.replicate block.level.toNat '#' ++ ' ' :: block.text
  else block.text

/-- The containers that describe one field and stand tight around their content. -/
def isFieldName (name : Text) : Bool :=
  name == ("ParamField" : Text) || name == ("ResponseField" : Text)

/-- What stands between two blocks: an empty line, but inside a field only a line end. -/
def separator (before after : Block) : Text :=
  if before.opens && isFieldName before.name then ['\n']
  else if after.closes && isFieldName after.name then ['\n']
  else ['\n', '\n']

end Block

end ApiReference
