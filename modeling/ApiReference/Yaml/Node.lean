import ApiReference.Yaml.Token

/-! # Nodes

The tree that tokens stand for.  A node carries the tag it was given, or the tag that follows from
how it is written; a name given to a node stands for it further on.  Where a node is left out, an
empty plain scalar takes its place. -/

namespace ApiReference.Yaml

/-- A node.  The tag of a scalar may still have to be found from its text. -/
inductive Node
  | scalar (tag : Option Text) (value : Text)
  | sequence (tag : Option Text) (items : List Node)
  | mapping (tag : Option Text) (pairs : List (Node × Node))
deriving Inhabited

namespace Node

/-- What the tags of the notation itself begin with. -/
def coreTag (name : Text) : Text := "tag:yaml.org,2002:" ++ name

/-- A node that is left out. -/
def absent : Node := .scalar none []

/-- What a name stands for inside the collection that it is given to. -/
def unfinished : Node := .mapping none []

/-- The state of reading nodes: the tokens to come, the nodes that have names, and the starts of tags
that handles stand for. -/
structure State where
  tokens : List Token
  /-- What is wrong with the text after the tokens. -/
  fault : Option Fault := none
  names : List (Text × Node) := []
  handles : List (Text × Text) := []

/-- Reading nodes. -/
abbrev Reader := StateT State (Except Fault)

namespace Reader

/-- The text breaks the rules. -/
def fail {α : Type} : Reader α := throw .malformed

/-- The next token. -/
def peek : Reader Token := do
  let state ← get
  match state.tokens, state.fault with
  | token :: _, _ => return token
  | [], some fault => throw fault
  | [], none => return .streamEnd

/-- Moves past the next token. -/
def advance : Reader Unit := modify fun state => { state with tokens := state.tokens.drop 1 }

/-- The next token is one of these. -/
def sees (tokens : List Token) : Reader Bool := do return tokens.contains (← peek)

/-- Moves past the next token if it is that one. -/
def accept (token : Token) : Reader Bool := do
  if (← peek) == token then
    advance
    return true
  else return false

/-- The node that a name stands for. -/
def named (name : Text) : Reader Node := do
  match (← get).names.lookup name with
  | some node => return node
  | none => fail

/-- Makes a name stand for a node. -/
def giveName (name : Option Text) (node : Node) : Reader Unit := do
  match name with
  | none => pure ()
  | some name => modify fun state => { state with names := (name, node) :: state.names }

/-- Takes a name for a node that is still to be read; a name can be given once. -/
def takeName (name : Option Text) : Reader Unit := do
  match name with
  | none => pure ()
  | some given =>
    if ((← get).names.lookup given).isSome then fail
    giveName name unfinished

/-- The whole tag that a handle and the rest of a tag stand for. -/
def fullTag (handle : Option Text) (rest : Text) : Reader Text := do
  match handle with
  | none => return rest
  | some handle =>
    match (← get).handles.lookup handle with
    | some start => return start ++ rest
    | none => fail

end Reader

/-- The name and the tag of a node. -/
structure Properties where
  name : Option Text := none
  tag : Option Text := none

/-- Reads the name and the tag of a node, in either order. -/
def properties : Reader Properties := do
  match ← Reader.peek with
  | .anchor name => do
    Reader.advance
    match ← Reader.peek with
    | .tag handle rest => do
      Reader.advance
      return { name, tag := ← Reader.fullTag handle rest }
    | _ => return { name }
  | .tag handle rest => do
    Reader.advance
    match ← Reader.peek with
    | .anchor name => do
      Reader.advance
      return { name, tag := ← Reader.fullTag handle rest }
    | _ => return { tag := ← Reader.fullTag handle rest }
  | _ => return {}

/-- The tag of a written scalar: one in quotation marks or in a block is a text unless it has
another tag, and an exclamation mark alone is no tag. -/
def scalarTag (plain : Bool) : Option Text → Option Text
  | none => if plain then none else some (coreTag "str")
  | some ['!'] => none
  | some tag => some tag

/-- An exclamation mark alone is no tag. -/
def collectionTag (tag : Option Text) : Option Text := tag.filter fun tag => tag != ['!']

/-- Where a node stands. -/
inductive Place
  /-- Among indented lines. -/
  | block
  /-- In a block mapping, where a sequence need not be indented further. -/
  | inMapping
  /-- Inside brackets. -/
  | flow
deriving DecidableEq, Inhabited

mutual

/-- Reads a node. -/
def read (place : Place) : Nat → Reader Node
  | 0 => Reader.fail
  | fuel + 1 => do
    match ← Reader.peek with
    | .reference name => do
      Reader.advance
      Reader.named name
    | _ => do
      let given ← properties
      let _ ← Reader.peek
      Reader.takeName given.name
      let node ← readContent place given fuel
      Reader.giveName given.name node
      return node

/-- Reads a node after its name and tag. -/
def readContent (place : Place) (given : Properties) : Nat → Reader Node
  | 0 => Reader.fail
  | fuel + 1 => do
    match ← Reader.peek with
    | .blockEntry =>
      if place == .inMapping then return .sequence (collectionTag given.tag) (← readTight fuel)
      else readAbsent given
    | .scalar plain value => do
      Reader.advance
      return .scalar (scalarTag plain given.tag) value
    | .flowSequenceStart => do
      Reader.advance
      return .sequence (collectionTag given.tag) (← readFlowItems true fuel)
    | .flowMappingStart => do
      Reader.advance
      return .mapping (collectionTag given.tag) (← readFlowPairs true fuel)
    | .blockSequenceStart =>
      if place == .flow then readAbsent given
      else do
        Reader.advance
        return .sequence (collectionTag given.tag) (← readItems fuel)
    | .blockMappingStart =>
      if place == .flow then readAbsent given
      else do
        Reader.advance
        return .mapping (collectionTag given.tag) (← readPairs fuel)
    | _ => readAbsent given

/-- A node that has only a name or a tag is an empty scalar. -/
def readAbsent (given : Properties) : Reader Node :=
  if given.name.isSome || given.tag.isSome then return .scalar (scalarTag true given.tag) []
  else Reader.fail

/-- Reads a node unless one of these tokens follows at once. -/
def readUnless (place : Place) (ends : List Token) : Nat → Reader Node
  | 0 => Reader.fail
  | fuel + 1 => do
    if ← Reader.sees ends then return absent
    read place fuel

/-- Reads the items of an indented sequence up to its end. -/
def readItems : Nat → Reader (List Node)
  | 0 => Reader.fail
  | fuel + 1 => do
    if ← Reader.accept .blockEntry then
      let item ← readUnless .block [.blockEntry, .blockEnd] fuel
      return item :: (← readItems fuel)
    else if ← Reader.accept .blockEnd then return []
    else Reader.fail

/-- Reads the items of a sequence that is not indented further than its mapping. -/
def readTight : Nat → Reader (List Node)
  | 0 => Reader.fail
  | fuel + 1 => do
    if ← Reader.accept .blockEntry then
      let item ← readUnless .block [.blockEntry, .key, .value, .blockEnd] fuel
      return item :: (← readTight fuel)
    else return []

/-- Reads the pairs of an indented mapping up to its end. -/
def readPairs : Nat → Reader (List (Node × Node))
  | 0 => Reader.fail
  | fuel + 1 => do
    let ends := [Token.key, .value, .blockEnd]
    if ← Reader.accept .key then
      let key ← readUnless .inMapping ends fuel
      let value ←
        if ← Reader.accept .value then readUnless .inMapping ends fuel else pure absent
      return (key, value) :: (← readPairs fuel)
    else if ← Reader.accept .blockEnd then return []
    else Reader.fail

/-- Reads the items of a sequence in brackets. -/
def readFlowItems (first : Bool) : Nat → Reader (List Node)
  | 0 => Reader.fail
  | fuel + 1 => do
    if ← Reader.accept .flowSequenceEnd then return []
    if !first then
      if !(← Reader.accept .flowEntry) then Reader.fail
    if ← Reader.accept .flowSequenceEnd then return []
    if ← Reader.accept .key then
      let key ← readUnless .flow [.value, .flowEntry, .flowSequenceEnd] fuel
      let value ←
        if ← Reader.accept .value then readUnless .flow [.flowEntry, .flowSequenceEnd] fuel
        else pure absent
      return .mapping none [(key, value)] :: (← readFlowItems false fuel)
    else
      let item ← read .flow fuel
      return item :: (← readFlowItems false fuel)

/-- Reads the pairs of a mapping in braces. -/
def readFlowPairs (first : Bool) : Nat → Reader (List (Node × Node))
  | 0 => Reader.fail
  | fuel + 1 => do
    if ← Reader.accept .flowMappingEnd then return []
    if !first then
      if !(← Reader.accept .flowEntry) then Reader.fail
    if ← Reader.accept .flowMappingEnd then return []
    if ← Reader.accept .key then
      let key ← readUnless .flow [.value, .flowEntry, .flowMappingEnd] fuel
      let value ←
        if ← Reader.accept .value then readUnless .flow [.flowEntry, .flowMappingEnd] fuel
        else pure absent
      return (key, value) :: (← readFlowPairs false fuel)
    else
      let key ← read .flow fuel
      return (key, absent) :: (← readFlowPairs false fuel)

end

/-! ### Documents -/

/-- The handles that every document has. -/
def standardHandles : List (Text × Text) := [("!", "!"), ("!!", coreTag [])]

/-- Reads directives up to the start of a document; each of them can come once. -/
def readDirectives (version : Bool) (handles : List (Text × Text)) : Nat → Reader Unit
  | 0 => Reader.fail
  | fuel + 1 => do
    match ← Reader.peek with
    | .versionDirective major => do
      if version || major != 1 then Reader.fail
      Reader.advance
      readDirectives true handles fuel
    | .tagDirective handle start => do
      if (handles.lookup handle).isSome then Reader.fail
      Reader.advance
      readDirectives version ((handle, start) :: handles) fuel
    | .otherDirective => do
      Reader.advance
      readDirectives version handles fuel
    | _ => modify fun state => { state with handles := handles ++ standardHandles }

/-- Moves past the marks that end a document. -/
def skipDocumentEnds : Nat → Reader Unit
  | 0 => pure ()
  | fuel + 1 => do
    if ← Reader.accept .documentEnd then skipDocumentEnds fuel

/-- Reads the only document of a text, unless the text holds none. -/
def readDocument (fuel : Nat) : Reader (Option Node) := do
  let next ← Reader.peek
  if next == .streamEnd then return none
  let isExplicit := match next with
    | .versionDirective _ | .tagDirective _ _ | .otherDirective | .documentStart => true
    | _ => false
  let node ←
    if isExplicit then do
      readDirectives false [] fuel
      if !(← Reader.accept .documentStart) then Reader.fail
      match ← Reader.peek with
      | .versionDirective _ | .tagDirective _ _ | .otherDirective | .documentStart | .documentEnd
      | .streamEnd => pure absent
      | _ => read .block fuel
    else do
      modify fun state => { state with handles := standardHandles }
      read .block fuel
  skipDocumentEnds fuel
  if (← Reader.peek) == .streamEnd then return some node
  readDirectives false [] fuel
  let _ ← Reader.peek
  Reader.fail

/-- The node that the tokens of a text stand for, if there is one. -/
def ofTokens (source : Tokens) : Except Fault (Option Node) := do
  let state : State := { tokens := source.tokens, fault := source.fault }
  return (← (readDocument (8 * source.tokens.length + 16)).run state).1

end Node

end ApiReference.Yaml
