import ApiReference.Yaml.Scalar
import ApiReference.Text.Utf8

/-! # Tokens

The tokens of a text: marks of structure, scalars, and the names and tags given to nodes.
Indentation makes tokens of its own: a collection starts where a line is indented further, and ends
where it no longer is.  A key is known only when its colon is met, so its token is put in afterwards
where the key began.  Where the text goes wrong, the tokens up to there are kept: what is wrong with
them counts first. -/

namespace ApiReference.Yaml

/-- A token. -/
inductive Token
  | streamEnd
  /-- The version that a directive asks for. -/
  | versionDirective (major : Nat)
  /-- A directive that makes a handle stand for the start of tags. -/
  | tagDirective (handle start : Text)
  | otherDirective
  | documentStart
  | documentEnd
  | blockSequenceStart
  | blockMappingStart
  | blockEnd
  | flowSequenceStart
  | flowSequenceEnd
  | flowMappingStart
  | flowMappingEnd
  | flowEntry
  | blockEntry
  | key
  | value
  | reference (name : Text)
  | anchor (name : Text)
  | tag (handle : Option Text) (rest : Text)
  | scalar (plain : Bool) (value : Text)
deriving DecidableEq, Inhabited, Repr

/-- A place where a key may have begun. -/
structure PossibleKey where
  tokenNumber : Nat
  /-- The place is at the indentation of a mapping, so a key has to be here. -/
  required : Bool
  index : Nat
  line : Nat
  column : Nat
deriving Inhabited

/-- The state of reading tokens. -/
structure Lexer where
  cursor : Cursor
  /-- More than the number of characters of the text. -/
  size : Nat
  /-- The tokens so far, the last one first. -/
  tokens : List Token := []
  /-- The number of the tokens so far. -/
  count : Nat := 0
  flowLevel : Nat := 0
  indent : Int := -1
  indents : List Int := []
  keyAllowed : Bool := true
  /-- The possible keys by their flow levels. -/
  keys : List (Nat × PossibleKey) := []

namespace Lexer

/-! ### Tokens and keys -/

/-- Adds a token. -/
def emit (lexer : Lexer) (token : Token) : Lexer :=
  { lexer with tokens := token :: lexer.tokens, count := lexer.count + 1 }

/-- Adds a token and moves past its characters. -/
def emitSkipping (lexer : Lexer) (n : Nat) (token : Token) : Lexer :=
  { lexer.emit token with cursor := lexer.cursor.skip n }

/-- The lexer reads inside brackets. -/
def inFlow (lexer : Lexer) : Bool := lexer.flowLevel != 0

/-- A possible key has fallen behind: its line has ended, or it is too long. -/
def isStale (lexer : Lexer) (key : PossibleKey) : Bool :=
  key.line != lexer.cursor.line || 1024 < lexer.cursor.index - key.index

/-- Forgets the possible keys that have fallen behind; a required one must not. -/
def dropStaleKeys (lexer : Lexer) : Except Fault Lexer :=
  if lexer.keys.any fun entry => lexer.isStale entry.2 && entry.2.required then .error .malformed
  else .ok { lexer with keys := lexer.keys.filter fun entry => !lexer.isStale entry.2 }

/-- Forgets the possible key of this level; a required one must not be forgotten. -/
def dropKey (lexer : Lexer) : Except Fault Lexer :=
  match lexer.keys.lookup lexer.flowLevel with
  | none => .ok lexer
  | some key =>
    if key.required then .error .malformed
    else .ok { lexer with keys := lexer.keys.filter fun entry => entry.1 != lexer.flowLevel }

/-- Notes that a key may begin here. -/
def saveKey (lexer : Lexer) : Except Fault Lexer :=
  if lexer.keyAllowed then do
    let cursor := lexer.cursor
    let required := !lexer.inFlow && lexer.indent == cursor.column
    let lexer ← lexer.dropKey
    let key : PossibleKey :=
      ⟨lexer.count, required, cursor.index, cursor.line, cursor.column⟩
    return { lexer with keys := (lexer.flowLevel, key) :: lexer.keys }
  else .ok lexer

/-- Ends the collections that are indented further than a column. -/
def unwindFrom (column : Int) (lexer : Lexer) : List Int → Lexer
  | [] => lexer
  | outer :: indents =>
    if column < lexer.indent then
      unwindFrom column { lexer.emit .blockEnd with indent := outer, indents } indents
    else lexer

/-- Ends the collections that are indented further than a column, unless inside brackets. -/
def unwind (lexer : Lexer) (column : Int) : Lexer :=
  if lexer.inFlow then lexer else unwindFrom column lexer lexer.indents

/-- Starts a collection at a column if that is further than the current indentation. -/
def startAt (lexer : Lexer) (column : Int) (token : Token) : Lexer :=
  if lexer.indent < column then
    { lexer.emit token with indent := column, indents := lexer.indent :: lexer.indents }
  else lexer

/-! ### Moving on -/

/-- Moves past blanks, comments and line ends; a key may begin on a new line. -/
def skipToToken : Nat → Lexer → Lexer
  | 0, lexer => lexer
  | fuel + 1, lexer =>
    let cursor := (lexer.cursor.dropWhile (· == ' ')).skipComment
    if cursor.atBreak then
      skipToToken fuel
        { lexer with
          cursor := cursor.lineBreak.2
          keyAllowed := lexer.keyAllowed || !lexer.inFlow }
    else { lexer with cursor }

/-! ### Directives, names and tags -/

/-- The characters of names. -/
def isNameChar (c : Char) : Bool := c.isAlphanum || c == '-' || c == '_'

/-- The rest of a directive's line holds at most a comment. -/
def directiveEnd (cursor : Cursor) : Except Fault Cursor :=
  let cursor := (cursor.dropWhile (· == ' ')).skipComment
  if cursor.atEnd || cursor.atBreak then .ok cursor.lineBreak.2 else .error .malformed

/-- A number in a version. -/
def versionNumber (cursor : Cursor) : Except Fault (Nat × Cursor) :=
  let (digits, after) := cursor.span Char.isDigit
  if digits.isEmpty then .error .malformed else .ok (Json.digitsValue digits, after)

/-- A blank or the end of a line is next. -/
def atGap (cursor : Cursor) : Bool := cursor.atEnd || cursor.sees ' ' || cursor.atBreak

/-- The characters of the text of a tag. -/
def isTagChar (c : Char) : Bool := c.isAlphanum || List.contains "-;/?:@&=+$,_.!~*'()[]%".toList c

/-- The bytes that escapes in a tag write. -/
def tagBytes? : Nat → Cursor → Option (List UInt8 × Cursor)
  | 0, _ => none
  | fuel + 1, cursor =>
    match cursor.rest with
    | '%' :: a :: b :: _ => do
      let high ← hexValue? a
      let low ← hexValue? b
      let (more, after) ← tagBytes? fuel (cursor.skip 3)
      return (UInt8.ofNat (16 * high + low) :: more, after)
    | '%' :: _ => none
    | _ => some ([], cursor)

/-- The text of a tag, possibly empty. -/
def tagCharsOrNone : Nat → Cursor → Except Fault (Text × Cursor)
  | 0, _ => .error .malformed
  | fuel + 1, cursor =>
    let (plain, cursor) := cursor.span fun c => isTagChar c && c != '%'
    if cursor.sees '%' then
      match (tagBytes? (cursor.rest.length + 1) cursor).bind fun (bytes, after) =>
        (Utf8.decode? bytes).map fun x => (x, after) with
      | some (x, after) => do
        let (more, after) ← tagCharsOrNone fuel after
        return (plain ++ x ++ more, after)
      | none => .error .malformed
    else .ok (plain, cursor)

/-- The text of a tag. -/
def tagChars (cursor : Cursor) : Except Fault (Text × Cursor) := do
  let (x, after) ← tagCharsOrNone (cursor.rest.length + 1) cursor
  if x.isEmpty then throw .malformed
  return (x, after)

/-- The handle of a tag: an exclamation mark alone, or a name between two of them. -/
def tagHandle (cursor : Cursor) : Except Fault (Text × Cursor) :=
  if cursor.sees '!' then
    let (name, after) := cursor.next.span isNameChar
    if after.sees '!' then .ok (['!'] ++ name ++ ['!'], after.next)
    else if name.isEmpty && after.sees ' ' then .ok (['!'], after)
    else .error .malformed
  else .error .malformed

/-- A directive that makes a handle stand for the start of tags. -/
def tagDirective (cursor : Cursor) : Except Fault (Token × Cursor) := do
  let (handle, cursor) ← tagHandle (cursor.dropWhile (· == ' '))
  if !cursor.sees ' ' then throw .malformed
  let (start, cursor) ← tagChars (cursor.dropWhile (· == ' '))
  if !atGap cursor then throw .malformed
  return (.tagDirective handle start, cursor)

/-- A directive that asks for a version. -/
def versionDirective (cursor : Cursor) : Except Fault (Token × Cursor) := do
  let (major, cursor) ← versionNumber (cursor.dropWhile (· == ' '))
  if !cursor.sees '.' then throw .malformed
  let (_, cursor) ← versionNumber cursor.next
  if !atGap cursor then throw .malformed
  return (.versionDirective major, cursor)

/-- A directive, at its percent sign. -/
def directive (cursor : Cursor) : Except Fault (Token × Cursor) := do
  let (name, cursor) := cursor.next.span isNameChar
  if name.isEmpty || !atGap cursor then throw .malformed
  let (token, cursor) ←
    if name == ("YAML" : Text) then versionDirective cursor
    else if name == ("TAG" : Text) then tagDirective cursor
    else pure (.otherDirective, cursor.dropWhile fun c => !isBreak c)
  return (token, ← directiveEnd cursor)

/-- The name after an ampersand or an asterisk. -/
def nodeName (cursor : Cursor) : Except Fault (Text × Cursor) :=
  let (name, after) := cursor.next.span isNameChar
  if name.isEmpty then .error .malformed
  else if endsWord after.peek || after.seesAny "?:,]\x7d%@`" then .ok (name, after)
  else .error .malformed

/-- A tag, at its exclamation mark. -/
def tagToken (cursor : Cursor) : Except Fault (Token × Cursor) := do
  let (token, after) ←
    if cursor.peekAt 1 == some '<' then do
      let (x, after) ← tagChars (cursor.skip 2)
      if !after.sees '>' then throw .malformed
      pure (Token.tag none x, after.next)
    else if endsWord (cursor.peekAt 1) then pure (Token.tag none ['!'], cursor.next)
    else do
      let ahead := cursor.next.rest.takeWhile fun c => !(c == ' ' || isBreak c)
      let (handle, after) ←
        if ahead.contains '!' then tagHandle cursor else pure (['!'], cursor.next)
      let (x, after) ← tagChars after
      pure (Token.tag (some handle) x, after)
  if !atGap after then throw .malformed
  return (token, after)

/-! ### One token -/

/-- Adds a node token that can begin a key. -/
def emitNode (lexer : Lexer) (read : Cursor → Except Fault (Token × Cursor)) :
    Except Fault Lexer := do
  let lexer ← lexer.saveKey
  let (token, cursor) ← read lexer.cursor
  return { lexer.emit token with cursor, keyAllowed := false }

/-- The end of the text. -/
def emitStreamEnd (lexer : Lexer) : Except Fault Lexer := do
  let lexer ← (lexer.unwind (-1)).dropKey
  return { lexer.emit .streamEnd with keyAllowed := false, keys := [] }

/-- A directive. -/
def emitDirective (lexer : Lexer) : Except Fault Lexer := do
  let lexer ← (lexer.unwind (-1)).dropKey
  let (token, cursor) ← directive lexer.cursor
  return { lexer.emit token with cursor, keyAllowed := false }

/-- The start or the end of a document. -/
def emitSeparator (lexer : Lexer) (token : Token) : Except Fault Lexer := do
  let lexer ← (lexer.unwind (-1)).dropKey
  return { lexer.emitSkipping 3 token with keyAllowed := false }

/-- An opening bracket. -/
def emitOpening (lexer : Lexer) (token : Token) : Except Fault Lexer := do
  let lexer ← lexer.saveKey
  return { lexer.emitSkipping 1 token with flowLevel := lexer.flowLevel + 1, keyAllowed := true }

/-- A closing bracket. -/
def emitClosing (lexer : Lexer) (token : Token) : Except Fault Lexer := do
  let lexer ← lexer.dropKey
  return { lexer.emitSkipping 1 token with flowLevel := lexer.flowLevel - 1, keyAllowed := false }

/-- A comma inside brackets. -/
def emitFlowEntry (lexer : Lexer) : Except Fault Lexer := do
  let lexer ← lexer.dropKey
  return { lexer.emitSkipping 1 .flowEntry with keyAllowed := true }

/-- A hyphen before an item. -/
def emitBlockEntry (lexer : Lexer) : Except Fault Lexer := do
  if !lexer.inFlow && !lexer.keyAllowed then throw .malformed
  let lexer :=
    if lexer.inFlow then lexer else lexer.startAt lexer.cursor.column .blockSequenceStart
  let lexer ← { lexer with keyAllowed := true }.dropKey
  return lexer.emitSkipping 1 .blockEntry

/-- A question mark before a key. -/
def emitKey (lexer : Lexer) : Except Fault Lexer := do
  if !lexer.inFlow && !lexer.keyAllowed then throw .malformed
  let lexer :=
    if lexer.inFlow then lexer else lexer.startAt lexer.cursor.column .blockMappingStart
  let lexer ← { lexer with keyAllowed := !lexer.inFlow }.dropKey
  return lexer.emitSkipping 1 .key

/-- Puts the token of a key, and the start of its mapping, where the key began. -/
def insertKey (lexer : Lexer) (key : PossibleKey) : Lexer :=
  let since := lexer.count - key.tokenNumber
  let after := lexer.tokens.take since
  let before := lexer.tokens.drop since
  if !lexer.inFlow && lexer.indent < key.column then
    { lexer with
      tokens := after ++ .key :: .blockMappingStart :: before
      count := lexer.count + 2
      indent := key.column
      indents := lexer.indent :: lexer.indents }
  else { lexer with tokens := after ++ .key :: before, count := lexer.count + 1 }

/-- A colon before a value. -/
def emitValue (lexer : Lexer) : Except Fault Lexer :=
  match lexer.keys.lookup lexer.flowLevel with
  | some key =>
    let lexer := { lexer with keys := lexer.keys.filter fun entry => entry.1 != lexer.flowLevel }
    .ok { (lexer.insertKey key).emitSkipping 1 .value with keyAllowed := false }
  | none => do
    if !lexer.inFlow && !lexer.keyAllowed then throw .malformed
    let lexer :=
      if lexer.inFlow then lexer else lexer.startAt lexer.cursor.column .blockMappingStart
    let lexer ← { lexer with keyAllowed := !lexer.inFlow }.dropKey
    return lexer.emitSkipping 1 .value

/-- A block scalar. -/
def emitBlockScalar (lexer : Lexer) (folded : Bool) : Except Fault Lexer := do
  let lexer ← { lexer with keyAllowed := true }.dropKey
  let (value, cursor) ← blockScalar folded lexer.indent lexer.cursor.next
  return { lexer.emit (.scalar false value) with cursor }

/-- A plain scalar. -/
def emitPlain (lexer : Lexer) : Except Fault Lexer := do
  let lexer ← lexer.saveKey
  let found :=
    plainScalar lexer.inFlow (lexer.indent + 1) [] lexer.size lexer.cursor
  return { lexer.emit (.scalar true found.value) with
    cursor := found.cursor
    keyAllowed := found.endsLine }

/-- A plain scalar can begin here. -/
def startsPlain (lexer : Lexer) (c : Char) : Bool :=
  let after := lexer.cursor.peekAt 1
  !(endsWord (some c) || List.contains "-?:,[]\x7b\x7d#&*!|>'\"%@`".toList c) ||
    (!endsWord after && (c == '-' || (!lexer.inFlow && (c == '?' || c == ':'))))

/-- Takes the next token in. -/
def step (lexer : Lexer) : Except Fault Lexer := do
  let cursor := lexer.cursor
  let lexer :=
    if cursor.index == 0 && cursor.sees '\ufeff' then { lexer with cursor := cursor.next }
    else lexer
  let lexer := skipToToken lexer.size lexer
  let lexer ← lexer.dropStaleKeys
  let lexer := lexer.unwind lexer.cursor.column
  let cursor := lexer.cursor
  let atLineStart := cursor.column == 0
  match cursor.peek with
  | none => lexer.emitStreamEnd
  | some c =>
    let apart := lexer.inFlow || endsWord (cursor.peekAt 1)
    if c == '%' && atLineStart then lexer.emitDirective
    else if c == '-' && atLineStart && cursor.atSeparator then lexer.emitSeparator .documentStart
    else if c == '.' && atLineStart && cursor.atSeparator then lexer.emitSeparator .documentEnd
    else if c == '[' then lexer.emitOpening .flowSequenceStart
    else if c == '\x7b' then lexer.emitOpening .flowMappingStart
    else if c == ']' then lexer.emitClosing .flowSequenceEnd
    else if c == '\x7d' then lexer.emitClosing .flowMappingEnd
    else if c == ',' then lexer.emitFlowEntry
    else if c == '-' && endsWord (cursor.peekAt 1) then lexer.emitBlockEntry
    else if c == '?' && apart then lexer.emitKey
    else if c == ':' && apart then lexer.emitValue
    else if c == '*' then
      lexer.emitNode fun cursor => (nodeName cursor).map fun (x, after) => (.reference x, after)
    else if c == '&' then
      lexer.emitNode fun cursor => (nodeName cursor).map fun (x, after) => (.anchor x, after)
    else if c == '!' then lexer.emitNode tagToken
    else if c == '|' && !lexer.inFlow then lexer.emitBlockScalar false
    else if c == '>' && !lexer.inFlow then lexer.emitBlockScalar true
    else if c == '\x27' then
      lexer.emitNode fun cursor =>
        (quotedScalar false cursor).map fun (x, after) => (.scalar false x, after)
    else if c == '\x22' then
      lexer.emitNode fun cursor =>
        (quotedScalar true cursor).map fun (x, after) => (.scalar false x, after)
    else if lexer.startsPlain c then lexer.emitPlain
    else throw .malformed

/-- The number of tokens that are read before the next one has to be taken in: those before the first
place where a key may still have begun. -/
def readyCount (lexer : Lexer) : Nat :=
  let keys := lexer.keys.filter fun entry => !lexer.isStale entry.2
  keys.foldl (fun n entry => min n entry.2.tokenNumber) lexer.count

end Lexer

/-- The tokens of a text, and what is wrong with the text after them. -/
structure Tokens where
  tokens : List Token
  fault : Option Fault := none
deriving Inhabited

namespace Lexer

/-- Takes tokens in up to the end of the text. -/
def run : Nat → Lexer → Tokens
  | 0, lexer => ⟨lexer.tokens.reverse, some .malformed⟩
  | fuel + 1, lexer =>
    match lexer.step with
    | .error fault => ⟨lexer.tokens.reverse.take lexer.readyCount, some fault⟩
    | .ok lexer =>
      if lexer.tokens.head? == some .streamEnd then { tokens := lexer.tokens.reverse }
      else run fuel lexer

end Lexer

/-- The characters that may stand in a text. -/
def isAllowed (c : Char) : Bool :=
  let n := c.toNat
  n == 0x09 || n == 0x0a || n == 0x0d || (0x20 ≤ n && n ≤ 0x7e) || n == 0x85 ||
    (0xa0 ≤ n && n ≤ 0xfffd) || 0x10000 ≤ n

/-- Reads the tokens of a text. -/
def Tokens.ofText (x : Text) : Tokens :=
  let size := x.length + 1
  if x.all isAllowed then Lexer.run (size + 1) { cursor := { rest := x }, size }
  else ⟨[], some .malformed⟩

end ApiReference.Yaml
