import ApiReference.Yaml.Cursor
import ApiReference.Json.Reader

/-! # Written scalars

The three ways to write a scalar: in quotation marks, plain, and as an indented block.  Line ends
inside a scalar fold into a space, and further ones are kept, unless the block is a literal one. -/

namespace ApiReference.Yaml

/-! ### Quoted scalars -/

/-- Line ends, and the blanks before the next line; a document may not end here. -/
def quotedBreaks : Nat → Cursor → Except Fault (Text × Cursor)
  | 0, _ => .error .malformed
  | fuel + 1, cursor =>
    if cursor.atSeparator then .error .malformed
    else
      let cursor := cursor.dropWhile fun c => c == ' ' || c == '\t'
      if cursor.atBreak then do
        let (mark, after) := cursor.lineBreak
        let (more, after) ← quotedBreaks fuel after
        return (mark ++ more, after)
      else .ok ([], cursor)

/-- Folds a line end and the ones after it. -/
def foldBreaks (first more : Text) : Text :=
  if first != ['\n'] then first ++ more else if more.isEmpty then [' '] else more

/-- The blanks between the words of a quoted scalar. -/
def quotedSpaces (cursor : Cursor) : Except Fault (Text × Cursor) :=
  let (blanks, cursor) := cursor.span fun c => c == ' ' || c == '\t'
  if cursor.atEnd then .error .malformed
  else if cursor.atBreak then do
    let (first, after) := cursor.lineBreak
    let (more, after) ← quotedBreaks (after.rest.length + 1) after
    return (foldBreaks first more, after)
  else .ok (blanks, cursor)

/-- What the escapes of one letter stand for. -/
def escapes : List (Char × Char) :=
  [('0', '\x00'), ('a', '\x07'), ('b', '\x08'), ('t', '\t'), ('\t', '\t'), ('n', '\n'),
    ('v', '\x0b'), ('f', '\x0c'), ('r', '\r'), ('e', '\x1b'), (' ', ' '), ('\x22', '\x22'),
    ('\x5c', '\x5c'), ('/', '/'), ('N', '\u0085'), ('_', '\u00a0'), ('L', '\u2028'),
    ('P', '\u2029')]

/-- How many hexadecimal digits follow an escape. -/
def escapeWidths : List (Char × Nat) := [('x', 2), ('u', 4), ('U', 8)]

/-- The number that hexadecimal digits write. -/
def hexNumber? (digits : Text) : Option Nat :=
  digits.foldlM (fun n c => (hexValue? c).map fun d => 16 * n + d) 0

/-- The escape after a backslash. -/
def quotedEscape (cursor : Cursor) : Except Fault (Text × Cursor) :=
  match cursor.peek with
  | none => .error .malformed
  | some c =>
    match escapes.lookup c with
    | some meant => .ok ([meant], cursor.next)
    | none =>
      match escapeWidths.lookup c with
      | some width =>
        let digits := cursor.next.rest.take width
        match hexNumber? digits with
        | some n =>
          if digits.length < width then .error .malformed
          else if 0x7fffffff < n then .error .hugeEscape
          else if 0x10ffff < n then .error .badScalar
          else .ok ([Char.ofNat n], cursor.next.skip width)
        | none => .error .malformed
      | none =>
        if isBreak c then
          let (_, after) := cursor.lineBreak
          quotedBreaks (after.rest.length + 1) after
        else .error .malformed

/-- The part of a quoted scalar up to the next blank, line end or closing mark. -/
def quotedWord (double : Bool) : Nat → Cursor → Except Fault (Text × Cursor)
  | 0, _ => .error .malformed
  | fuel + 1, cursor =>
    let special := fun c =>
      c == '\x27' || c == '\x22' || c == '\x5c' || c == ' ' || c == '\t' || isBreak c
    let (plain, cursor) := cursor.span fun c => !special c
    let continueWith (part : Text) (after : Cursor) : Except Fault (Text × Cursor) := do
      let (more, after) ← quotedWord double fuel after
      return (plain ++ part ++ more, after)
    match cursor.rest with
    | c :: rest =>
      if !double && c == '\x27' && rest.head? == some '\x27' then
        continueWith ['\x27'] (cursor.skip 2)
      else if (double && c == '\x27') || (!double && (c == '\x22' || c == '\x5c')) then
        continueWith [c] cursor.next
      else if double && c == '\x5c' then do
        let (part, after) ← quotedEscape cursor.next
        continueWith part after
      else .ok (plain, cursor)
    | [] => .ok (plain, cursor)

/-- The rest of a quoted scalar after its first word. -/
def quotedRest (double : Bool) : Nat → Cursor → Except Fault (Text × Cursor)
  | 0, _ => .error .malformed
  | fuel + 1, cursor =>
    if cursor.sees (if double then '\x22' else '\x27') then .ok ([], cursor.next)
    else do
      let (blanks, cursor) ← quotedSpaces cursor
      let (word, cursor) ← quotedWord double (cursor.rest.length + 1) cursor
      let (more, cursor) ← quotedRest double fuel cursor
      return (blanks ++ word ++ more, cursor)

/-- A quoted scalar, at its opening mark. -/
def quotedScalar (double : Bool) (cursor : Cursor) : Except Fault (Text × Cursor) := do
  let (word, cursor) ← quotedWord double (cursor.rest.length + 1) cursor.next
  let (more, cursor) ← quotedRest double (cursor.rest.length + 1) cursor
  return (word ++ more, cursor)

/-! ### Plain scalars -/

/-- The line ends between the lines of a plain scalar, unless a document ends here. -/
def plainBreaks : Nat → Cursor → Option Text × Cursor
  | 0, cursor => (none, cursor)
  | fuel + 1, cursor =>
    if cursor.sees ' ' then plainBreaks fuel cursor.next
    else if cursor.atBreak then
      let (mark, after) := cursor.lineBreak
      if after.atSeparator then (none, after)
      else
        let (more, after) := plainBreaks fuel after
        (more.map fun breaks => mark ++ breaks, after)
    else (some [], cursor)

/-- What separates the words of a plain scalar, if another word can follow, and whether a line ends
in it. -/
structure PlainGap where
  blanks : Text
  endsLine : Bool
  cursor : Cursor

/-- Reads what separates the words of a plain scalar. -/
def plainGap (cursor : Cursor) : PlainGap :=
  let (blanks, cursor) := cursor.span (· == ' ')
  if cursor.atBreak then
    let (first, after) := cursor.lineBreak
    if after.atSeparator then ⟨[], true, after⟩
    else
      match plainBreaks (after.rest.length + 1) after with
      | (some more, after) => ⟨foldBreaks first more, true, after⟩
      | (none, after) => ⟨[], true, after⟩
  else ⟨blanks, false, cursor⟩

/-- The marks of collections that are written in brackets. -/
def isFlowMark (c : Char) : Bool :=
  c == ',' || c == '[' || c == ']' || c == '\x7b' || c == '\x7d'

/-- The length of the word of a plain scalar at the start of a text. -/
def plainWordLength (inFlow : Bool) : Text → Nat
  | [] => 0
  | c :: rest =>
    let after := rest.head?
    let endsHere :=
      endsWord (some c) ||
        (c == ':' && (endsWord after || (inFlow && after.any isFlowMark))) ||
        (inFlow && (c == '?' || isFlowMark c))
    if endsHere then 0 else plainWordLength inFlow rest + 1

/-- A plain scalar, where it ends, and whether a line ended in or after it. -/
structure PlainScalar where
  value : Text
  endsLine : Bool
  cursor : Cursor

/-- Reads a plain scalar; `gap` is what separates its next word from the words before. -/
def plainScalar (inFlow : Bool) (indent : Int) (gap : Text) : Nat → Cursor → PlainScalar
  | 0, cursor => ⟨[], false, cursor⟩
  | fuel + 1, cursor =>
    let size := plainWordLength inFlow cursor.rest
    if cursor.sees '#' || size == 0 then ⟨[], false, cursor⟩
    else
      let word := gap ++ cursor.rest.take size
      let found := plainGap (cursor.skip size)
      if found.blanks.isEmpty || found.cursor.sees '#' ||
          (!inFlow && (found.cursor.column : Int) < indent) then
        ⟨word, found.endsLine, found.cursor⟩
      else
        let more := plainScalar inFlow indent found.blanks fuel found.cursor
        if more.value.isEmpty then ⟨word, found.endsLine, more.cursor⟩
        else ⟨word ++ more.value, more.endsLine, more.cursor⟩

/-! ### Block scalars -/

/-- What the header of a block scalar says: whether the line ends at its end are all kept or all
dropped, and how far it is indented. -/
structure BlockHeader where
  keep : Option Bool := none
  increment : Option Nat := none

/-- The sign in a header. -/
def headerSign? (cursor : Cursor) : Option Bool × Cursor :=
  if cursor.sees '+' then (some true, cursor.next)
  else if cursor.sees '-' then (some false, cursor.next)
  else (none, cursor)

/-- The digit in a header, which is not zero. -/
def headerDigit? (cursor : Cursor) : Except Fault (Option Nat × Cursor) :=
  match cursor.peek with
  | some c =>
    if c == '0' then .error .malformed
    else if c.isDigit then .ok (some (c.toNat - 0x30), cursor.next)
    else .ok (none, cursor)
  | none => .ok (none, cursor)

/-- The header of a block scalar with the rest of its line. -/
def blockHeader (cursor : Cursor) : Except Fault (BlockHeader × Cursor) := do
  let (before, cursor) := headerSign? cursor
  let (increment, cursor) ← headerDigit? cursor
  let (after, cursor) :=
    if before.isNone && increment.isSome then headerSign? cursor else (none, cursor)
  if !(cursor.atEnd || cursor.sees ' ' || cursor.atBreak) then throw .malformed
  let cursor := (cursor.dropWhile (· == ' ')).skipComment
  if !(cursor.atEnd || cursor.atBreak) then throw .malformed
  return (⟨before <|> after, increment⟩, cursor.lineBreak.2)

/-- The empty lines before a block scalar, and the greatest indentation among them and the line
after. -/
def blockIndentation (deepest : Nat) : Nat → Cursor → Text × Nat × Cursor
  | 0, cursor => ([], deepest, cursor)
  | fuel + 1, cursor =>
    if cursor.sees ' ' then blockIndentation (max deepest cursor.next.column) fuel cursor.next
    else if cursor.atBreak then
      let (mark, after) := cursor.lineBreak
      let (more, deepest, after) := blockIndentation deepest fuel after
      (mark ++ more, deepest, after)
    else ([], deepest, cursor)

/-- Moves past blanks up to a column. -/
def skipIndent (indent : Nat) (cursor : Cursor) : Cursor :=
  let blanks := (cursor.rest.takeWhile (· == ' ')).length
  cursor.skip (min blanks (indent - cursor.column))

/-- The empty lines inside a block scalar, up to the indentation of the next line. -/
def blockBreaks (indent : Nat) : Nat → Cursor → Text × Cursor
  | 0, cursor => ([], cursor)
  | fuel + 1, cursor =>
    let cursor := skipIndent indent cursor
    if cursor.atBreak then
      let (mark, after) := cursor.lineBreak
      let (more, after) := blockBreaks indent fuel after
      (mark ++ more, after)
    else ([], cursor)

/-- The lines of a block scalar, and the line ends at its end: the one of its last line, and the empty
lines after. -/
structure BlockLines where
  value : Text
  lastBreak : Text
  emptyLines : Text
  cursor : Cursor

/-- The next character is a blank. -/
def seesBlank (cursor : Cursor) : Bool := cursor.seesAny [' ', '\t']

/-- Reads the lines of a block scalar; `breaks` are the empty lines before the next one. -/
def blockLines (folded : Bool) (indent : Nat) (breaks : Text) : Nat → Cursor → BlockLines
  | 0, cursor => ⟨[], [], breaks, cursor⟩
  | fuel + 1, cursor =>
    if cursor.column == indent && !cursor.atEnd then
      let leadingBlank := seesBlank cursor
      let (line, after) := cursor.span fun c => !isBreak c
      let (mark, after) := after.lineBreak
      let (empty, after) := blockBreaks indent (after.rest.length + 1) after
      if after.column == indent && !after.atEnd then
        let joint :=
          if folded && mark == ['\n'] && !leadingBlank && !seesBlank after then
            if empty.isEmpty then [' '] else []
          else mark
        let more := blockLines folded indent empty fuel after
        { more with value := breaks ++ line ++ joint ++ more.value }
      else ⟨breaks ++ line, mark, empty, after⟩
    else ⟨[], [], breaks, cursor⟩

/-- A block scalar, after its opening mark; `parent` is the indentation around it. -/
def blockScalar (folded : Bool) (parent : Int) (cursor : Cursor) :
    Except Fault (Text × Cursor) := do
  let (header, cursor) ← blockHeader cursor
  let least := (max (parent + 1) 1).toNat
  let (breaks, indent, cursor) :=
    match header.increment with
    | some n =>
      let indent := least + n - 1
      let (breaks, cursor) := blockBreaks indent (cursor.rest.length + 1) cursor
      (breaks, indent, cursor)
    | none =>
      let (breaks, deepest, cursor) := blockIndentation 0 (cursor.rest.length + 1) cursor
      (breaks, max least deepest, cursor)
  let lines := blockLines folded indent breaks (cursor.rest.length + 1) cursor
  let ending :=
    match header.keep with
    | none => lines.lastBreak
    | some true => lines.lastBreak ++ lines.emptyLines
    | some false => []
  return (lines.value ++ ending, lines.cursor)

end ApiReference.Yaml
