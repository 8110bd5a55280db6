import ApiReference.Page.Template
import ApiReference.Text.Alphanumeric
import ApiReference.Text.Digit

/-! # Reading templates

The text of a template is cut into pieces in one pass: what is shown as it is, and the words of what
stands in double braces or in a tag.  A tag takes the blanks before it on its line and the line end
after it with it.  Pieces are then built into parts, loops around their bodies. -/

namespace ApiReference.Template

/-! ### Strings -/

/-- What the escapes of one character stand for; an escaped line end is left out. -/
def shortEscapes : List (Char × Text) :=
  [('\n', []), ('\x5c', ['\x5c']), ('\x27', ['\x27']), ('\x22', ['\x22']), ('a', ['\x07']),
    ('b', ['\x08']), ('f', ['\x0c']), ('n', ['\n']), ('r', ['\r']), ('t', ['\t']), ('v', ['\x0b'])]

/-- How many hexadecimal digits follow an escape. -/
def digitCounts : List (Char × Nat) := [('x', 2), ('u', 4), ('U', 8)]

/-- The number that digits of a base write. -/
def digitsIn? (base : Nat) (digits : Text) : Option Nat :=
  digits.foldlM (fun n c => (digitIn? base c).map (base * n + ·)) 0

/-- The character of a number. -/
def charOf? (n : Nat) : Option Char := if h : n.isValidChar then some (Char.ofNatAux n h) else none

/-- What an escape shows, given the text after its backslash, and how many characters of that text
belong to it.  A backslash that escapes nothing shows itself. -/
def escape? : Text → Option (Text × Nat)
  | [] => none
  | c :: rest =>
    match shortEscapes.lookup c, digitCounts.lookup c with
    | some shown, _ => some (shown, 1)
    | none, some count => do
      let digits := rest.take count
      if digits.length < count then none
      let shown ← charOf? (← digitsIn? 16 digits)
      return ([shown], count + 1)
    | none, none =>
      let octal := ((c :: rest).take 3).takeWhile fun d => (digitIn? 8 d).isSome
      if c == 'N' then none
      else if octal.isEmpty then
        some ('\x5c' :: (if c.toNat < 0x80 then [c] else (codeForm c).drop 1), 1)
      else do return ([← charOf? (← digitsIn? 8 octal)], octal.length)

/-- The text between quotation marks with its escapes resolved; the first `used` characters belong to
an escape before them. -/
def unescape? (used : Nat) : Text → Option Text
  | [] => some []
  | c :: rest =>
    if 0 < used then unescape? (used - 1) rest
    else if c == '\x5c' then do
      let (shown, used) ← escape? rest
      return shown ++ (← unescape? used rest)
    else (unescape? 0 rest).map (c :: ·)

/-! ### Pieces -/

/-- A word in double braces or in a tag. -/
inductive Word
  | name (x : Text)
  | string (x : Text)
  | mark (c : Char)
deriving DecidableEq, Inhabited

/-- A piece of a template's text. -/
inductive Piece
  | literal (x : Text)
  /-- What stands in double braces. -/
  | value (words : List Word)
  | tag (words : List Word)

/-- The text without the blanks after its last line end; at the start of a line also those of a text
without line ends. -/
def dropIndent (atLineStart : Bool) (x : Text) : Text :=
  let kept := Text.dropEndWhile (fun c => isBlank c && c != '\n') x
  match kept.getLast? with
  | some c => if c == '\n' then kept else x
  | none => if atLineStart then [] else x

/-- Where in a template's text one is; what is read but not yet complete is kept in reverse. -/
inductive ScanState
  /-- In what is shown as it is. -/
  | outside (atLineStart : Bool) (before : Text)
  /-- Between words, or in a name. -/
  | inside (isTag : Bool) (words : List Word) (name : Text)
  /-- In a string that ends with the mark. -/
  | quoting (isTag : Bool) (words : List Word) (mark : Char) (before : Text)

/-- The words in reverse, with a name that has ended. -/
def endName (words : List Word) (name : Text) : List Word :=
  if name.isEmpty then words else .name name.reverse :: words

/-- Cuts a template's text into pieces, unless something in it is not closed. -/
def scan : ScanState → Text → Option (List Piece)
  | .outside _ before, [] => some [.literal before.reverse]
  | .outside _ before, '\x7b' :: '\x7b' :: rest =>
    (scan (.inside false [] []) rest).map (.literal before.reverse :: ·)
  | .outside atLineStart before, '\x7b' :: '%' :: rest =>
    (scan (.inside true [] []) rest).map (.literal (dropIndent atLineStart before.reverse) :: ·)
  | .outside atLineStart before, c :: rest => scan (.outside atLineStart (c :: before)) rest
  | .inside false words name, '\x7d' :: '\x7d' :: rest =>
    (scan (.outside false []) rest).map (.value (endName words name).reverse :: ·)
  | .inside true words name, '%' :: '\x7d' :: '\n' :: rest =>
    (scan (.outside true []) rest).map (.tag (endName words name).reverse :: ·)
  | .inside true words name, '%' :: '\x7d' :: rest =>
    (scan (.outside false []) rest).map (.tag (endName words name).reverse :: ·)
  | .inside _ _ _, [] => none
  | .inside isTag words name, c :: rest =>
    if isWordChar c then scan (.inside isTag words (c :: name)) rest
    else if isBlank c then scan (.inside isTag (endName words name) []) rest
    else if c == '\x22' || c == '\x27' then scan (.quoting isTag (endName words name) c []) rest
    else scan (.inside isTag (.mark c :: endName words name) []) rest
  | .quoting _ _ _ _, [] => none
  | .quoting isTag words mark before, '\x5c' :: c :: rest =>
    scan (.quoting isTag words mark (c :: '\x5c' :: before)) rest
  | .quoting isTag words mark before, c :: rest =>
    if c == mark then do
      let x ← unescape? 0 before.reverse
      scan (.inside isTag (.string x :: words) []) rest
    else scan (.quoting isTag words mark (c :: before)) rest

/-! ### Parts -/

/-- Strings side by side, as one. -/
def wholeString? : List Word → Option Text
  | [] => some []
  | .string x :: more => (wholeString? more).map (x ++ ·)
  | _ => none

/-- The word is a name: it begins with no digit. -/
def isName (x : Text) : Bool := !x.head?.any Char.isDigit

/-- The word can stand for a value: it is a name, and not the word that negates. -/
def isValueName (x : Text) : Bool := isName x && x != ("not" : Text)

/-- What stands in double braces: a name, perhaps with the filter that joins. -/
def valuePart? : List Word → Option TemplatePart
  | [.name name] => if isValueName name then some (.value name) else none
  | .name name :: .mark '|' :: .name filter :: call =>
    if !isValueName name || filter != ("join" : Text) then none
    else
      match call with
      | [] => some (.joined name [])
      | .mark '(' :: arguments =>
        if arguments.getLast? == some (.mark ')') then
          (wholeString? arguments.dropLast).map (.joined name ·)
        else none
      | _ => none
  | _ => none

/-- A loop can call its items so: the word is a name, and not that of a constant. -/
def isItemName (x : Text) : Bool := isName x && (TemplateValue.constants.lookup x).isNone

/-- Names between commas, of which one may stand at the end. -/
def listedNames? : List Word → Option (List Text)
  | [] => some []
  | [.name name] => if isItemName name then some [name] else none
  | .name name :: .mark ',' :: more =>
    if isItemName name then (listedNames? more).map (name :: ·) else none
  | _ => none

/-- What a loop calls its items. -/
def loopTarget? : List Word → Option LoopTarget
  | [] => none
  | [.name name] => if isItemName name then some (.whole name) else none
  | words => (listedNames? words).map .parts

/-- The head of a loop: what it calls its items, and the name of the value that has them. -/
def loopHead? (words : List Word) : Option (LoopTarget × Text) :=
  let isIn := fun word => word == Word.name "in"
  match words.dropWhile fun word => !isIn word with
  | [_, .name list] =>
    if !isValueName list then none
    else (loopTarget? (words.takeWhile fun word => !isIn word)).map fun target => (target, list)
  | _ => none

/-- A loop that is still open: its head, and the parts before it in reverse. -/
structure OpenLoop where
  target : LoopTarget
  list : Text
  before : List TemplatePart

/-- Builds the parts of pieces; `loops` are the loops still open, the innermost one first, and `done`
the parts of the current body in reverse. -/
def build? (loops : List OpenLoop) (done : List TemplatePart) : List Piece → Option Template
  | [] => if loops.isEmpty then some done.reverse else none
  | .literal x :: more => build? loops (if x.isEmpty then done else .literal x :: done) more
  | .value words :: more => do build? loops ((← valuePart? words) :: done) more
  | .tag [.name word] :: more =>
    match loops with
    | loop :: outer =>
      if word == ("endfor" : Text) then
        build? outer (.each loop.target loop.list done.reverse :: loop.before) more
      else none
    | [] => none
  | .tag (.name word :: head) :: more => do
    if word != ("for" : Text) then none
    let (target, list) ← loopHead? head
    build? (⟨target, list, done⟩ :: loops) [] more
  | .tag _ :: _ => none

/-- Reads a template.  Its last line end does not count. -/
def ofText? (x : Text) : Option Template :=
  let source := x.unifyLineEnds
  (scan (.outside true []) (if source.endsWith ['\n'] then source.dropLast else source)).bind
    (build? [] [])

end ApiReference.Template
