import ApiReference.Json.Value
import ApiReference.Text.Digit

/-! # Reading JSON

A reader of JSON texts.  Beyond the grammar of JSON it takes `NaN`, `Infinity` and `-Infinity` as
numbers; a key that comes twice keeps its first place and its last value; a number too large for
the floating-point format becomes infinite.  Each step takes what it reads off the front of the text
and hands on the rest. -/

namespace ApiReference

/-- Why a text is not read as a JSON value. -/
inductive JsonFault
  | malformed
  /-- A whole number has too many digits. -/
  | hugeNumber
deriving DecidableEq, Inhabited, Repr

namespace Json

/-- Drops the blanks that may stand between tokens. -/
def skipBlanks (x : Text) : Text :=
  x.dropWhile fun c => c == ' ' || c == '\t' || c == '\n' || c == '\r'

/-! ### Strings -/

/-- Four hexadecimal digits. -/
def hexUnit? (a b c d : Char) : Option Nat := do
  return 0x1000 * (← hexValue? a) + 0x100 * (← hexValue? b) + 0x10 * (← hexValue? c) +
    (← hexValue? d)

/-- The character that a one-letter escape stands for. -/
def shortEscaped? (c : Char) : Option Char :=
  if c == '\x22' || c == '\x5c' || c == '/' then some c
  else if c == 'n' then some '\n'
  else if c == 'r' then some '\r'
  else if c == 't' then some '\t'
  else if c == 'b' then some '\x08'
  else if c == 'f' then some '\x0c'
  else none

/-- Reads the rest of a string after its opening quotation mark, as numbers: code points, and the
halves of pairs that escapes write.  Control characters are refused. -/
def unitsRest? : Text → Option (List Nat × Text)
  | [] => none
  | '\x22' :: rest => some ([], rest)
  | '\x5c' :: 'u' :: a :: b :: c :: d :: rest =>
    match hexUnit? a b c d with
    | none => none
    | some n => (unitsRest? rest).map fun (units, r) => (n :: units, r)
  | '\x5c' :: e :: rest =>
    match shortEscaped? e with
    | none => none
    | some c => (unitsRest? rest).map fun (units, r) => (c.toNat :: units, r)
  | c :: rest =>
    if c.toNat < 0x20 then none
    else (unitsRest? rest).map fun (units, r) => (c.toNat :: units, r)

/-- The number is the first half of a pair. -/
def isHighHalf (n : Nat) : Bool := 0xd800 ≤ n && n < 0xdc00

/-- The number is the second half of a pair. -/
def isLowHalf (n : Nat) : Bool := 0xdc00 ≤ n && n < 0xe000

/-- The characters that numbers stand for, two halves together standing for one. -/
def ofUnits : List Nat → Text
  | [] => []
  | [n] => [Char.ofNat n]
  | high :: low :: more =>
    if isHighHalf high && isLowHalf low then
      Char.ofNat (0x10000 + (high - 0xd800) * 0x400 + (low - 0xdc00)) :: ofUnits more
    else Char.ofNat high :: ofUnits (low :: more)

/-- Reads the rest of a string after its opening quotation mark. -/
def stringRest? (x : Text) : Option (Text × Text) :=
  (unitsRest? x).map fun (units, rest) => (ofUnits units, rest)

/-! ### Numbers -/

/-- The longest run of digits and what follows it. -/
def digitRun (x : Text) : Text × Text := (x.takeWhile Char.isDigit, x.dropWhile Char.isDigit)

/-- The number that digits of base ten write. -/
def digitsValue (digits : Text) : Nat := digits.foldl (fun n c => 10 * n + (c.toNat - 0x30)) 0

/-- The whole part of a number: a zero alone, or digits without a leading zero. -/
def wholePart? : Text → Option (Text × Text)
  | '0' :: rest => some (['0'], rest)
  | x => match digitRun x with
    | ([], _) => none
    | run => some run

/-- The digits after a point, if there are any. -/
def fractionPart? : Text → Option (Text × Text)
  | '.' :: x => match digitRun x with
    | ([], _) => none
    | run => some run
  | _ => none

/-- The exponent after an `e`, if it is complete. -/
def exponentPart? : Text → Option (Int × Text)
  | e :: x =>
    if e == 'e' || e == 'E' then
      let (negative, y) := match x with
        | '-' :: y => (true, y)
        | '+' :: y => (false, y)
        | y => (false, y)
      match digitRun y with
      | ([], _) => none
      | (digits, rest) =>
        let n : Int := digitsValue digits
        some (if negative then -n else n, rest)
    else none
  | [] => none

/-- Reads a number: whole if it has neither a fraction nor an exponent. -/
def readUnsigned (negative : Bool) (x : Text) : Except JsonFault (Json × Text) :=
  match wholePart? x with
  | none => throw .malformed
  | some (whole, rest) =>
    let (fraction, rest') := (fractionPart? rest).getD ([], rest)
    let digits := whole ++ fraction
    match exponentPart? rest' with
    | some (e, rest'') =>
      return (.float (.ofDecimal negative (digitsValue digits) (e - fraction.length)), rest'')
    | none =>
      if !fraction.isEmpty then
        return (.float (.ofDecimal negative (digitsValue digits) (-fraction.length)), rest')
      else if mostDigits < whole.length then throw .hugeNumber
      else
        let n : Int := digitsValue whole
        return (.int (if negative then -n else n), rest')

/-- Reads one of the words that stand for a value, or a number. -/
def readScalar (x : Text) : Except JsonFault (Json × Text) :=
  let words : List (Text × Json) :=
    [("null", null), ("true", bool true), ("false", bool false), ("NaN", float .nan),
      ("Infinity", float (.infinite false)), ("-Infinity", float (.infinite true))]
  match words.find? fun (w, _) => x.startsWith w with
  | some (w, value) => return (value, x.drop w.length)
  | none =>
    match x with
    | '-' :: rest => readUnsigned true rest
    | _ => readUnsigned false x

/-! ### Values -/

/-- Reads the rest of a string after its opening quotation mark. -/
def readString (x : Text) : Except JsonFault (Text × Text) :=
  match stringRest? x with
  | some read => return read
  | none => throw .malformed

mutual

/-- Reads a value nested at most `fuel` steps deep or long. -/
def readValue : Nat → Text → Except JsonFault (Json × Text)
  | 0, _ => throw .malformed
  | fuel + 1, x =>
    match x with
    | '\x22' :: rest => do
      let (x, rest) ← readString rest
      return (.str x, rest)
    | '[' :: rest =>
      match skipBlanks rest with
      | ']' :: rest => return (.arr [], rest)
      | rest => do
        let (items, rest) ← readItems fuel rest
        return (.arr items, rest)
    | '\x7b' :: rest =>
      match skipBlanks rest with
      | '\x7d' :: rest => return (.obj [], rest)
      | rest => do
        let (fields, rest) ← readFields fuel [] rest
        return (.obj fields, rest)
    | _ => readScalar x

/-- Reads the items of a list up to its closing bracket. -/
def readItems : Nat → Text → Except JsonFault (List Json × Text)
  | 0, _ => throw .malformed
  | fuel + 1, x => do
    let (item, rest) ← readValue fuel x
    match skipBlanks rest with
    | ']' :: rest => return ([item], rest)
    | ',' :: rest => do
      let (items, rest) ← readItems fuel (skipBlanks rest)
      return (item :: items, rest)
    | _ => throw .malformed

/-- Reads the fields of an object up to its closing brace. -/
def readFields : Nat → List (Text × Json) → Text →
    Except JsonFault (List (Text × Json) × Text)
  | 0, _, _ => throw .malformed
  | fuel + 1, fields, x =>
    match x with
    | '\x22' :: rest => do
      let (key, rest) ← readString rest
      match skipBlanks rest with
      | ':' :: rest => do
        let (value, rest) ← readValue fuel (skipBlanks rest)
        match skipBlanks rest with
        | '\x7d' :: rest => return (putField key value fields, rest)
        | ',' :: rest => readFields fuel (putField key value fields) (skipBlanks rest)
        | _ => throw .malformed
      | _ => throw .malformed
    | _ => throw .malformed

end

/-- Reads a text that holds one value and blanks around it. -/
def parse (x : Text) : Except JsonFault Json := do
  let (value, rest) ← readValue (x.length + 1) (skipBlanks x)
  if (skipBlanks rest).isEmpty then return value else throw .malformed

end Json

end ApiReference
