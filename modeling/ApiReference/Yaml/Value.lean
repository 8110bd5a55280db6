import ApiReference.Yaml.Node
import ApiReference.Decimal.Shortest
import ApiReference.Text.Case
import ApiReference.Text.Digit

/-! # Values

The values that nodes stand for.  A plain scalar is null, a truth value, a number or a date if it
is written like one, and a text otherwise. -/

namespace ApiReference.Yaml

/-- A value.  Dates are kept in the form in which they are shown. -/
inductive Value
  | null
  | bool (b : Bool)
  | int (n : Int)
  | float (x : Binary64)
  | str (x : Text)
  | date (shown : Text)
  | list (items : List Value)
  | map (pairs : List (Value × Value))
deriving Inhabited

/-! ### How scalars are written -/

/-- The words for truth values. -/
def truthWords : List (Text × Bool) :=
  [("yes", true), ("no", false), ("true", true), ("false", false), ("on", true), ("off", false)]

/-- The word is in lower case, in capitals, or begins with a capital. -/
def inPlainCase (x : Text) : Bool :=
  x == x.lower || x == x.map Char.toUpper || x == x.capitalize

/-- The truth value that a word stands for. -/
def truthOf? (x : Text) : Option Bool := truthWords.lookup x.lower

/-- The text is a word for null. -/
def isNullWord (x : Text) : Bool :=
  x.isEmpty || x == ['~'] || (x.lower == ("null" : Text) && inPlainCase x)

/-- The text without a sign before it. -/
def dropSign : Text → Text
  | '-' :: rest => rest
  | '+' :: rest => rest
  | x => x

/-- The text begins with a minus sign. -/
def hasMinus (x : Text) : Bool := x.head? == some '-'

/-- Digits and underscores only. -/
def isDigits (p : Char → Bool) (x : Text) : Bool := x.all fun c => p c || c == '_'

/-- A digit first, then digits and underscores. -/
def isDigitRun (x : Text) : Bool := x.head?.any Char.isDigit && isDigits Char.isDigit x

/-- One or two digits below sixty. -/
def isSixtieth : Text → Bool
  | [a] => a.isDigit
  | [a, b] => '0' ≤ a && a ≤ '5' && b.isDigit
  | _ => false

/-- The character is a digit of base eight. -/
def isOctal (c : Char) : Bool := '0' ≤ c && c ≤ '7'

/-- The text is written like a whole number: in base two, eight, ten, sixteen or sixty. -/
def looksWhole (x : Text) : Bool :=
  let unsigned := dropSign x
  match unsigned with
  | '0' :: 'b' :: digits => !digits.isEmpty && isDigits (fun c => c == '0' || c == '1') digits
  | '0' :: 'x' :: digits => !digits.isEmpty && isDigits (fun c => (hexValue? c).isSome) digits
  | ['0'] => true
  | '0' :: digits => isDigits isOctal digits
  | _ =>
    match Text.split ':' unsigned with
    | [] => false
    | first :: more => isDigitRun first && more.all isSixtieth

/-- The exponent of a number: a letter, a sign and digits. -/
def isExponent : Text → Bool
  | e :: sign :: digits =>
    (e == 'e' || e == 'E') && (sign == '+' || sign == '-') && !digits.isEmpty &&
      digits.all Char.isDigit
  | _ => false

/-- What may follow the point of a number: digits and underscores, and an exponent. -/
def isFraction (x : Text) : Bool :=
  let rest := x.dropWhile fun c => c.isDigit || c == '_'
  rest.isEmpty || isExponent rest

/-- The words for an infinite number. -/
def infiniteWords : List Text := [".inf", ".Inf", ".INF"]

/-- The words for what is no number. -/
def nanWords : List Text := [".nan", ".NaN", ".NAN"]

/-- The text is written like a floating-point number, which always has a point. -/
def looksFloat (x : Text) : Bool :=
  let unsigned := dropSign x
  let whole := unsigned.takeWhile (· != '.')
  match unsigned.dropWhile (· != '.') with
  | '.' :: fraction =>
    if whole.isEmpty then
      infiniteWords.contains unsigned || nanWords.contains x ||
        (unsigned == x && fraction.head?.any Char.isDigit && isFraction fraction)
    else
      match Text.split ':' whole with
      | [only] => isDigitRun only && isFraction fraction
      | first :: more =>
        isDigitRun first && more.all isSixtieth && isDigits Char.isDigit fraction
      | [] => false
  | _ => false

/-! ### Numbers -/

/-- The number that digits of base sixty, each written in base ten, stand for. -/
def sixtyValue (digits : List Int) : Int := digits.foldl (fun n d => 60 * n + d) 0

/-- The number that a scalar without its sign writes. -/
def magnitude? : Text → Option Int
  | ['0'] => some 0
  | '0' :: 'b' :: digits => wholeIn? 2 digits
  | '0' :: 'x' :: digits => wholeIn? 16 digits
  | '0' :: digits => wholeIn? 8 ('0' :: digits)
  | x =>
    if x.contains ':' then ((Text.split ':' x).mapM whole?).map sixtyValue else whole? x

/-- The whole number that a scalar writes. -/
def wholeOf (x : Text) : Except Fault Int :=
  let cleaned := x.filter (· != '_')
  match dropSign cleaned with
  | [] => .error .emptyScalar
  | unsigned =>
    match magnitude? unsigned with
    | some n => .ok (if hasMinus cleaned then -n else n)
    | none => .error .badScalar

/-- The floating-point number that digits with a point or an exponent write. -/
def decimalOf? (x : Text) : Option Binary64 :=
  let whole := x.takeWhile Char.isDigit
  let rest := x.dropWhile Char.isDigit
  let (fraction, rest) := match rest with
    | '.' :: rest => (rest.takeWhile Char.isDigit, rest.dropWhile Char.isDigit)
    | rest => ([], rest)
  let digits := whole ++ fraction
  if digits.isEmpty then none
  else
    let value := Json.digitsValue digits
    if rest.isEmpty then some (.ofDecimal false value (-fraction.length))
    else
      match Json.exponentPart? rest with
      | some (e, []) => some (.ofDecimal false value (e - fraction.length))
      | _ => none

/-- The floating-point number that a text in lower case writes: blanks around it, a sign, and a word
or digits of any script. -/
def floatIn? (x : Text) : Option Binary64 :=
  let trimmed := withPlainDigits (Text.trimWhile isNumberBlank x)
  let unsigned := dropSign trimmed
  let magnitude? : Option Binary64 :=
    if unsigned == ("inf" : Text) || unsigned == ("infinity" : Text) then some (.infinite false)
    else if unsigned == ("nan" : Text) then some .nan
    else decimalOf? unsigned
  magnitude?.map fun x => if hasMinus trimmed then x.neg else x

/-- The number that digits of base sixty write, the last of which can have a point. -/
def sixtyFloat (digits : List Binary64) : Binary64 :=
  (digits.reverse.foldl
    (fun (acc : Binary64 × Nat) d => (acc.1.add (d.mul (.ofInt acc.2)), acc.2 * 60))
    (.finite false 0 (-1074), 1)).1

/-- The floating-point number that a scalar writes. -/
def floatOf (x : Text) : Except Fault Binary64 :=
  let cleaned := Text.lower (x.filter (· != '_'))
  match dropSign cleaned with
  | [] => if cleaned.isEmpty then .error .emptyScalar else .error .badScalar
  | unsigned =>
    let magnitude? : Option Binary64 :=
      if unsigned == (".inf" : Text) then some (.infinite false)
      else if unsigned == (".nan" : Text) then some .nan
      else if unsigned.contains ':' then
        ((Text.split ':' unsigned).mapM floatIn?).map sixtyFloat
      else floatIn? unsigned
    match magnitude? with
    | some x => .ok (if hasMinus cleaned then x.neg else x)
    | none => .error .badScalar

/-! ### Dates -/

/-- The parts of a date, and of a time of day if there is one. -/
structure DateParts where
  year : Text
  month : Text
  day : Text
  /-- Hours, minutes and seconds. -/
  clock : Option (Text × Text × Text) := none
  /-- The digits after the point of the seconds. -/
  fraction : Text := []
  /-- The sign, the hours and the minutes of the distance from universal time. -/
  zone : Option (Bool × Text × Text) := none

/-- Between so many and so many digits at the start of a text. -/
def someDigits? (least most : Nat) (x : Text) : Option (Text × Text) :=
  let size := min most (x.takeWhile Char.isDigit).length
  if size < least then none else some (x.take size, x.drop size)

/-- The zone after a time of day, which ends the text. -/
def zone? (x : Text) : Option (Option (Bool × Text × Text)) :=
  if x.isEmpty then some none
  else
    match x.dropWhile fun c => c == ' ' || c == '\t' with
    | ['Z'] => some (some (false, ['0'], ['0']))
    | sign :: rest => do
      if sign != '+' && sign != '-' then none
      let (hours, rest) ← someDigits? 1 2 rest
      match rest with
      | [] => some (some (sign == '-', hours, ['0']))
      | ':' :: rest =>
        let (minutes, rest) ← someDigits? 2 2 rest
        if rest.isEmpty then some (some (sign == '-', hours, minutes)) else none
      | _ => none
    | [] => none

/-- The time of day after a date, which ends the text. -/
def clock? (parts : DateParts) (x : Text) : Option DateParts := do
  let rest ← match x with
    | 'T' :: rest => some rest
    | 't' :: rest => some rest
    | c :: rest =>
      if c == ' ' || c == '\t' then some (rest.dropWhile fun c => c == ' ' || c == '\t') else none
    | [] => none
  let (hours, rest) ← someDigits? 1 2 rest
  let rest ← Text.dropStart? [':'] rest
  let (minutes, rest) ← someDigits? 2 2 rest
  let rest ← Text.dropStart? [':'] rest
  let (seconds, rest) ← someDigits? 2 2 rest
  let (fraction, rest) := match rest with
    | '.' :: rest => (rest.takeWhile Char.isDigit, rest.dropWhile Char.isDigit)
    | rest => ([], rest)
  let zone ← zone? rest
  return { parts with clock := some (hours, minutes, seconds), fraction, zone }

/-- The parts of a text that is written like a date. -/
def dateParts? (x : Text) : Option DateParts := do
  let (year, rest) ← someDigits? 4 4 x
  let rest ← Text.dropStart? ['-'] rest
  let (month, rest) ← someDigits? 1 2 rest
  let rest ← Text.dropStart? ['-'] rest
  let (day, rest) ← someDigits? 1 2 rest
  let parts : DateParts := { year, month, day }
  if rest.isEmpty then if month.length == 2 && day.length == 2 then some parts else none
  else clock? parts rest

/-- The number of days in a month. -/
def daysInMonth (year month : Nat) : Nat :=
  if month == 2 then
    if year % 4 == 0 && (year % 100 != 0 || year % 400 == 0) then 29 else 28
  else if month == 4 || month == 6 || month == 9 || month == 11 then 30
  else 31

/-- A number of at least two digits. -/
def twoDigits (n : Nat) : Text := (if n < 10 then ['0'] else []) ++ Text.ofNat n

/-- The seconds with the digits after their point, of which there are six if any. -/
def secondsText (seconds : Nat) (fraction : Text) : Text :=
  let micros := fraction.take 6 ++ List.replicate (6 - fraction.length) '0'
  twoDigits seconds ++ (if Json.digitsValue micros == 0 then [] else '.' :: micros)

/-- The distance from universal time, which must be less than a day. -/
def zoneText : Option (Bool × Text × Text) → Except Fault Text
  | none => .ok []
  | some (negative, hours, minutes) =>
    let total := 60 * Json.digitsValue hours + Json.digitsValue minutes
    if 24 * 60 ≤ total then .error .badScalar
    else
      .ok ((if negative && total != 0 then '-' else '+') :: twoDigits (total / 60) ++ [':'] ++
        twoDigits (total % 60))

/-- A date as it is shown, if there is such a day and such a time. -/
def dateText (parts : DateParts) : Except Fault Text :=
  let year := Json.digitsValue parts.year
  let month := Json.digitsValue parts.month
  let day := Json.digitsValue parts.day
  if year == 0 || month == 0 || 12 < month || day == 0 || daysInMonth year month < day then
    .error .badScalar
  else
    let shown := parts.year ++ ['-'] ++ twoDigits month ++ ['-'] ++ twoDigits day
    match parts.clock with
    | none => .ok shown
    | some (hours, minutes, seconds) =>
      let h := Json.digitsValue hours
      let m := Json.digitsValue minutes
      let s := Json.digitsValue seconds
      if 24 ≤ h || 60 ≤ m || 60 ≤ s then .error .badScalar
      else do
        let zone ← zoneText parts.zone
        return shown ++ [' '] ++ twoDigits h ++ [':'] ++ twoDigits m ++ [':'] ++
          secondsText s parts.fraction ++ zone

/-! ### From nodes to values -/

/-- The tag that a plain scalar has by the way it is written. -/
def impliedTag (x : Text) : Text :=
  if (truthOf? x).isSome && inPlainCase x then Node.coreTag "bool"
  else if looksFloat x then Node.coreTag "float"
  else if looksWhole x then Node.coreTag "int"
  else if x == ("<<" : Text) then Node.coreTag "merge"
  else if isNullWord x then Node.coreTag "null"
  else if (dateParts? x).isSome then Node.coreTag "timestamp"
  else if x == ['='] then Node.coreTag "value"
  else if x == ['!'] || x == ['&'] || x == ['*'] then Node.coreTag "yaml"
  else Node.coreTag "str"

/-- The tag of a scalar. -/
def tagOf (tag : Option Text) (x : Text) : Text := tag.getD (impliedTag x)

/-- The value of a scalar. -/
def scalarValue (tag : Option Text) (x : Text) : Except Fault Value :=
  let tag := tagOf tag x
  if tag == Node.coreTag "str" then .ok (.str x)
  else if tag == Node.coreTag "null" then .ok .null
  else if tag == Node.coreTag "int" then (wholeOf x).map .int
  else if tag == Node.coreTag "float" then (floatOf x).map .float
  else if tag == Node.coreTag "bool" then
    match truthOf? x with
    | some b => .ok (.bool b)
    | none => .error .unknownTruth
  else if tag == Node.coreTag "timestamp" then
    match dateParts? x with
    | some parts => (dateText parts).map .date
    | none => .error .unknownDate
  else .error .malformed

namespace Value

/-- Two keys are the same; numbers and truth values are compared by their numbers. -/
def sameKey : Value → Value → Bool
  | null, null => true
  | str x, str y => x == y
  | date x, date y => x == y
  | a, b =>
    match number? a, number? b with
    | some x, some y => x == y
    | _, _ => false
where
  /-- The number that a key stands for. -/
  number? : Value → Option Binary64
    | bool b => some (.ofInt (if b then 1 else 0))
    | int n => some (.ofInt n)
    | float .nan => none
    | float x => some (if x.isZero then .ofInt 0 else x)
    | _ => none

/-- Puts a pair: a key that is there keeps its place and gets the new value. -/
def putPair (key value : Value) : List (Value × Value) → List (Value × Value)
  | [] => [(key, value)]
  | (k, v) :: more =>
    if sameKey k key then (k, value) :: more else (k, v) :: putPair key value more

end Value

/-- The key merges other mappings into its own. -/
def isMergeKey : Node → Bool
  | .scalar tag x => tagOf tag x == Node.coreTag "merge"
  | _ => false

/-- The key is an equals sign. -/
def isEqualsKey : Node → Bool
  | .scalar tag x => tagOf tag x == Node.coreTag "value"
  | _ => false

/-- A key that is an equals sign is a text. -/
def plainKey : Node → Node
  | .scalar tag x =>
    if isEqualsKey (.scalar tag x) then .scalar (some (Node.coreTag "str")) x else .scalar tag x
  | node => node

mutual

/-- The text of a node that is tagged as a scalar: its own, or that of the value under an equals
sign. -/
def scalarText? : Node → Option Text
  | .scalar _ x => some x
  | .sequence _ _ => none
  | .mapping _ pairs => equalsText? pairs

/-- The text of the value under an equals sign. -/
def equalsText? : List (Node × Node) → Option Text
  | [] => none
  | (key, value) :: more => if isEqualsKey key then scalarText? value else equalsText? more

end

mutual

/-- The pairs of a mapping after those it merges in, at most `fuel` levels deep. -/
def mergedPairs : Nat → List (Node × Node) → Except Fault (List (Node × Node))
  | 0, _ => .error .malformed
  | fuel + 1, pairs => do
    let merged ← (pairs.filter fun (key, _) => isMergeKey key).mapM fun (_, value) =>
      mergeSource fuel value
    let own := (pairs.filter fun (key, _) => !isMergeKey key).map fun (key, value) =>
      (plainKey key, value)
    return merged.flatten ++ own

/-- The pairs that a merged mapping gives, or several of them, the first of which counts most. -/
def mergeSource : Nat → Node → Except Fault (List (Node × Node))
  | 0, _ => .error .malformed
  | fuel + 1, node =>
    match node with
    | .mapping _ pairs => mergedPairs fuel pairs
    | .sequence _ items => do
      let sources ← items.mapM fun item =>
        match item with
        | .mapping _ pairs => mergedPairs fuel pairs
        | _ => .error .malformed
      return sources.reverse.flatten
    | .scalar _ _ => .error .malformed

end

/-- The node is a collection, and tagged as the collection it is. -/
def isCollection : Node → Bool
  | .scalar _ _ => false
  | .sequence tag _ => tag.all (· == Node.coreTag "seq")
  | .mapping tag _ => tag.all (· == Node.coreTag "map")

/-- The value of a node that counts as a scalar. -/
def scalarNodeValue : Node → Except Fault Value
  | .scalar tag x => scalarValue tag x
  | .sequence _ _ => .error .malformed
  | .mapping tag pairs =>
    match equalsText? pairs with
    | some x => scalarValue (some (tag.getD [])) x
    | none => .error .malformed

/-! ### The order of faults

Collections are filled level by level: first the scalars in a collection are read, and the
collections in it wait until those of the same level have been opened. -/

/-- Reads a node if it is a scalar; a collection is left to be opened. -/
def readOrWait (node : Node) : Except Fault (List Node) :=
  if isCollection node then .ok [node] else (scalarNodeValue node).map fun _ => []

/-- Reads the scalars of a collection; the collections in it are left to be opened. -/
def openNode (fuel : Nat) : Node → Except Fault (List Node)
  | .scalar _ _ => .ok []
  | .sequence _ items => return (← items.mapM readOrWait).flatten
  | .mapping _ pairs => do
    let waiting ← (← mergedPairs fuel pairs).mapM fun (key, value) => do
      if isCollection key then throw .malformed
      let _ ← readOrWait key
      readOrWait value
    return waiting.flatten

/-- Opens the collections of a level, and those that they hold after them. -/
def checkLevels : Nat → List Node → Except Fault Unit
  | 0, _ => .error .malformed
  | _, [] => .ok ()
  | fuel + 1, nodes => do
    let next ← nodes.mapM (openNode (fuel + 1))
    checkLevels fuel next.flatten

/-! ### Values -/

/-- The value of a node nested at most `fuel` levels deep. -/
def valueWithin : Nat → Node → Except Fault Value
  | 0, _ => .error .malformed
  | fuel + 1, node =>
    if isCollection node then
      match node with
      | .scalar _ _ => .error .malformed
      | .sequence _ items => do return .list (← items.mapM (valueWithin fuel))
      | .mapping _ pairs => do
        let values ← (← mergedPairs (fuel + 1) pairs).mapM fun (key, value) => do
          return (← scalarNodeValue key, ← valueWithin fuel value)
        return .map (values.foldl (fun done (key, value) => Value.putPair key value done) [])
    else scalarNodeValue node

/-- The value of a node nested at most `fuel` levels deep, or the first fault in it. -/
def valueOfNode (fuel : Nat) (node : Node) : Except Fault Value := do
  let waiting ← readOrWait node
  checkLevels fuel waiting
  valueWithin fuel node

namespace Value

/-- Reads a text that holds one document; an empty one is null. -/
def parse (x : Text) : Except Fault Value := do
  let source := Tokens.ofText x
  match ← Node.ofTokens source with
  | none => return .null
  | some node => valueOfNode (2 * source.tokens.length + 2) node

/-- The display form of a scalar. -/
def display? : Value → Option Text
  | null => some "None"
  | bool b => some (if b then "True" else "False")
  | int n => some (Text.ofInt n)
  | float x => some x.toText
  | str x => some x
  | date x => some x
  | _ => none

/-- The value of a key in a mapping; what is no mapping has no keys. -/
def get? (value : Value) (key : Text) : Option Value :=
  match value with
  | map pairs => (pairs.find? fun (k, _) => sameKey k (str key)).map (·.2)
  | _ => none

/-- The pairs of a mapping; what is no mapping has none. -/
def pairs : Value → List (Value × Value)
  | map pairs => pairs
  | _ => []

end Value

end ApiReference.Yaml
