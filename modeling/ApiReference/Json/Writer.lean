import ApiReference.Json.Value
import ApiReference.Decimal.Shortest
import ApiReference.Text.Quoted

/-! # Written JSON values

Three printed forms of a value: on one line, over several indented lines in ASCII alone, and the
display form that names and log lines are built from. -/

namespace ApiReference.Json

/-! ### Strings -/

/-- The escape of a character that has a short one. -/
def shortEscape? (c : Char) : Option Char :=
  if c == '\x22' || c == '\x5c' then some c
  else if c == '\n' then some 'n'
  else if c == '\r' then some 'r'
  else if c == '\t' then some 't'
  else if c == '\x08' then some 'b'
  else if c == '\x0c' then some 'f'
  else none

/-- Four hexadecimal digits after `\u`. -/
def unitEscape (n : Nat) : Text := ['\x5c', 'u'] ++ hexDigits 4 n

/-- A character in a string that may hold every character from the space on. -/
def escaped (c : Char) : Text :=
  match shortEscape? c with
  | some e => ['\x5c', e]
  | none => if c.toNat < 0x20 then unitEscape c.toNat else [c]

/-- A character in a string of printable ASCII alone; one beyond the first plane takes two escapes. -/
def escapedAscii (c : Char) : Text :=
  let n := c.toNat
  if n < 0x7f then escaped c
  else if n < 0x10000 then unitEscape n
  else unitEscape (0xd800 + (n - 0x10000) / 0x400) ++ unitEscape (0xdc00 + (n - 0x10000) % 0x400)

/-- A string in double quotes. -/
def stringWith (escape : Char → Text) (x : Text) : Text :=
  ['\x22'] ++ x.flatMap escape ++ ['\x22']

/-! ### One line -/

/-- The name of a floating-point number that JSON has no digits for, or its digits. -/
def floatText : Binary64 → Text
  | .nan => "NaN"
  | .infinite negative => if negative then "-Infinity" else "Infinity"
  | x => x.toText

mutual

/-- The value on one line, with a blank after every comma and colon. -/
def render : Json → Text
  | null => "null"
  | bool b => if b then "true" else "false"
  | int n => Text.ofInt n
  | float x => floatText x
  | str x => stringWith escaped x
  | arr items => ['['] ++ renderItems items ++ [']']
  | obj fields => ['\x7b'] ++ renderFields fields ++ ['\x7d']

/-- The items, separated by commas. -/
def renderItems : List Json → Text
  | [] => []
  | [item] => render item
  | item :: more => render item ++ ", " ++ renderItems more

/-- The fields, separated by commas. -/
def renderFields : List (Text × Json) → Text
  | [] => []
  | [(key, value)] => stringWith escaped key ++ ": " ++ render value
  | (key, value) :: more =>
    stringWith escaped key ++ ": " ++ render value ++ ", " ++ renderFields more

end

/-! ### Indented lines -/

/-- A new line with the given indentation. -/
def newline (indent : Nat) : Text := '\n' :: List.replicate indent ' '

mutual

/-- The value over several lines, two more blanks before each deeper level, in ASCII alone. -/
def renderIndented (indent : Nat) : Json → Text
  | null => "null"
  | bool b => if b then "true" else "false"
  | int n => Text.ofInt n
  | float x => floatText x
  | str x => stringWith escapedAscii x
  | arr [] => "[]"
  | obj [] => ['\x7b', '\x7d']
  | arr (item :: more) =>
    ['['] ++ newline (indent + 2) ++ renderIndented (indent + 2) item ++
      renderItemsIndented (indent + 2) more ++ newline indent ++ [']']
  | obj ((key, value) :: more) =>
    ['\x7b'] ++ newline (indent + 2) ++ stringWith escapedAscii key ++ ": " ++
      renderIndented (indent + 2) value ++ renderFieldsIndented (indent + 2) more ++
      newline indent ++ ['\x7d']

/-- The items after the first, each on a line of its own. -/
def renderItemsIndented (indent : Nat) : List Json → Text
  | [] => []
  | item :: more =>
    [','] ++ newline indent ++ renderIndented indent item ++ renderItemsIndented indent more

/-- The fields after the first, each on a line of its own. -/
def renderFieldsIndented (indent : Nat) : List (Text × Json) → Text
  | [] => []
  | (key, value) :: more =>
    [','] ++ newline indent ++ stringWith escapedAscii key ++ ": " ++
      renderIndented indent value ++ renderFieldsIndented indent more

end

/-! ### Display form -/

mutual

/-- The display form inside a list or an object, where texts are quoted. -/
def displayQuoted : Json → Text
  | null => "None"
  | bool b => if b then "True" else "False"
  | int n => Text.ofInt n
  | float x => x.toText
  | str x => x.quoted
  | arr items => ['['] ++ displayItems items ++ [']']
  | obj fields => ['\x7b'] ++ displayFields fields ++ ['\x7d']

/-- The display forms of the items, separated by commas. -/
def displayItems : List Json → Text
  | [] => []
  | [item] => displayQuoted item
  | item :: more => displayQuoted item ++ ", " ++ displayItems more

/-- The display forms of the fields, separated by commas. -/
def displayFields : List (Text × Json) → Text
  | [] => []
  | [(key, value)] => key.quoted ++ ": " ++ displayQuoted value
  | (key, value) :: more => key.quoted ++ ": " ++ displayQuoted value ++ ", " ++ displayFields more

end

/-- The display form: a text as it is, every other value as inside a list. -/
def display : Json → Text
  | str x => x
  | value => displayQuoted value

end ApiReference.Json
