import ApiReference.Command.Basic
import ApiReference.Text.Digit

/-! # Arguments

Reads a command line.  Each argument is first taken for a flag or a word: a flag may be cut short as
long as it is the only one that begins like that, it may have its value after an equals sign, and
short flags may be run together; after two hyphens everything is a word.  Then the flags take their
values and the words their places, and what is left over is refused. -/

namespace ApiReference

/-! ### Sorting arguments -/

/-- What an argument is taken for. -/
inductive ArgumentSort
  | word
  /-- Two hyphens, after which everything is a word. -/
  | divider
  /-- A flag, given by a short name or not, and what is attached to it in the same argument. -/
  | flag (flag : Flag) (isShort : Bool) (attached : Option Text)
  /-- A flag that the grammar does not know. -/
  | unknown

/-- An argument and what it is taken for. -/
structure Argument where
  text : Text
  sort : ArgumentSort

/-- The digits, perhaps with a point, of a number. -/
def isUnsignedNumber (x : Text) : Bool :=
  let isDigit := fun c => (digitValue? c).isSome
  match x.dropWhile isDigit with
  | [] => !x.isEmpty
  | '.' :: fraction => !fraction.isEmpty && fraction.all isDigit
  | _ => false

/-- The argument is a number below zero, perhaps at the end of a line. -/
def isNegativeNumber : Text → Bool
  | '-' :: rest => isUnsignedNumber (if Text.endsWith rest ['\n'] then rest.dropLast else rest)
  | _ => false

namespace Grammar

/-- The name has one hyphen only. -/
def isShortName (name : Text) : Bool := !Text.startsWith name "--"

/-- The flags that an argument may mean, with their names: for one with two hyphens those that begin
like it up to its equals sign, for one with a single hyphen the one of its first letter. -/
def candidates (grammar : Grammar) (x : Text) : List (Text × ArgumentSort) :=
  if isShortName x then
    grammar.names.filterMap fun (name, flag) =>
      if name == x.take 2 then some (name, .flag flag true (some (x.drop 2)))
      else if Text.startsWith name x then some (name, .flag flag true none)
      else none
  else
    match Text.cutAt? ['='] x with
    | some (start, value) =>
      (grammar.namesStarting start).map fun (name, flag) => (name, .flag flag false (some value))
    | none => (grammar.namesStarting x).map fun (name, flag) => (name, .flag flag false none)

/-- The flag that an argument names in full, perhaps before an equals sign. -/
def exactFlag? (grammar : Grammar) (x : Text) : Option ArgumentSort :=
  match grammar.flagNamed? x with
  | some flag => some (.flag flag (isShortName x) none)
  | none =>
    (Text.cutAt? ['='] x).bind fun (name, value) =>
      (grammar.flagNamed? name).map fun flag => .flag flag (isShortName name) (some value)

/-- What an argument before the divider is taken for. -/
def sortOf (grammar : Grammar) (x : Text) : Except UsageCause ArgumentSort :=
  match x with
  | '-' :: _ :: _ =>
    match grammar.exactFlag? x with
    | some sort => .ok sort
    | none =>
      match grammar.candidates x with
      | [(_, sort)] => .ok sort
      | [] => .ok (if isNegativeNumber x || x.contains ' ' then .word else .unknown)
      | several => .error (.ambiguous x (several.map (·.1)))
  | _ => .ok .word

/-- Sorts the arguments of a program. -/
def sortAll (grammar : Grammar) : List Text → Except UsageCause (List Argument)
  | [] => .ok []
  | x :: more =>
    if x == ("--" : Text) then .ok (⟨x, .divider⟩ :: more.map fun word => ⟨word, .word⟩)
    else do
      let sort ← grammar.sortOf x
      return ⟨x, sort⟩ :: (← grammar.sortAll more)

end Grammar

/-! ### Taking arguments -/

/-- A flag as it is given, with its value if it has one. -/
abbrev GivenFlag := Flag × Option Text

/-- A flag with the value that is attached to it.  Two hyphens stand for no value. -/
def Flag.withValue (flag : Flag) (value : Text) : GivenFlag :=
  (flag, if value == ("--" : Text) then none else some value)

/-- What one argument gives: flags with their values, and perhaps a flag that waits for its value. -/
structure Taken where
  flags : List GivenFlag := []
  waiting : Option Flag := none

/-- A flag without anything attached to it. -/
def Taken.alone (flag : Flag) : Taken :=
  if flag.takesValue then { waiting := some flag } else { flags := [(flag, none)] }

namespace Grammar

/-- What a short flag gives with a text attached to it: its value, or further short flags. -/
def takeShort (grammar : Grammar) (flag : Flag) : Text → Except UsageCause Taken
  | [] =>
    if flag.takesValue then .ok { flags := [(flag, some [])] } else .error (.valueIgnored flag [])
  | c :: more =>
    if flag.takesValue then .ok { flags := [flag.withValue (c :: more)] }
    else
      match grammar.flagNamed? ['-', c] with
      | none => .error (.valueIgnored flag (c :: more))
      | some next => do
        let taken ←
          if more.isEmpty then pure (Taken.alone next) else grammar.takeShort next more
        return { taken with flags := (flag, none) :: taken.flags }

/-- What a flag gives. -/
def take (grammar : Grammar) (flag : Flag) (isShort : Bool) :
    Option Text → Except UsageCause Taken
  | none => .ok (.alone flag)
  | some attached =>
    if isShort then grammar.takeShort flag attached
    else if flag.takesValue then .ok { flags := [flag.withValue attached] }
    else .error (.valueIgnored flag attached)

end Grammar

/-! ### Reading arguments -/

/-- What has been read so far. -/
structure Reading where
  /-- The flags in their order, each with its value. -/
  flags : List GivenFlag := []
  word : Option Text := none
  /-- The arguments that the word has taken with it. -/
  rest : List Text := []
  /-- The arguments that nothing asks for. -/
  extras : List Text := []

namespace Reading

/-- Stops reading the arguments of a program. -/
def stop {α : Type} (grammar : Grammar) (cause : UsageCause) : Except UsageStop α :=
  .error (.fault ⟨grammar.program, cause⟩)

/-- Gives flags their effect, one after the other. -/
def give (grammar : Grammar) (reading : Reading) : List GivenFlag → Except UsageStop Reading
  | [] => .ok reading
  | (.help, _) :: _ => .error (.help grammar)
  | (.port, some value) :: more =>
    if (whole? value).isNone then stop grammar (.notWhole .port value)
    else give grammar { reading with flags := reading.flags ++ [(.port, some value)] } more
  | given :: more => give grammar { reading with flags := reading.flags ++ [given] } more

/-- Keeps an argument that nothing asks for. -/
def leave (reading : Reading) (x : Text) : Reading :=
  { reading with extras := reading.extras ++ [x] }

/-- Takes a word and all arguments after it. -/
def takeRest (reading : Reading) (x : Text) (more : List Argument) : Reading :=
  { reading with word := some x, rest := more.map (·.text) }

/-- A word is still wanted. -/
def isOpen (grammar : Grammar) (reading : Reading) : Bool :=
  grammar.word.isSome && reading.word.isNone

/-- Reads arguments; `waiting` is the flag whose value comes next. -/
def readAll (grammar : Grammar) (reading : Reading) (waiting : Option Flag) :
    List Argument → Except UsageStop Reading
  | [] =>
    match waiting with
    | some flag => stop grammar (.valueExpected flag)
    | none => .ok reading
  | ⟨x, sort⟩ :: more =>
    match waiting, sort with
    | some flag, .word => do
      let reading ← give grammar reading [(flag, some x)]
      readAll grammar reading none more
    | some flag, _ => stop grammar (.valueExpected flag)
    | none, .unknown => readAll grammar (reading.leave x) none more
    | none, .flag flag isShort attached =>
      match grammar.take flag isShort attached with
      | .error cause => stop grammar cause
      | .ok taken => do
        let reading ← give grammar reading taken.flags
        readAll grammar reading taken.waiting more
    | none, .word =>
      if !isOpen grammar reading then readAll grammar (reading.leave x) none more
      else if grammar.takesRest then .ok (reading.takeRest x more)
      else
        match more with
        | ⟨_, .divider⟩ :: more => readAll grammar { reading with word := some x } none more
        | more => readAll grammar { reading with word := some x } none more
    | none, .divider =>
      if !isOpen grammar reading then readAll grammar (reading.leave x) none more
      else
        match more with
        | [] => .ok (reading.leave x)
        | ⟨y, sort⟩ :: more =>
          if grammar.takesRest then .ok (reading.takeRest x (⟨y, sort⟩ :: more))
          else readAll grammar { reading with word := some y } none more

/-- Reads the arguments of a program. -/
def ofArguments (grammar : Grammar) (xs : List Text) : Except UsageStop Reading :=
  match grammar.sortAll xs with
  | .error cause => stop grammar cause
  | .ok arguments => do
    let reading ← readAll grammar {} none arguments
    if isOpen grammar reading then stop grammar (.required (grammar.word.getD []))
    else return reading

/-- The flag is given. -/
def has (reading : Reading) (flag : Flag) : Bool := reading.flags.any fun (f, _) => f == flag

/-- The value of a flag where it is given last. -/
def value? (reading : Reading) (flag : Flag) : Option Text :=
  (reading.flags.reverse.find? fun (f, _) => f == flag).bind (·.2)

/-- The options of the command that renders. -/
def renderOptions (reading : Reading) : RenderOptions :=
  { project := reading.word.getD []
    config := reading.value? .config
    output := reading.value? .output
    navigation := !reading.has .noNavigation }

/-- The options of the command that serves. -/
def serveOptions (reading : Reading) : ServeOptions :=
  let default : ServeOptions := {}
  { host := (reading.value? .host).getD default.host
    port := ((reading.value? .port).bind whole?).getD default.port }

end Reading

namespace Invocation

/-- Reads the arguments of a command, those of the whole program being read. -/
def ofReading (main : Reading) (grammar : Grammar) (make : Reading → Command) :
    Except UsageStop Invocation := do
  let reading ← Reading.ofArguments grammar main.rest
  match main.extras ++ reading.extras with
  | [] => return ⟨main.has .verbose || reading.has .verbose, make reading⟩
  | extras => Reading.stop Grammar.main (.unrecognized extras)

/-- Reads a command line. -/
def ofArguments (xs : List Text) : Except UsageStop Invocation := do
  let main ← Reading.ofArguments Grammar.main xs
  let name := main.word.getD []
  if name == ("render" : Text) then
    ofReading main Grammar.render fun reading => .render reading.renderOptions
  else if name == ("serve" : Text) then
    ofReading main Grammar.serve fun reading => .serve reading.serveOptions
  else Reading.stop Grammar.main (.unknownCommand name)

end Invocation

end ApiReference
