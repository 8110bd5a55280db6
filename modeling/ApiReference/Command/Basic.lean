import ApiReference.Text.Quoted

/-! # Commands

What can be asked for on a command line: a command with its options.  A grammar names the flags
that a command knows, and whatever it does not allow is a `UsageFault`. -/

namespace ApiReference

/-! ### What is asked for -/

/-- The options of the command that renders a project. -/
structure RenderOptions where
  project : Text
  config : Option Text := none
  output : Option Text := none
  navigation : Bool := true
deriving DecidableEq, Inhabited, Repr

/-- The options of the command that runs the service. -/
structure ServeOptions where
  host : Text := "127.0.0.1"
  port : Int := 8000
deriving DecidableEq, Inhabited, Repr

/-- A command with its options. -/
inductive Command
  | render (options : RenderOptions)
  | serve (options : ServeOptions)
deriving DecidableEq, Inhabited, Repr

/-- What a command line asks for. -/
structure Invocation where
  verbose : Bool
  command : Command
deriving DecidableEq, Inhabited, Repr

/-! ### Flags -/

/-- The flags of all commands. -/
inductive Flag
  | help
  | verbose
  | config
  | output
  | noNavigation
  | host
  | port
deriving DecidableEq, Inhabited, Repr

namespace Flag

/-- The names of a flag. -/
def names : Flag → List Text
  | help => ["-h", "--help"]
  | verbose => ["-v", "--verbose"]
  | config => ["--config"]
  | output => ["--output"]
  | noNavigation => ["--no-navigation"]
  | host => ["--host"]
  | port => ["--port"]

/-- The flag comes with a value. -/
def takesValue : Flag → Bool
  | config | output | host | port => true
  | help | verbose | noNavigation => false

/-- All names of a flag in one text. -/
def label (flag : Flag) : Text := Text.joinWith ['/'] flag.names

end Flag

/-! ### Grammars -/

/-- What the arguments of a program may be. -/
structure Grammar where
  /-- The program as it is called. -/
  program : Text
  flags : List Flag
  /-- What the argument that is no flag stands for, if there is one. -/
  word : Option Text
  /-- That argument takes all further ones with it. -/
  takesRest : Bool := false
deriving DecidableEq, Inhabited, Repr

namespace Grammar

/-- What the arguments may be, in one line. -/
def usage (grammar : Grammar) : Text :=
  let flags := grammar.flags.map fun flag =>
    '[' :: flag.label ++ (if flag.takesValue then [' ', 'X'] else []) ++ [']']
  let rest : List Text := if grammar.takesRest then ["..."] else []
  "usage: " ++ Text.joinWith [' '] (grammar.program :: flags ++ grammar.word.toList ++ rest)

/-- The names of all flags with their flags. -/
def names (grammar : Grammar) : List (Text × Flag) :=
  grammar.flags.flatMap fun flag => flag.names.map fun name => (name, flag)

/-- The flag of that very name. -/
def flagNamed? (grammar : Grammar) (name : Text) : Option Flag := grammar.names.lookup name

/-- The flags some name of which begins like that. -/
def namesStarting (grammar : Grammar) (start : Text) : List (Text × Flag) :=
  grammar.names.filter fun (name, _) => Text.startsWith name start

/-- The grammar of a command line up to the command. -/
def main : Grammar :=
  { program := "mdxdoc", flags := [.help, .verbose], word := some ("command" : Text),
    takesRest := true }

/-- The grammar of the arguments of the command that renders. -/
def render : Grammar :=
  { program := "mdxdoc render", flags := [.help, .verbose, .config, .output, .noNavigation],
    word := some ("project" : Text) }

/-- The grammar of the arguments of the command that serves. -/
def serve : Grammar :=
  { program := "mdxdoc serve", flags := [.help, .verbose, .host, .port], word := none }

end Grammar

/-- The names of the commands. -/
def commandNames : List Text := ["render", "serve"]

/-! ### Faults -/

/-- What is wrong with a command line. -/
inductive UsageCause
  | required (word : Text)
  | unknownCommand (given : Text)
  | unrecognized (arguments : List Text)
  | ambiguous (given : Text) (names : List Text)
  | valueExpected (flag : Flag)
  | valueIgnored (flag : Flag) (value : Text)
  | notWhole (flag : Flag) (value : Text)
deriving DecidableEq, Inhabited, Repr

namespace UsageCause

/-- A message about a flag. -/
def about (flag : Flag) (message : Text) : Text :=
  "argument " ++ flag.label ++ ": " ++ message

/-- What is wrong, in words. -/
def message : UsageCause → Text
  | required word => "the following arguments are required: " ++ word
  | unknownCommand given =>
    "argument command: invalid choice: " ++ given.quoted ++ " (choose from " ++
      Text.joinWith ", " (commandNames.map Text.quoted) ++ [')']
  | unrecognized arguments => "unrecognized arguments: " ++ Text.joinWith [' '] arguments
  | ambiguous given names =>
    "ambiguous option: " ++ given ++ " could match " ++ Text.joinWith ", " names
  | valueExpected flag => about flag "expected one argument"
  | valueIgnored flag value => about flag ("ignored explicit argument " ++ value.quoted)
  | notWhole flag value => about flag ("invalid int value: " ++ value.quoted)

end UsageCause

/-- What is wrong with the arguments of which program. -/
structure UsageFault where
  program : Text
  cause : UsageCause
deriving DecidableEq, Inhabited, Repr

/-- What is said of a command line that is wrong. -/
def UsageFault.message (fault : UsageFault) : Text :=
  fault.program ++ ": error: " ++ fault.cause.message

/-- Why a command line is not carried out. -/
inductive UsageStop
  /-- Help on the arguments of a program is asked for. -/
  | help (grammar : Grammar)
  | fault (fault : UsageFault)
deriving DecidableEq, Inhabited, Repr

end ApiReference
