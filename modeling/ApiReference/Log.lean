import ApiReference.Text.Basic

/-! # Log entries

What the stages report while they work: a level, the part of the program that speaks, and a
message.  Entries are data; whoever runs the stages decides which of them are shown. -/

namespace ApiReference

/-- How much an entry matters. -/
inductive LogLevel
  | debug
  | info
  | warning
  | error
deriving DecidableEq, Inhabited, Repr

namespace LogLevel

/-- The rank of a level; a threshold lets the levels of its own rank and above pass. -/
def rank : LogLevel → Nat
  | debug => 10
  | info => 20
  | warning => 30
  | error => 40

/-- The name of a level. -/
def name : LogLevel → Text
  | debug => "DEBUG"
  | info => "INFO"
  | warning => "WARNING"
  | error => "ERROR"

end LogLevel

/-- One entry of the log. -/
structure LogEntry where
  level : LogLevel
  source : Text
  message : Text
deriving DecidableEq, Inhabited

/-- Entries in the order in which they were made. -/
abbrev Log := List LogEntry

/-- The name under which all parts of the program log. -/
def rootLogger : Text := "mdxdoc"

/-- The full name of a part's logger; no part means the root. -/
def loggerName (part : Text) : Text :=
  if part.isEmpty then rootLogger else rootLogger ++ '.' :: part

namespace LogEntry

/-- An entry for close inspection. -/
def debug (part message : Text) : LogEntry := ⟨.debug, loggerName part, message⟩

/-- An entry on the progress of the work. -/
def info (part message : Text) : LogEntry := ⟨.info, loggerName part, message⟩

/-- An entry on something that looks wrong. -/
def warning (part message : Text) : LogEntry := ⟨.warning, loggerName part, message⟩

/-- The line that names level and logger. -/
def line (entry : LogEntry) : Text :=
  entry.level.name ++ ' ' :: entry.source ++ ": " ++ entry.message

/-- The line for a console. -/
def consoleLine (entry : LogEntry) : Text :=
  "[mdxdoc] " ++ entry.level.name ++ ' ' :: entry.message

end LogEntry

end ApiReference
