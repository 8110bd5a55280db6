import ApiReference.Log
import ApiReference.Files.Tree

/-! # Log setups

Where log entries go: to the console from some level on and, if there is a log file, all of them to
the file.  A new setup takes the place of the one before, but a file keeps what was written to it.

Main statements: a verbose setup shows every entry (`consoleText_verbose`), and a file takes every
entry (`lowest_of_file`). -/

namespace ApiReference

/-- Where log entries go. -/
structure LogSetup where
  /-- The lowest level that the console shows. -/
  console : LogLevel := .info
  file : Option Path := none
deriving DecidableEq, Inhabited

namespace LogSetup

/-- The lowest level that the console shows; being verbose counts more than being quiet. -/
def consoleLevel (verbose quiet : Bool) : LogLevel :=
  if verbose then .debug else if quiet then .warning else .info

/-- The setup for what was asked for. -/
def ofFlags (verbose : Bool) (quiet : Bool := false) (file : Option Path := none) : LogSetup :=
  { console := consoleLevel verbose quiet, file }

/-- The lowest level that goes anywhere. -/
def lowest (setup : LogSetup) : LogLevel :=
  if setup.file.isSome then .debug else setup.console

/-- The lowest level for the console, and that for the file if there is one. -/
def levels (setup : LogSetup) : List LogLevel :=
  setup.console :: (if setup.file.isSome then [.debug] else [])

/-- An entry reaches a level. -/
def reaches (entry : LogEntry) (level : LogLevel) : Bool := level.rank ≤ entry.level.rank

/-- What the console shows of an entry. -/
def consoleText (setup : LogSetup) (entry : LogEntry) : Text :=
  if reaches entry setup.console then entry.consoleLine ++ ['\n'] else []

/-- What the console shows of a log. -/
def consoleTextOf (setup : LogSetup) (log : Log) : Text := log.flatMap setup.consoleText

/-- What the console shows of an entry before anything is set up: warnings and errors, the message
alone. -/
def bareText (entry : LogEntry) : Text :=
  if reaches entry .warning then entry.message ++ ['\n'] else []

/-- The files after a setup has opened its own. -/
def openFile (setup : LogSetup) (tree : FileTree) : Except FileFault FileTree :=
  match setup.file with
  | none => .ok tree
  | some path => do
    let tree ← tree.makeDirectories path.parent
    tree.append path []

/-- The files after an entry has been logged. -/
def record (setup : LogSetup) (tree : FileTree) (entry : LogEntry) : FileTree :=
  match setup.file with
  | none => tree
  | some path => (tree.append path (entry.line ++ ['\n'])).toOption.getD tree

/-! ### Lemmas -/

/-- A verbose console shows every entry. -/
theorem consoleText_verbose (quiet : Bool) (file : Option Path) (entry : LogEntry) :
    (ofFlags true quiet file).consoleText entry = entry.consoleLine ++ ['\n'] := by
  have h : reaches entry .debug = true := by
    cases entry with
    | mk level source message => cases level <;> rfl
  simp [consoleText, ofFlags, consoleLevel, h]

/-- A file takes entries of every level. -/
theorem lowest_of_file (setup : LogSetup) (h : setup.file.isSome) : setup.lowest = .debug := by
  simp [lowest, h]

end LogSetup

end ApiReference
