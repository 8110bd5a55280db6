import ApiReference.Command.Arguments
import ApiReference.Command.Render

/-! # The program

Runs a command line on the files of the machine.  A command works on a file tree, so the files that
it looks at are read into one first, and what it has changed there is written back. -/

namespace ApiReference.Program

/-- The path of a place. -/
def spelled (place : List Text) : String := String.ofList (Path.toText ⟨['/'], place⟩)

/-- Reads what is in a place into a tree. -/
def observe (tree : FileTree) (place : List Text) : IO FileTree := do
  if place.isEmpty || (tree.entryAt place).isSome then return tree
  try
    let bytes ← IO.FS.readBinFile (spelled place)
    return tree.put place (.file bytes.toList)
  catch
    | .noFileOrDirectory .. => return tree
    | .inappropriateType .. =>
      if tree.entryAt place.dropLast == some .directory then return tree.put place .directory
      return tree
    | fault => throw fault

/-- Reads what a command looks at into a tree.  What is read tells where to look next: settings lead
to templates, and templates and the project to the files of the site. -/
def observeAll (options : RenderOptions) : Nat → FileTree → IO FileTree
  | 0, tree => return tree
  | rounds + 1, tree => do
    let places := (options.lookedAt tree).flatMap tree.waypoints
    observeAll options rounds (← places.foldlM observe tree)

/-- Writes what has changed. -/
def writeBack (before after : FileTree) : IO Unit := do
  for (place, entry) in before.changes after do
    match entry with
    | .directory => IO.FS.createDirAll (spelled place)
    | .file bytes => IO.FS.writeBinFile (spelled place) (ByteArray.mk bytes.toArray)

/-- Says something and ends with an exit code. -/
def finish (output : IO.FS.Stream) (x : Text) (code : UInt32) : IO UInt32 := do
  output.putStr (String.ofList x)
  return code

/-- Carries the command that renders out. -/
def render (verbose : Bool) (options : RenderOptions) : IO UInt32 := do
  let here ← IO.currentDir
  let start : FileTree := { home := (Path.ofText here.toString).parts }
  let before ← observeAll options 3 start
  let run := options.run before
  writeBack before run.tree
  let errors ← IO.getStderr
  errors.putStr (String.ofList ((LogSetup.ofFlags verbose).consoleTextOf run.log))
  match run.result with
  | .ok _ => finish (← IO.getStdout) run.output 0
  | .error fault => finish errors (fault.message?.getD "mdxdoc render failed" ++ ['\n']) 1

/-- Carries out what a command line asks for. -/
def run (arguments : List Text) : IO UInt32 := do
  match Invocation.ofArguments arguments with
  | .ok ⟨verbose, .render options⟩ => render verbose options
  | .ok ⟨_, .serve _⟩ =>
    finish (← IO.getStderr) "mdxdoc serve: no network listener is built in\n" 1
  | .error (.help grammar) => finish (← IO.getStdout) (grammar.usage ++ ['\n']) 0
  | .error (.fault fault) => finish (← IO.getStderr) (fault.message ++ ['\n']) 2

end ApiReference.Program

/-- The program. -/
def main (arguments : List String) : IO UInt32 :=
  ApiReference.Program.run (arguments.map String.toList)
