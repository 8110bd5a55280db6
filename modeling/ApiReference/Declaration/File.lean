import ApiReference.Declaration.Project
import ApiReference.Files.Tree
import ApiReference.Json.Reader

/-! # Project files

Reads a project from a file that holds it as JSON. -/

namespace ApiReference

/-- What is said of a value that is no project. -/
def LoadFault.message? : LoadFault → Option Text
  | notAProject =>
    some ("Input is not a TypeDoc project: expected an object with 'kind' and 'name'" : Text)
  | _ => none

/-- Why a project cannot be read from a file. -/
inductive ProjectFault
  | notFound (path : Path)
  | unreadable (path : Path)
  | notJson (path : Path)
  /-- A number in the file has too many digits. -/
  | hugeNumber
  /-- The path cannot be looked up at all. -/
  | blocked (fault : FileFault)
  | refused (fault : LoadFault)
deriving DecidableEq, Inhabited, Repr

/-- What is said of a file that holds no project. -/
def ProjectFault.message? : ProjectFault → Option Text
  | notFound path => some ("TypeDoc project file not found: " ++ path.toText)
  | unreadable path => some ("Unable to read " ++ path.toText)
  | notJson path => some ("Invalid JSON in " ++ path.toText)
  | hugeNumber | blocked _ => none
  | refused fault => fault.message?

/-- Reads a project from a file, with the log of what was passed over. -/
def readProject (tree : FileTree) (path : Path) : Except ProjectFault (Declaration × Log) := do
  let found ← (tree.hasFile path).mapError .blocked
  if !found then throw (.notFound path)
  let x ← (tree.readText path).mapError fun _ => .unreadable path
  match Json.parse x with
  | .ok value => (loadProject value).mapError .refused
  | .error .malformed => throw (.notJson path)
  | .error .hugeNumber => throw .hugeNumber

end ApiReference
