import ApiReference.Declaration.Loader
import ApiReference.Declaration.Walk

/-! # Projects

A project is the root of a declaration tree: an object that has at least a kind and a name. -/

namespace ApiReference

/-- The value can be the root of a tree. -/
def Json.isProject (value : Json) : Bool :=
  (value.field? "kind").isSome && (value.field? "name").isSome

/-- Reads a project whose whole numbers have at most so many digits, with the log of what was passed
over. -/
def loadProjectWithin (most : Option Nat) (value : Json) :
    Except LoadFault (Declaration × Log) :=
  if value.isProject then do
    let (root, log) ← Declaration.loadWithin most value
    let loaded := "Loaded " ++ root.name ++ " with " ++ Text.ofNat root.walk.length ++
      " declarations"
    return (root, log ++ [LogEntry.debug "loader" loaded])
  else .error .notAProject

/-- Reads a project, with the log of what was passed over. -/
def loadProject (value : Json) : Except LoadFault (Declaration × Log) :=
  loadProjectWithin (some mostDigits) value

end ApiReference
