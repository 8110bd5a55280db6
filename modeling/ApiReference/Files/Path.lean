import ApiReference.Text.Basic

/-! # Paths

A path leads through directories, part by part, from the root or from the directory in which one
is.  Two dots lead one directory up; they stay in a path until it is resolved. -/

namespace ApiReference

/-- A path. -/
structure Path where
  /-- The slashes before the first part; a relative path has none. -/
  root : Text := []
  parts : List Text := []
deriving DecidableEq, Inhabited, Repr

namespace Path

/-- The part that leads one directory up. -/
def up : Text := ".."

/-- The part says nothing about the way. -/
def isIdle (part : Text) : Bool := part.isEmpty || part == ['.']

/-- The slashes that count as the root of a path: two if there are just two, else at most one. -/
def rootOf : Text → Text
  | '/' :: '/' :: '/' :: _ => ['/']
  | '/' :: '/' :: _ => ['/', '/']
  | '/' :: _ => ['/']
  | _ => []

/-- Reads a path. -/
def ofText (x : Text) : Path :=
  { root := rootOf x, parts := (Text.split '/' x).filter fun part => !isIdle part }

/-- The text of a path; one without any part is a single dot. -/
def toText (path : Path) : Text :=
  if path.root.isEmpty && path.parts.isEmpty then ['.']
  else path.root ++ Text.joinWith ['/'] path.parts

/-- The path starts at the root. -/
def isAbsolute (path : Path) : Bool := !path.root.isEmpty

/-- Follows one path and then another, which leaves the first if it starts at the root. -/
def join (path other : Path) : Path :=
  if other.isAbsolute then other else { path with parts := path.parts ++ other.parts }

/-- Follows a path and then one that is given as a text. -/
def joinText (path : Path) (x : Text) : Path := path.join (ofText x)

/-- The path without its last part. -/
def parent (path : Path) : Path := { path with parts := path.parts.dropLast }

/-- Some part holds the null character. -/
def holdsNull (path : Path) : Bool := path.parts.any fun part => part.contains '\x00'

/-- The last part of a path. -/
def name (path : Path) : Text := path.parts.getLast?.getD []

/-! ### Resolving -/

/-- Takes one part after those before it, the last one first. -/
def takePart (before : List Text) (part : Text) : List Text :=
  if part == up then before.drop 1 else part :: before

/-- The parts that remain when each two dots have taken away the part before them. -/
def resolved (parts : List Text) : List Text := (parts.foldl takePart []).reverse

/-- The path from the root that a path means in a directory. -/
def resolve (here path : Path) : Path :=
  let whole := here.join path
  { whole with parts := resolved whole.parts }

/-- The rest of a path below a directory, if it lies there. -/
def below? (directory path : Path) : Option Path :=
  if path.root == directory.root && directory.parts.isPrefixOf path.parts then
    some { parts := path.parts.drop directory.parts.length }
  else none

/-- The parts that lead from one place to another. -/
def wayBetween : List Text → List Text → List Text
  | a :: start, b :: goal =>
    if a == b then wayBetween start goal
    else (a :: start).map (fun _ => up) ++ b :: goal
  | start, goal => start.map (fun _ => up) ++ goal

/-- The relative path that leads from a directory to where a path leads. -/
def wayFrom (directory path : Path) : Path :=
  { parts := wayBetween directory.parts (directory.resolve path).parts }

end Path

end ApiReference
