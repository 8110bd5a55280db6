import ApiReference.Declaration.Kind
import ApiReference.Text.Quoted
import ApiReference.Text.Blank

/-! # References

Which names have a page, and where.  A map keeps its entries in the order of the pages; if a name
comes more than once, the last entry decides where it leads. -/

namespace ApiReference

/-- A declaration that has a page, and the page's location. -/
structure ReferenceEntry where
  name : Text
  kind : Kind
  location : Text
deriving DecidableEq, Inhabited

/-- A short form that tells name and kind. -/
def ReferenceEntry.shortForm (entry : ReferenceEntry) : Text :=
  "Declaration(name=" ++ entry.name.quoted ++ ", kind=" ++ entry.kind.name ++ ")"

/-- The entries of a site below a base path without slashes at its ends. -/
structure ReferenceMap where
  entries : List ReferenceEntry := []
  basePath : Text := []
deriving DecidableEq, Inhabited

/-- The text without slashes at its ends. -/
def stripSlashes (x : Text) : Text := Text.trimWhile (· == '/') x

/-- The navigation groups in their order. -/
def navigationGroups : List (Text × Kind) :=
  [("Enumerations", .enumeration), ("Classes", .classType), ("Interfaces", .interfaceType),
    ("Type Aliases", .typeAlias), ("Functions", .function)]

/-- The order of texts by code points. -/
def Text.lexLe : Text → Text → Bool
  | [], _ => true
  | _ :: _, [] => false
  | a :: x, b :: y => a.toNat < b.toNat || (a == b && lexLe x y)

/-- Longer texts come first, and texts of one length in the order of their code points. -/
def longerFirst (a b : Text) : Bool :=
  b.length < a.length || (a.length == b.length && Text.lexLe a b)

namespace ReferenceMap

/-- The map of these entries. -/
def ofEntries (entries : List ReferenceEntry) (basePath : Text) : ReferenceMap :=
  { entries, basePath := stripSlashes basePath }

/-- The location that a name leads to: that of its last entry. -/
def location? (refs : ReferenceMap) (name : Text) : Option Text :=
  (refs.entries.reverse.find? fun entry => entry.name == name).map (·.location)

/-- The names in the order of their first entries. -/
def names (refs : ReferenceMap) : List Text := (refs.entries.map (·.name)).eraseDups

/-- The names with the locations they lead to. -/
def toList (refs : ReferenceMap) : List (Text × Text) :=
  refs.names.filterMap fun name => (refs.location? name).map fun location => (name, location)

/-- What stands before every location in a site address. -/
def addressStart (refs : ReferenceMap) : Text :=
  if refs.basePath.isEmpty then ['/'] else '/' :: refs.basePath ++ ['/']

/-- The site address of a location. -/
def urlFor (refs : ReferenceMap) (location : Text) : Text :=
  refs.addressStart ++ location.dropWhile (· == '/')

/-- The site address that a name leads to. -/
def href? (refs : ReferenceMap) (name : Text) : Option Text :=
  (refs.location? name).map refs.urlFor

/-- The names, the longest ones first. -/
def namesLongestFirst (refs : ReferenceMap) : List Text := refs.names.mergeSort longerFirst

/-- The entries of one kind. -/
def entriesOf (refs : ReferenceMap) (kind : Kind) : List ReferenceEntry :=
  refs.entries.filter fun entry => entry.kind == kind

/-- The navigation groups that have entries. -/
def groups (refs : ReferenceMap) : List (Text × List ReferenceEntry) :=
  (navigationGroups.map fun (title, kind) => (title, refs.entriesOf kind)).filter
    fun (_, entries) => !entries.isEmpty

/-- A short form that shows where the names lead. -/
def shortForm (refs : ReferenceMap) : Text :=
  let shown := refs.toList.map fun (name, location) => name.quoted ++ ": " ++ location.quoted
  "ReferenceMap(" ++ ['\x7b'] ++ Text.joinWith ", " shown ++ ['\x7d'] ++ [')']

end ReferenceMap

end ApiReference
