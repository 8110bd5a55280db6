import ApiReference.Text.Case

/-! # Kinds of declarations

What a declaration declares: its name, its label in prose, its number in the input, and whether it
gets a page of its own. -/

namespace ApiReference

/-- What a declaration declares. -/
inductive Kind
  | project
  | moduleScope
  | namespaceScope
  | enumeration
  | enumMember
  | variableBinding
  | function
  | classType
  | interfaceType
  | constructor
  | property
  | method
  | accessor
  | typeAlias
  | typeLiteral
  | parameter
  | unknown
deriving DecidableEq, Inhabited, Repr

namespace Kind

/-- Every kind. -/
def all : List Kind :=
  [project, moduleScope, namespaceScope, enumeration, enumMember, variableBinding, function,
    classType, interfaceType, constructor, property, method, accessor, typeAlias, typeLiteral,
    parameter, unknown]

/-- The name of a kind, in one word. -/
def name : Kind → Text
  | project => "Project"
  | moduleScope => "Module"
  | namespaceScope => "Namespace"
  | enumeration => "Enum"
  | enumMember => "EnumMember"
  | variableBinding => "Variable"
  | function => "Function"
  | classType => "Class"
  | interfaceType => "Interface"
  | constructor => "Constructor"
  | property => "Property"
  | method => "Method"
  | accessor => "Accessor"
  | typeAlias => "TypeAlias"
  | typeLiteral => "TypeLiteral"
  | parameter => "Parameter"
  | unknown => "Unknown"

/-- The name of a kind in prose. -/
def label : Kind → Text
  | enumMember => "Enum Member"
  | typeAlias => "Type Alias"
  | typeLiteral => "Type Literal"
  | kind => kind.name

/-- The kind of that name; letter case, spaces and underscores do not matter. -/
def ofName (x : Text) : Kind :=
  let wanted := Text.lower (x.filter fun c => c != ' ' && c != '_')
  (all.find? fun kind => kind.name.lower == wanted).getD unknown

/-- The kind of exactly that name. -/
def named? (x : Text) : Option Kind := all.find? fun kind => kind.name == x

/-- The kind that a number in the input stands for. -/
def ofNumber? : Int → Option Kind
  | 1 => some project
  | 2 => some moduleScope
  | 4 => some namespaceScope
  | 8 => some enumeration
  | 16 => some enumMember
  | 32 => some variableBinding
  | 64 => some function
  | 128 => some classType
  | 256 => some interfaceType
  | 512 => some constructor
  | 1024 => some property
  | 2048 => some method
  | 32768 => some parameter
  | 65536 => some typeLiteral
  | 262144 => some accessor
  | 2097152 => some typeAlias
  | _ => none

/-- Declarations of this kind get a page of their own. -/
def hasPage : Kind → Bool
  | classType | interfaceType | function | enumeration | typeAlias | moduleScope => true
  | _ => false

theorem mem_all (kind : Kind) : kind ∈ all := by cases kind <;> decide

/-- A kind is found under its own name. -/
theorem ofName_name (kind : Kind) : ofName kind.name = kind := by cases kind <;> decide

theorem named?_name (kind : Kind) : named? kind.name = some kind := by cases kind <;> decide

end Kind

end ApiReference
