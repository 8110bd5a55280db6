import ApiReference.Declaration.Kind
import ApiReference.Declaration.Comment
import ApiReference.Json.Value
import ApiReference.Text.Quoted

/-! # Declarations

The tree of declarations that pages are made from, with the types and signatures in it.  A type
can hold declarations in turn: the members of an object type written in place. -/

namespace ApiReference

/-- The modifiers of a declaration or parameter. -/
structure Flags where
  optional : Bool := false
  isStatic : Bool := false
  readonly : Bool := false
  isAbstract : Bool := false
deriving DecidableEq, Inhabited

mutual

/-- A type expression.  A missing part stands for the type of any value. -/
inductive TypeExpr
  | intrinsic (name : Text)
  | reference (name : Text) (arguments : List TypeExpr)
  | array (element : Option TypeExpr)
  | union (members : List TypeExpr)
  | intersection (members : List TypeExpr)
  | literal (value : Json)
  | tuple (elements : List TypeExpr)
  | reflection (signature : Option Signature) (members : List Declaration)
  | conditional (check bound whenTrue whenFalse : Option TypeExpr)
  | indexedAccess (object index : Option TypeExpr)
  | query (name : Text)
  /-- A type guard; the input may name its subject by any value. -/
  | predicate (name : Json) (target : Option TypeExpr)
  /-- A variant that is not modelled, with the value that the input calls its name. -/
  | unknown (variant : Text) (text : Json)

/-- A parameter of a signature. -/
structure Parameter where
  name : Text
  type : Option TypeExpr
  flags : Flags
  comment : Option Comment

/-- One way to call something; `type` is what it returns. -/
structure Signature where
  name : Text
  parameters : List Parameter
  type : Option TypeExpr
  comment : Option Comment

/-- A documentable entity and what it owns. -/
structure Declaration where
  name : Text
  kind : Kind
  comment : Option Comment
  signatures : List Signature
  children : List Declaration
  type : Option TypeExpr
  flags : Flags
  defaultValue : Option Text

end

instance : Inhabited TypeExpr := ⟨.intrinsic []⟩
instance : Inhabited Signature := ⟨⟨[], [], none, none⟩⟩
instance : Inhabited Declaration := ⟨⟨[], .unknown, none, [], [], none, {}, none⟩⟩

namespace Declaration

/-- The children of one kind. -/
def childrenOf (decl : Declaration) (kind : Kind) : List Declaration :=
  decl.children.filter fun child => child.kind == kind

/-- The trimmed summary of the declaration's own comment. -/
def summary (decl : Declaration) : Text := summaryText decl.comment

/-- A short form that tells name and kind. -/
def shortForm (decl : Declaration) : Text :=
  "Declaration(name=" ++ decl.name.quoted ++ ", kind=" ++ decl.kind.name ++ ")"

end Declaration

end ApiReference
