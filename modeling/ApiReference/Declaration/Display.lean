import ApiReference.Declaration.Basic
import ApiReference.Json.Writer

/-! # Displayed types

The text that shows a type, with the names that have a page as links.  The input can give a type of
an unknown variant a name that is no text; such a value is shown as it is where it stands alone, in
its display form inside larger texts, and not at all in a list of types. -/

namespace ApiReference

/-- Why a type cannot be shown. -/
inductive DisplayFault
  /-- A member of a list of types is shown as something that is no text. -/
  | notJoinable
  /-- Something that has no parts is searched for a link. -/
  | notSearchable
  /-- A text is needed, and what is shown is none. -/
  | notText
deriving DecidableEq, Inhabited, Repr

/-- How a name is shown: the address it leads to, if it is linked. -/
abbrev Links := Text → Option Text

/-- No name is linked. -/
def Links.none : Links := fun _ => Option.none

/-- The value, unless it says nothing. -/
def Json.orText (value : Json) (default : Text) : Json :=
  if value.isVoid then .str default else value

/-- The texts joined, if all values are texts. -/
def joinTexts (sep : Text) (values : List Json) : Except DisplayFault Text := do
  let texts ← values.mapM fun
    | .str x => .ok x
    | _ => .error .notJoinable
  return Text.joinWith sep texts

/-- A name as it is shown. -/
def shownName (links : Links) (name : Text) : Text :=
  match links name with
  | some href => '[' :: name ++ "](" ++ href ++ [')']
  | none => name

/-- The mark of something that may be left out. -/
def optionalMark (flags : Flags) : Text := if flags.optional then ['?'] else []

mutual

/-- What shows a type. -/
def TypeExpr.show (links : Links) : TypeExpr → Except DisplayFault Json
  | .intrinsic name => .ok (.str name)
  | .reference name arguments => do
    let shown := shownName links name
    match arguments with
    | [] => return .str shown
    | first :: more =>
      let values ← showAll links (first :: more)
      return .str (shown ++ ['<'] ++ (← joinTexts ", " values) ++ ['>'])
  | .array element => do return .str ((← showPart links element).display ++ "[]")
  | .union members => do return .str (← joinTexts " | " (← showAll links members))
  | .intersection members => do return .str (← joinTexts " & " (← showAll links members))
  | .literal value => .ok (.str value.render)
  | .tuple elements => do
    return .str (['['] ++ (← joinTexts ", " (← showAll links elements)) ++ [']'])
  | .reflection (some ⟨_, parameters, type, _⟩) _ => do
    let shown ← showParameters links parameters
    let result ← showPart links type
    return .str (['('] ++ Text.joinWith ", " shown ++ ") => " ++ result.display)
  | .reflection none members =>
    match members with
    | [] => .ok (.str "object")
    | first :: more => do
      let shown ← showMembers links (first :: more)
      return .str (['\x7b', ' '] ++ Text.joinWith "; " shown ++ [' ', '\x7d'])
  | .conditional check bound whenTrue whenFalse => do
    let check ← showPart links check
    let bound ← showPart links bound
    let whenTrue ← showPart links whenTrue
    let whenFalse ← showPart links whenFalse
    return .str (check.display ++ " extends " ++ bound.display ++ " ? " ++ whenTrue.display ++
      " : " ++ whenFalse.display)
  | .indexedAccess object index => do
    let object ← showPart links object
    let index ← showPart links index
    return .str (object.display ++ ['['] ++ index.display ++ [']'])
  | .query name => .ok (.str ("typeof " ++ (if name.isEmpty then ("unknown" : Text) else name)))
  | .predicate name target => do
    let target ← showPart links target
    return .str ((name.orText "this").display ++ " is " ++ target.display)
  | .unknown _ text => .ok (text.orText "any")

/-- What shows a part of a type that may be missing. -/
def showPart (links : Links) : Option TypeExpr → Except DisplayFault Json
  | none => .ok (.str "any")
  | some type => type.show links

/-- What shows each type of a list. -/
def showAll (links : Links) : List TypeExpr → Except DisplayFault (List Json)
  | [] => .ok []
  | type :: more => do
    let shown ← type.show links
    return shown :: (← showAll links more)

/-- Each parameter with its type. -/
def showParameters (links : Links) : List Parameter → Except DisplayFault (List Text)
  | [] => .ok []
  | ⟨name, type, flags, _⟩ :: more => do
    let shown ← showPart links type
    return (name ++ optionalMark flags ++ ": " ++ shown.display) ::
      (← showParameters links more)

/-- Each member of an object type; one without a type is shown by its first signature. -/
def showMembers (links : Links) : List Declaration → Except DisplayFault (List Text)
  | [] => .ok []
  | ⟨name, _, _, ⟨_, parameters, result, _⟩ :: _, _, none, flags, _⟩ :: more => do
    let shown ← showParameters links parameters
    let result ← showPart links result
    return (name ++ optionalMark flags ++ ['('] ++ Text.joinWith ", " shown ++ "): " ++
      result.display) :: (← showMembers links more)
  | ⟨name, _, _, _, _, type, flags, _⟩ :: more => do
    let shown ← showPart links type
    return (name ++ optionalMark flags ++ ": " ++ shown.display) :: (← showMembers links more)

end

/-- The parameters in one text, without the brackets around them. -/
def showParameterList (links : Links) (parameters : List Parameter) : Except DisplayFault Text := do
  return Text.joinWith ", " (← showParameters links parameters)

namespace Signature

/-- The call form of a signature in one line, without links. -/
def callForm (name : Text) (signature : Signature) : Except DisplayFault Text := do
  let parameters ← showParameterList Links.none signature.parameters
  let result ← match signature.type with
    | none => pure (.str "void")
    | some type => type.show Links.none
  return name ++ ['('] ++ parameters ++ "): " ++ result.display

/-- The form in which a constructor is called. -/
def newForm (name : Text) (signature : Signature) : Except DisplayFault Text := do
  let parameters ← showParameterList Links.none signature.parameters
  return "new " ++ name ++ ['('] ++ parameters ++ [')']

/-- The signature returns something: its type is there and is not `void`. -/
def returnsValue (signature : Signature) : Bool :=
  match signature.type with
  | none => false
  | some (.intrinsic name) => name != ("void" : Text)
  | some _ => true

end Signature

end ApiReference
