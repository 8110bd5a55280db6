import ApiReference.Declaration.Basic
import ApiReference.Json.Writer
import ApiReference.Text.Digit
import ApiReference.Log

/-! # Declarations from JSON

Reads declarations, signatures, comments and types from JSON values.  A field that is absent, null,
false, zero or empty counts as absent wherever an object or a list is wanted.  What cannot be read
is a `LoadFault`; kinds, tags and type variants that are not modelled are only logged. -/

namespace ApiReference

/-- Why a value cannot be read as a declaration. -/
inductive LoadFault
  /-- The root is not an object with a kind and a name. -/
  | notAProject
  /-- A field is asked of a value that is no object. -/
  | noFields
  /-- The items of a value that has none are asked for. -/
  | notIterable
  /-- The first item of an object is asked for. -/
  | noFirstItem
  /-- A code part of a comment is not a text. -/
  | codeNotText
  /-- The parts of a comment cannot be joined, because one is not a text. -/
  | partNotText
  /-- A comment tag is a list or an object, which cannot be looked up. -/
  | tagNotScalar
  /-- A large whole number is not written in digits. -/
  | notANumber
  /-- The value is nested more deeply than was allowed for. -/
  | tooDeep
deriving DecidableEq, Inhabited, Repr

/-- Reading with a log of what was passed over. -/
abbrev Load := StateT Log (Except LoadFault)

namespace Load

/-- Refuses a value. -/
def refuse {α : Type} (fault : LoadFault) : Load α := fun _ => .error fault

/-- Adds an entry to the log. -/
def note (message : Text) : Load Unit := modify (· ++ [.debug "loader" message])

/-- The fields of an object, or of nothing at all. -/
def fieldsOrNone (value : Json) : Load (List (Text × Json)) :=
  match value with
  | .obj fields => pure fields
  | value => if value.isVoid then pure [] else refuse .noFields

/-- The fields of an object. -/
def fields (value : Json) : Load (List (Text × Json)) :=
  match value with
  | .obj fields => pure fields
  | _ => refuse .noFields

/-- What a value holds: the items of a list, the keys of an object, the characters of a text. -/
def items (value : Json) : Load (List Json) :=
  match value with
  | .arr items => pure items
  | .obj fields => pure (fields.map fun (key, _) => .str key)
  | .str x => pure (x.map fun c => .str [c])
  | value => if value.isVoid then pure [] else refuse .notIterable

end Load

/-- The value of a field, null if it is absent. -/
def fieldOr (fields : List (Text × Json)) (key : Text) : Json := (fields.lookup key).getD .null

/-- The display form of a field, or the given text if it is absent. -/
def displayOr (fields : List (Text × Json)) (key default : Text) : Text :=
  match fields.lookup key with
  | some value => value.display
  | none => default

/-! ### Comments -/

/-- One part of a comment; code gets backticks unless it has them. -/
def loadCommentPart (part : Json) : Load Json := do
  let fields ← Load.fields part
  let given := fieldOr fields "text"
  let text := if given.isVoid then .str [] else given
  if (fieldOr fields "kind").isText "code" && !text.isVoid then
    match text with
    | .str x =>
      if x.startsWith ['\x60'] then return text
      else return .str (['\x60'] ++ x ++ ['\x60'])
    | _ => Load.refuse .codeNotText
  else return text

/-- The parts joined, if all are texts. -/
def joinParts : List Json → Load Text
  | [] => pure []
  | .str x :: more => do return x ++ (← joinParts more)
  | _ :: _ => Load.refuse .partNotText

/-- The text that a list of comment parts makes. -/
def loadCommentText (parts : Json) : Load Text := do
  if parts.isVoid then return []
  let pieces ← (← Load.items parts).mapM loadCommentPart
  return (← joinParts pieces).strip

/-- Adds the text of one tag to its part of the comment; a tag that is not known is passed over. -/
def addTag (comment : Comment) (tag : Json) (text : Text) : Load Comment :=
  match tag with
  | .str name =>
    if name == ("@returns" : Text) then pure { comment with returns := text }
    else if name == ("@remarks" : Text) then
      pure { comment with remarks := comment.remarks ++ [text] }
    else if name == ("@warning" : Text) then
      pure { comment with warnings := comment.warnings ++ [text] }
    else if name == ("@note" : Text) then pure { comment with notes := comment.notes ++ [text] }
    else if name == ("@example" : Text) then
      pure { comment with examples := comment.examples ++ [text] }
    else do
      Load.note ("Ignoring comment tag " ++ name)
      return comment
  | .arr _ | .obj _ => Load.refuse .tagNotScalar
  | tag => do
    Load.note ("Ignoring comment tag " ++ tag.display)
    return comment

/-- One tag of a comment; a tag without text says nothing. -/
def loadTag (comment : Comment) (tag : Json) : Load Comment := do
  let fields ← Load.fields tag
  let text ← loadCommentText (fieldOr fields "content")
  if text.isEmpty then return comment
  addTag comment (fieldOr fields "tag") text

/-- A comment, if there is one. -/
def loadComment (value : Json) : Load (Option Comment) := do
  if value.isVoid then return none
  let fields ← Load.fields value
  let summary ← loadCommentText (fieldOr fields "summary")
  let tags ← Load.items (fieldOr fields "blockTags")
  return some (← tags.foldlM loadTag { summary })

/-! ### Kinds, flags and literals -/

/-- The kind that a number or a name stands for. -/
def loadKind (value : Json) : Load Kind := do
  let kind := match value with
    | .int n => (Kind.ofNumber? n).getD .unknown
    | .bool b => if b then .project else .unknown
    | value => Kind.ofName value.display
  if kind == .unknown then Load.note ("Unknown declaration kind " ++ value.displayQuoted)
  return kind

/-- The modifiers that are set. -/
def loadFlags (value : Json) : Load Flags := do
  let fields ← Load.fieldsOrNone value
  let isSet (key : Text) : Bool := !(fieldOr fields key).isVoid
  return {
    optional := isSet "isOptional"
    isStatic := isSet "isStatic"
    readonly := isSet "isReadonly"
    isAbstract := isSet "isAbstract" }

/-- A literal value; a large whole number comes as an object that holds its digits, which may be
limited to so many. -/
def loadLiteral (most : Option Nat) (value : Json) : Load Json :=
  match value with
  | .obj fields =>
    match fields.lookup ("value" : Text) with
    | none => pure value
    | some digits =>
      let sign : Text := if (fieldOr fields "negative").isVoid then [] else ['-']
      match wholeWithin? most 10 (sign ++ digits.display) with
      | some n => pure (.int n)
      | none => Load.refuse .notANumber
  | _ => pure value

/-- The value that the input calls the name of a type, for the types that have one. -/
def TypeExpr.givenName : TypeExpr → Json
  | .intrinsic name => .str name
  | .reference name _ => .str name
  | .query name => .str name
  | .predicate name _ => name
  | _ => .null

/-- The default value of a declaration; an enum member falls back on its literal type. -/
def loadDefault (kind : Kind) (fields : List (Text × Json)) : Load (Option Text) :=
  match fieldOr fields "defaultValue" with
  | .null =>
    if kind == .enumMember then do
      let literal ← Load.fieldsOrNone (fieldOr fields "type")
      if (fieldOr literal "type").isText "literal" then
        match fieldOr literal "value" with
        | .null => return none
        | value => return some value.render
      else return none
    else pure none
  | value => pure (some value.display)

/-! ### Types and declarations

The whole numbers in what is read may be limited to so many digits. -/

mutual

/-- A declaration nested less than `depth` deep. -/
def loadDeclaration (most : Option Nat) : Nat → Json → Load Declaration
  | 0, _ => Load.refuse .tooDeep
  | depth + 1, value => do
    let fields ← Load.fields value
    let kind ← loadKind (fieldOr fields "kind")
    let defaultValue ← loadDefault kind fields
    let name := displayOr fields "name" []
    let comment ← loadComment (fieldOr fields "comment")
    let signatures ← (← Load.items (fieldOr fields "signatures")).mapM (loadSignature most depth)
    let type ← loadType most depth (fieldOr fields "type")
    let flags ← loadFlags (fieldOr fields "flags")
    let children ← (← Load.items (fieldOr fields "children")).mapM (loadDeclaration most depth)
    return { name, kind, comment, signatures, children, type, flags, defaultValue }

/-- A signature nested less than `depth` deep. -/
def loadSignature (most : Option Nat) : Nat → Json → Load Signature
  | 0, _ => Load.refuse .tooDeep
  | depth + 1, value => do
    let fields ← Load.fields value
    let name := displayOr fields "name" []
    let parameters ← (← Load.items (fieldOr fields "parameters")).mapM (loadParameter most depth)
    let type ← loadType most depth (fieldOr fields "type")
    let comment ← loadComment (fieldOr fields "comment")
    return { name, parameters, type, comment }

/-- A parameter nested less than `depth` deep. -/
def loadParameter (most : Option Nat) : Nat → Json → Load Parameter
  | 0, _ => Load.refuse .tooDeep
  | depth + 1, value => do
    let fields ← Load.fields value
    let name := displayOr fields "name" []
    let type ← loadType most depth (fieldOr fields "type")
    let flags ← loadFlags (fieldOr fields "flags")
    let comment ← loadComment (fieldOr fields "comment")
    return { name, type, flags, comment }

/-- A type nested less than `depth` deep, if there is one. -/
def loadType (most : Option Nat) : Nat → Json → Load (Option TypeExpr)
  | 0, _ => Load.refuse .tooDeep
  | depth + 1, value => do
    if value.isVoid then return none
    let fields ← Load.fields value
    let part (key : Text) : Load (Option TypeExpr) := loadType most depth (fieldOr fields key)
    let parts (key : Text) : Load (List TypeExpr) := do
      let loaded ← (← Load.items (fieldOr fields key)).mapM (loadType most depth)
      return loaded.filterMap id
    let variant := fieldOr fields "type"
    if variant.isText "intrinsic" then return some (.intrinsic (displayOr fields "name" "any"))
    else if variant.isText "reference" then
      let arguments ← parts "typeArguments"
      return some (.reference (displayOr fields "name" []) arguments)
    else if variant.isText "array" then return some (.array (← part "elementType"))
    else if variant.isText "union" then return some (.union (← parts "types"))
    else if variant.isText "intersection" then return some (.intersection (← parts "types"))
    else if variant.isText "literal" then
      return some (.literal (← loadLiteral most (fieldOr fields "value")))
    else if variant.isText "tuple" then return some (.tuple (← parts "elements"))
    else if variant.isText "optional" || variant.isText "rest" ||
        variant.isText "namedTupleMember" then
      part "elementType"
    else if variant.isText "reflection" then
      let reflected ← Load.fieldsOrNone (fieldOr fields "declaration")
      let signature ← firstSignature most depth (fieldOr reflected "signatures")
      let members ← (← Load.items (fieldOr reflected "children")).mapM (loadDeclaration most depth)
      return some (.reflection signature members)
    else if variant.isText "conditional" then
      let check ← part "checkType"
      let bound ← part "extendsType"
      let whenTrue ← part "trueType"
      let whenFalse ← part "falseType"
      return some (.conditional check bound whenTrue whenFalse)
    else if variant.isText "indexedAccess" then
      let object ← part "objectType"
      let index ← part "indexType"
      return some (.indexedAccess object index)
    else if variant.isText "query" then
      let query ← Load.fieldsOrNone (fieldOr fields "queryType")
      return some (.query (displayOr query "name" []))
    else if variant.isText "predicate" then
      return some (.predicate (fieldOr fields "name") (← part "targetType"))
    else if variant.isText "typeOperator" then
      let target ← part "target"
      let name := match target with
        | some target => target.givenName
        | none => .null
      let operator := displayOr fields "operator" "keyof"
      return some (.unknown "typeOperator"
        (if name.isVoid then .null else .str (operator ++ ' ' :: name.display)))
    else
      Load.note ("Unmodelled type variant " ++ variant.display)
      return some (.unknown variant.display (fieldOr fields "name"))

/-- The first of the signatures, if there is one. -/
def firstSignature (most : Option Nat) : Nat → Json → Load (Option Signature)
  | 0, _ => Load.refuse .tooDeep
  | depth + 1, value =>
    if value.isVoid then pure none
    else
      match value with
      | .arr (first :: _) => some <$> loadSignature most depth first
      | .str (c :: _) => some <$> loadSignature most depth (.str [c])
      | .obj _ => Load.refuse .noFirstItem
      | _ => Load.refuse .notIterable

end

namespace Declaration

/-- Reads a declaration whose whole numbers have at most so many digits, with the log of what was
passed over. -/
def loadWithin (most : Option Nat) (value : Json) : Except LoadFault (Declaration × Log) :=
  (loadDeclaration most (value.depth + 1) value).run []

/-- Reads a declaration. -/
def load (value : Json) : Except LoadFault (Declaration × Log) :=
  loadWithin (some mostDigits) value

end Declaration

/-- Reads a type. -/
def TypeExpr.load (value : Json) : Except LoadFault (Option TypeExpr × Log) :=
  (loadType (some mostDigits) (value.depth + 1) value).run []

/-- Reads a signature. -/
def Signature.load (value : Json) : Except LoadFault (Signature × Log) :=
  (loadSignature (some mostDigits) (value.depth + 1) value).run []

/-- Reads a comment. -/
def Comment.load (value : Json) : Except LoadFault (Option Comment × Log) :=
  (loadComment value).run []

end ApiReference
