import ApiReference.Declaration.Display
import ApiReference.Page.Fragment

/-! # Types on pages

How shown types are put into running text and attributes.  A link cannot stand in a literal span, so
a type with links is escaped instead, and a description that does not name a linked type gets a
sentence that does. -/

namespace ApiReference

/-- What shows a type has the signs of a link in it. -/
def showsLinks : Json → Except DisplayFault Bool
  | .str x => .ok (Markup.hasLinks x)
  | .arr items => .ok (items.any (Json.isText ['[']) && items.any (Json.isText "]("))
  | .obj fields => .ok (fields.any (·.1 == ['[']) && fields.any (·.1 == ("](" : Text)))
  | _ => .error .notSearchable

/-- A shown type in running text. -/
def typeInProse (shown : Json) : Except DisplayFault Text := do
  if ← showsLinks shown then
    match shown with
    | .str x => return Markup.escapeInline x
    | _ => throw .notText
  else return ['\x60'] ++ shown.display ++ ['\x60']

/-- The name that a description should mention: the type without links and arguments. -/
def mentionedName (linked : Text) : Text :=
  (Text.lower (Markup.stripLinks linked)).takeWhile (· != '<')

/-- The description, with a sentence on a linked type that it does not mention. -/
def withTypeMention (description : Text) (linked : Json) : Except DisplayFault Text := do
  if ← showsLinks linked then
    match linked with
    | .str x =>
      let name := mentionedName x
      if !name.isEmpty && Text.has name description.lower then return description
      else return Markup.appendSentence description ("Type: " ++ Markup.escapeInline x ++ ['.'])
    | _ => throw .notSearchable
  else return description

/-- A shown type for an attribute, where it is escaped. -/
def typeForAttribute : Json → Except DisplayFault Text
  | .str x => .ok x
  | value => if value.isVoid then .ok [] else .error .notText

end ApiReference
