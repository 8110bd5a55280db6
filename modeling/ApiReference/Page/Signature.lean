import ApiReference.Page.Comment
import ApiReference.Page.TypeText
import ApiReference.Page.Wording
import ApiReference.Reference.Map

/-! # Signatures on pages

A signature is shown by its call form, its comment, and its parameters and result as fields that can
be unfolded. -/

namespace ApiReference

/-- How names are shown on the pages of a site: those with a page are linked. -/
def ReferenceMap.links (refs : ReferenceMap) : Links := refs.href?

/-- Two summaries are the same but for blanks and full stops at their ends. -/
def sameSummary (a b : Text) : Bool := normalized a == normalized b
where
  /-- A summary with single blanks and without the full stops at its end. -/
  normalized (x : Text) : Text := Text.dropEndWhile (· == '.') x.singleSpaced

/-- A text in a literal span. -/
def inSpan (x : Text) : Text := ['\x60'] ++ x ++ ['\x60']

/-- The description of a parameter: its summary, or a sentence made from its name and type. -/
def parameterDescription (parameter : Parameter) (plain : Json) : Except DisplayFault Text :=
  let summary := summaryText parameter.comment
  if !summary.isEmpty then .ok summary
  else
    match Wording.nameSentence? parameter.name with
    | some sentence => .ok sentence
    | none =>
      match plain with
      | .str type => .ok (Wording.typeSentence parameter.name type)
      | _ => .error .notText

/-- The field of a parameter. -/
def parameterBlocks (refs : ReferenceMap) (parameter : Parameter) :
    Except DisplayFault (List Block) := do
  let linked ← showPart refs.links parameter.type
  let plain ← showPart Links.none parameter.type
  let description ← parameterDescription parameter plain
  let description ← withTypeMention description linked
  let type ← typeForAttribute plain
  return Fragment.paramField (Wording.placeOf parameter.name) parameter.name type
    (Fragment.prose description) (!parameter.flags.optional)

/-- What is said about the result in a comment. -/
def returnsText : Option Comment → Text
  | none => []
  | some comment => comment.returns.strip

/-- The field of the result. -/
def returnBlocks (refs : ReferenceMap) (signature : Signature) :
    Except DisplayFault (List Block) := do
  let linked ← showPart refs.links signature.type
  let plain ← showPart Links.none signature.type
  let shown ← typeInProse linked
  let description := Markup.appendSentence (returnsText signature.comment)
    ("Returns " ++ shown ++ ['.'])
  let type ← typeForAttribute plain
  return Fragment.responseField "returns" type (Fragment.prose description) false

/-- How a signature is presented. -/
structure SignatureView where
  /-- It is the signature of a constructor, which returns nothing of its own. -/
  asConstructor : Bool := false
  /-- The call form is shown. -/
  callLine : Bool := true
  /-- A summary that was shown before and need not be repeated. -/
  shownSummary : Text := []

/-- The call form of a signature as a paragraph. -/
def callBlocks (view : SignatureView) (name : Text) (signature : Signature) :
    Except DisplayFault (List Block) := do
  if view.callLine then
    let form ← if view.asConstructor then signature.newForm name else signature.callForm name
    return [Block.paragraph (inSpan form)]
  else return []

/-- The comment of a signature, the summary left out if it was shown before. -/
def signatureCommentBlocks (view : SignatureView) : Option Comment → List Block
  | none => []
  | some comment =>
    let summary := comment.summary.strip
    let shown :=
      if summary.isEmpty || sameSummary summary view.shownSummary then []
      else Fragment.richText summary
    shown ++ commentBlocks comment

/-- The blocks of a signature. -/
def signatureBlocks (refs : ReferenceMap) (view : SignatureView) (name : Text)
    (signature : Signature) : Except DisplayFault (List Block) := do
  let call ← callBlocks view name signature
  let comment := signatureCommentBlocks view signature.comment
  let parameters ←
    if signature.parameters.isEmpty then pure []
    else do
      let fields ← signature.parameters.mapM (parameterBlocks refs)
      pure (Fragment.expandable "Parameters" fields.flatten false)
  let result ←
    if !view.asConstructor && signature.returnsValue then do
      pure (Fragment.expandable "Returns" (← returnBlocks refs signature) false)
    else pure []
  return call ++ comment ++ parameters ++ result

end ApiReference
