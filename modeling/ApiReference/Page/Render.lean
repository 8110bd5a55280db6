import ApiReference.Page.Signature
import ApiReference.Reference.Location

/-! # Pages

The page of a declaration: frontmatter, a link back, the name as heading, the summary and the rest of
the comment, and then what the kind of the declaration asks for.  Long lists of properties and
methods are folded. -/

namespace ApiReference

/-- What rendering goes by: the settings, the layouts of fragments, and the references. -/
structure PageContext where
  settings : RenderSettings
  layout : Layout
  refs : ReferenceMap

/-- Why a page cannot be rendered. -/
inductive PageFault
  | display (fault : DisplayFault)
  | template (fault : TemplateFault)
deriving DecidableEq, Inhabited, Repr

instance liftDisplay : MonadLift (Except DisplayFault) (Except PageFault) :=
  ⟨fun result => result.mapError .display⟩

instance liftTemplate : MonadLift (Except TemplateFault) (Except PageFault) :=
  ⟨fun result => result.mapError .template⟩

/-! ### Summary and description -/

namespace Declaration

/-- The summary of a declaration, or that of its first signature that has one. -/
def pageSummary (decl : Declaration) : Text :=
  if !decl.summary.isEmpty then decl.summary
  else
    ((decl.signatures.map fun signature => summaryText signature.comment).find?
      fun x => !x.isEmpty).getD []

/-- The sentence that describes a declaration without a summary. -/
def generatedDescription (decl : Declaration) : Text :=
  let title : Text := if decl.name.isEmpty then "Documentation" else decl.name
  match decl.kind with
  | .classType => "Use the " ++ title ++ " class to manage " ++ Wording.pluralOf title ++ ['.']
  | .interfaceType =>
    "The " ++ title ++ " interface defines the structure for " ++ Wording.pluralOf title ++ ['.']
  | .function => "Call " ++ title ++ " to " ++ Wording.actionOf title ++ ['.']
  | .enumeration => "Use " ++ title ++ " to specify " ++ Wording.pluralOf title ++ ['.']
  | _ => "Documentation for " ++ title ++ ['.']

/-- The description of a declaration in one line. -/
def describe (decl : Declaration) : Text :=
  let summary := decl.pageSummary.singleSpaced
  Markup.ensurePeriod (if summary.isEmpty then decl.generatedDescription else summary)

end Declaration

/-! ### The link back -/

/-- The text and the target of the link back.  A class or interface around the declaration is the
target, unless a module lies between them. -/
def backTarget (ctx : PageContext) : List Ancestor → Text × Text
  | [] => ("← Back to API Reference", ctx.settings.indexUrl)
  | ancestor :: more =>
    match ancestor.kind with
    | .moduleScope => ("← Back to API Reference", ctx.settings.indexUrl)
    | .classType | .interfaceType =>
      match ctx.refs.href? ancestor.name with
      | some href => ("← Back to " ++ ancestor.name, href)
      | none => ("← Back to API Reference", ctx.settings.indexUrl)
    | _ => backTarget ctx more

/-- The link back as a paragraph. -/
def backLink (ctx : PageContext) (lineage : List Ancestor) : Block :=
  let (text, target) := backTarget ctx lineage
  Block.paragraph ("[" ++ text ++ "](" ++ target ++ [')'])

/-! ### Properties -/

/-- The line that shows a type. -/
def typeLine (ctx : PageContext) (type : Option TypeExpr) : Except DisplayFault Block := do
  let shown ← showPart ctx.refs.links type
  return Block.paragraph ("**Type:** " ++ (← typeInProse shown))

/-- The summary of a property, or a sentence made from its name. -/
def propertyDescription (property : Declaration) : Text :=
  if property.summary.isEmpty then "The " ++ property.name ++ " property." else property.summary

/-- A property of a class. -/
def classPropertyBlocks (ctx : PageContext) (property : Declaration) :
    Except DisplayFault (List Block) := do
  return (← typeLine ctx property.type) :: Fragment.prose (propertyDescription property)

/-- A property of an interface. -/
def interfacePropertyBlocks (ctx : PageContext) (property : Declaration) :
    Except DisplayFault (List Block) := do
  let linked ← showPart ctx.refs.links property.type
  let description ← withTypeMention (propertyDescription property) linked
  let plain ← showPart Links.none property.type
  let type ← typeForAttribute plain
  return Fragment.responseField property.name type (Fragment.prose description)
    (!property.flags.optional)

/-- Properties under a heading, folded if there are many. -/
def propertySection (ctx : PageContext)
    (blocksOf : Declaration → Except DisplayFault (List Block)) (properties : List Declaration) :
    Except DisplayFault (List Block) := do
  if properties.isEmpty then return []
  let shown ← properties.mapM fun property => do return (property.name, ← blocksOf property)
  let body :=
    if ctx.settings.propertyThreshold < properties.length then Fragment.accordionGroup shown
    else shown.flatMap fun (name, blocks) => Block.paragraph ("**" ++ name ++ "**") :: blocks
  return Block.heading 3 "Properties" :: body

/-! ### Classes -/

/-- The constructors under a heading, each by its first signature. -/
def constructorSection (ctx : PageContext) (name : Text) (constructors : List Declaration) :
    Except DisplayFault (List Block) := do
  if constructors.isEmpty then return []
  let shown ← constructors.mapM fun decl =>
    match decl.signatures with
    | [] => pure []
    | first :: _ => signatureBlocks ctx.refs { asConstructor := true } name first
  return Block.heading 3 "Constructor" :: shown.flatten

/-- A method with its first signature. -/
structure MethodView where
  name : Text
  signature : Signature

/-- The methods that have a signature. -/
def methodsOf (decl : Declaration) : List MethodView :=
  (decl.childrenOf .method).filterMap fun method =>
    method.signatures.head?.map fun signature => ⟨method.name, signature⟩

/-- The methods under a heading, folded if there are many. -/
def methodSection (ctx : PageContext) (methods : List MethodView) :
    Except DisplayFault (List Block) := do
  if methods.isEmpty then return []
  let body ←
    if ctx.settings.methodThreshold < methods.length then do
      let items ← methods.mapM fun method => do
        let title ← method.signature.callForm method.name
        let blocks ← signatureBlocks ctx.refs { callLine := false } method.name method.signature
        pure (title, blocks)
      pure (Fragment.accordionGroup items)
    else do
      let shown ← methods.mapM fun method => do
        let blocks ← signatureBlocks ctx.refs {} method.name method.signature
        pure (Block.heading 4 method.name :: blocks)
      pure shown.flatten
  return Block.heading 3 "Methods" :: body

/-- What the page of a class shows. -/
def classBlocks (ctx : PageContext) (decl : Declaration) : Except PageFault (List Block) := do
  let constructors := decl.childrenOf .constructor
  let properties := decl.childrenOf .property
  let methods := methodsOf decl
  let titles : List Text :=
    (if constructors.isEmpty then [] else [("Constructor" : Text)]) ++
      (if properties.isEmpty then [] else [("Properties" : Text)]) ++
      (if methods.isEmpty then [] else [("Methods" : Text)])
  let contents ← Fragment.contents ctx.layout titles
  let constructorPart ← constructorSection ctx decl.name constructors
  let propertyPart ← propertySection ctx (classPropertyBlocks ctx) properties
  let methodPart ← methodSection ctx methods
  return contents ++ constructorPart ++ propertyPart ++ methodPart

/-! ### Other kinds -/

/-- What the page of an interface shows. -/
def interfaceBlocks (ctx : PageContext) (decl : Declaration) :
    Except PageFault (List Block) := do
  let properties := decl.childrenOf .property
  if properties.isEmpty then return []
  let contents ← Fragment.contents ctx.layout ["Properties"]
  let body ← propertySection ctx (interfacePropertyBlocks ctx) properties
  return contents ++ body

/-- What the page of a function shows: all its signatures. -/
def functionBlocks (ctx : PageContext) (decl : Declaration) :
    Except DisplayFault (List Block) := do
  let view : SignatureView := { shownSummary := decl.pageSummary }
  return (← decl.signatures.mapM (signatureBlocks ctx.refs view decl.name)).flatten

/-- What stands in a table cell that has nothing to say. -/
def emptyCell : Text := "—"

/-- The row of an enum member: its name, its value and its summary. -/
def memberRow (member : Declaration) : List Text :=
  let summary := member.summary.singleSpaced
  [inSpan member.name, inSpan (givenOrName member.defaultValue),
    if summary.isEmpty then emptyCell else summary]
where
  /-- The value, or the name if there is none. -/
  givenOrName : Option Text → Text
    | some (c :: rest) => c :: rest
    | _ => member.name

/-- The table of the members of an enum. -/
def memberTable (ctx : PageContext) (members : List Declaration) : Except TemplateFault Block :=
  Fragment.table ctx.layout ["Name", "Value", "Description"] (members.map memberRow)

/-- What the page of an enum shows. -/
def enumBlocks (ctx : PageContext) (decl : Declaration) :
    Except TemplateFault (List Block) := do
  let members := decl.childrenOf .enumMember
  if members.isEmpty then return []
  let contents ← Fragment.contents ctx.layout ["Members"]
  return contents ++ [Block.heading 3 "Members", ← memberTable ctx members]

/-- What the page of a type alias shows. -/
def aliasBlocks (ctx : PageContext) (decl : Declaration) : Except DisplayFault (List Block) := do
  if decl.type.isNone then return []
  return [← typeLine ctx decl.type]

/-! ### Whole pages -/

/-- The kind has a layout of its own. -/
def Kind.hasLayout : Kind → Bool
  | .classType | .interfaceType | .function | .enumeration | .typeAlias => true
  | _ => false

/-- What the page shows by the kind of its declaration. -/
def kindBlocks (ctx : PageContext) (decl : Declaration) : Except PageFault (List Block) := do
  match decl.kind with
  | .classType => classBlocks ctx decl
  | .interfaceType => interfaceBlocks ctx decl
  | .function => functionBlocks ctx decl
  | .enumeration => enumBlocks ctx decl
  | .typeAlias => aliasBlocks ctx decl
  | _ => return []

/-- The blocks at the top of every page. -/
def openingBlocks (ctx : PageContext) (placed : Placed) : Except TemplateFault (List Block) := do
  let decl := placed.declaration
  let summary := decl.pageSummary
  let frontmatter ← Fragment.frontmatter ctx.layout decl.name decl.describe
  return [frontmatter, backLink ctx placed.lineage, Block.heading 2 decl.name] ++
    (if summary.isEmpty then [] else Fragment.richText summary) ++ commentBlocks? decl.comment

/-- The page of a declaration at a location. -/
def renderPage (ctx : PageContext) (placed : Placed) (location : Text) :
    Except PageFault Document := do
  let opening ← openingBlocks ctx placed
  let body ← kindBlocks ctx placed.declaration
  return { location, title := placed.declaration.name, blocks := opening ++ body }

/-- What rendering a page has to say. -/
def renderLog (decl : Declaration) : Log :=
  if decl.kind.hasLayout then []
  else
    [LogEntry.debug "rendering"
      ("No dedicated layout for " ++ decl.name ++ " (" ++ decl.kind.name ++
        "); rendering summary only")]

end ApiReference
