import ApiReference.Site.Overview
import ApiReference.Document.Linking
import ApiReference.Document.Repair

/-! # Sites

A site is all that is made from a tree of declarations: a page for every declaration that gets one,
the overview, the references and the navigation.  A page goes through three stages: it is rendered,
its literal spans are linked, and it is repaired. -/

namespace ApiReference

/-- The stages of one page. -/
structure PageStages where
  entry : ReferenceEntry
  rendered : Document
  linked : Document
  repaired : Document
deriving DecidableEq, Inhabited

/-- A finished site. -/
structure Site where
  pages : List Document
  overview : Document
  refs : ReferenceMap
  manifest : Manifest
deriving DecidableEq, Inhabited

namespace Site

/-! ### Pages -/

/-- Takes a page through its stages. -/
def stagesOf (ctx : PageContext) (table : LinkTable) (placed : Placed) :
    Except PageFault PageStages := do
  let entry := ctx.settings.entryOf placed.declaration
  let rendered ← renderPage ctx placed entry.location
  let linked := rendered.link table
  return { entry, rendered, linked, repaired := linked.repair maxHeadingLevel }

/-- What the stages of a page have to say. -/
def stagesLog (table : LinkTable) (decl : Declaration) (stages : PageStages) : Log :=
  let stage (name : Text) : LogEntry :=
    LogEntry.debug "pipeline" ("Stage " ++ name ++ ": " ++ stages.entry.location)
  [stage "render"] ++ renderLog decl ++ [stage "link"] ++ stages.rendered.linkLog table ++
    [stage "repair"] ++ stages.linked.repairLog

/-- The context in which the pages of declarations are made. -/
def contextOf (settings : RenderSettings) (layout : Layout) (declarations : List Placed) :
    PageContext :=
  { settings, layout, refs := .ofDeclarations settings declarations }

/-- The stages of all pages, in the order of the declarations. -/
def allStages (ctx : PageContext) (declarations : List Placed) :
    Except PageFault (List PageStages) :=
  (pageWorthy declarations).mapM (stagesOf ctx ctx.refs.linkTable)

/-! ### Sites -/

/-- What a site is made from. -/
structure Plan where
  settings : RenderSettings := {}
  layout : Layout := Layout.standard
  /-- The name that was set for all sites. -/
  setName : Option Text := none
  /-- The name that was asked for. -/
  askedName : Option Text := none

/-- The first of the texts that is there and not empty. -/
def firstGiven (names : List (Option Text)) : Option Text :=
  names.findSome? fun name => name.filter fun x => !x.isEmpty

/-- The name of a site: the one asked for, the one set, or that of the root. -/
def nameOf (plan : Plan) (root : Declaration) : Option Text :=
  firstGiven [plan.askedName, plan.setName, some root.name]

/-- The pages with the declarations they are about. -/
def detailsOf (stages : List PageStages) : List PageDetail :=
  stages.map fun page => ⟨page.entry.name, page.entry.kind, page.repaired⟩

/-- The site of declarations, the first of which is the root, with what making it has to say. -/
def buildFrom (plan : Plan) (root : Declaration) (declarations : List Placed) :
    Except PageFault (Site × Log) := do
  let name := nameOf plan root
  let ctx := contextOf plan.settings plan.layout declarations
  let table := ctx.refs.linkTable
  let stages ← allStages ctx declarations
  let details := detailsOf stages
  let summary := if root.summary.isEmpty then none else some root.summary
  let drafted ← Overview.document ctx details name summary
  let linked := drafted.link table
  let site : Site := {
    pages := stages.map (·.repaired)
    overview := linked.repair maxHeadingLevel
    refs := ctx.refs
    manifest := Manifest.build plan.settings ctx.refs name }
  let pageLogs := ((pageWorthy declarations).zip stages).flatMap fun (placed, page) =>
    stagesLog table placed.declaration page
  let log :=
    [LogEntry.info "pipeline" ("Rendering " ++ name.getD "project")] ++
      referenceLog ctx.refs.entries ++ pageLogs ++ Overview.log ctx details ++
      drafted.linkLog table ++ linked.repairLog ++
      [LogEntry.info "pipeline"
        ("Rendered " ++ Text.ofNat site.pages.length ++ " page(s) and the overview")]
  return (site, log)

/-- The site of a tree of declarations. -/
def build (plan : Plan) (root : Declaration) : Except PageFault (Site × Log) :=
  buildFrom plan root root.walk

/-- The page that a name leads to. -/
def pageFor? (site : Site) (name : Text) : Option Document :=
  (site.refs.location? name).bind fun location =>
    site.pages.find? fun page => page.location == location

end Site

end ApiReference
