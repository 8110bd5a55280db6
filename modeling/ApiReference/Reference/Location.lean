import ApiReference.Declaration.Walk
import ApiReference.Settings.Render
import ApiReference.Log

/-! # Locations of pages

Where the page of a declaration lives, and the references of a whole tree.  Names are reduced to
slugs, so two declarations can get one location. -/

namespace ApiReference

/-- The characters that a slug keeps. -/
def isSlugChar (c : Char) : Bool := c.isLower || c.isDigit

/-- The lower-case letters and digits of ASCII in a text, each run of others between them turned into
one hyphen. -/
def slugify (x : Text) : Text :=
  Text.joinWith ['-']
    ((Text.splitWhere (fun c => !isSlugChar c) x.lower).filter fun piece => !piece.isEmpty)

namespace RenderSettings

/-- The location of the page of a declaration. -/
def locationOf (settings : RenderSettings) (name : Text) (kind : Kind) : Text :=
  let slug := slugify name
  let shown : Text := if slug.isEmpty then "index" else slug
  let folder := settings.folderOf kind
  if folder.isEmpty then shown else folder ++ '/' :: shown

/-- The entry of a declaration. -/
def entryOf (settings : RenderSettings) (decl : Declaration) : ReferenceEntry :=
  ⟨decl.name, decl.kind, settings.locationOf decl.name decl.kind⟩

end RenderSettings

/-- The declarations that get a page. -/
def pageWorthy (declarations : List Placed) : List Placed :=
  declarations.filter fun placed => placed.declaration.kind.hasPage

/-- The entries of the declarations that get a page. -/
def pageEntries (settings : RenderSettings) (declarations : List Placed) : List ReferenceEntry :=
  (pageWorthy declarations).map fun placed => settings.entryOf placed.declaration

/-- The references of the declarations. -/
def ReferenceMap.ofDeclarations (settings : RenderSettings) (declarations : List Placed) :
    ReferenceMap :=
  .ofEntries (pageEntries settings declarations) settings.basePath

/-- What is said when a name comes again. -/
def duplicateMessage (before entry : ReferenceEntry) : Text :=
  "Duplicate page name " ++ entry.name ++ " (" ++ before.kind.name ++ " at " ++ before.location ++
    ", " ++ entry.kind.name ++ " at " ++ entry.location ++ "); links resolve to the latter"

/-- A warning for every entry whose name came before; `seen` holds the entries before, the last one
first. -/
def duplicateWarnings (seen : List ReferenceEntry) : List ReferenceEntry → Log
  | [] => []
  | entry :: more =>
    let rest := duplicateWarnings (entry :: seen) more
    match seen.find? fun before => before.name == entry.name with
    | some before => LogEntry.warning "references" (duplicateMessage before entry) :: rest
    | none => rest

/-- What resolving the references of declarations has to say. -/
def referenceLog (entries : List ReferenceEntry) : Log :=
  duplicateWarnings [] entries ++
    [LogEntry.debug "references"
      ("Resolved " ++ Text.ofNat entries.length ++ " page locations")]

end ApiReference
