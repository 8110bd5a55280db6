import ApiReference.Site.Files
import ApiReference.Declaration.File
import ApiReference.Service.Target

/-! # The service

Answers requests to render a project.  The settings are read anew for every request to render, so
that edits count at once; a body that is missing or has the wrong shape is refused only after that. -/

namespace ApiReference

/-- A request. -/
structure ServiceRequest where
  method : Text
  target : Service.Target
  /-- The value that is sent as JSON. -/
  body : Option Json := none
deriving Inhabited

/-- A response.  One to a request that is not understood or that has failed has no body to go by. -/
structure ServiceResponse where
  status : Nat
  body : Option Json := none
deriving Inhabited

namespace ServiceResponse

/-- The response to a request that was carried out. -/
def done (body : Json) : ServiceResponse := { status := 200, body := some body }

/-- A response that says what is wrong. -/
def refusal (status : Nat) (detail : Text) : ServiceResponse :=
  { status, body := some (.obj [("detail", .str detail)]) }

/-- The body is not what the request needs. -/
def badBody : ServiceResponse := { status := 422 }

/-- Something has failed. -/
def failed : ServiceResponse := { status := 500 }

end ServiceResponse

/-- Why a project is not rendered. -/
inductive ServiceFault
  | notFound (detail : Text)
  | refused (detail : Text)
  | broken
deriving DecidableEq, Inhabited, Repr

namespace ServiceFault

/-- The response that tells of a fault. -/
def response : ServiceFault → ServiceResponse
  | notFound detail => .refusal 404 detail
  | refused detail => .refusal 400 detail
  | broken => .failed

/-- The fault of a file that cannot be used. -/
def ofFile (fault : FileFault) : ServiceFault :=
  match fault.cause, fault.message? with
  | .missing, some message => notFound message
  | _, _ => broken

/-- The fault of settings that cannot be read. -/
def ofSettings (fault : SettingsFileFault) : ServiceFault :=
  match fault with
  | .unreadable (.refused fault) => ofFile fault
  | fault => (fault.message?.map refused).getD broken

/-- The fault of a value that is no project. -/
def ofLoad (fault : LoadFault) : ServiceFault := (fault.message?.map refused).getD broken

end ServiceFault

namespace Service

/-! ### Routes -/

/-- What can be asked for. -/
inductive Route
  | health
  | render
  /-- The pages that describe the service to those who use it. -/
  | manual
deriving DecidableEq, Inhabited, Repr

namespace Route

/-- The paths of a route. -/
def paths : Route → List Text
  | health => ["/health"]
  | render => ["/render"]
  | manual => ["/openapi.json", "/docs", "/docs/oauth2-redirect", "/redoc"]

/-- The methods that a route is asked with. -/
def methods : Route → List Text
  | health => ["GET"]
  | render => ["POST"]
  | manual => ["GET", "HEAD"]

/-- The route of a path; slashes at the end do not matter, nor does one line end. -/
def ofPath? (path : Text) : Option Route :=
  let asked := Text.dropEndWhile (· == '/') path
  [health, render, manual].find? fun route =>
    route.paths.any fun path => path == asked || path ++ ['\n'] == asked

end Route

/-! ### Rendering -/

/-- What a body asks for. -/
structure RenderTask where
  project : Json
  projectName : Option Text := none
deriving Inhabited

/-- Reads what a body asks for; fields that are not known do not matter. -/
def RenderTask.ofJson? (body : Json) : Option RenderTask :=
  match body.field? "project", body.field? "project_name" with
  | some (.obj fields), none => some { project := .obj fields }
  | some (.obj fields), some .null => some { project := .obj fields }
  | some (.obj fields), some (.str name) =>
    some { project := .obj fields, projectName := some name }
  | _, _ => none

/-- A page as it is sent. -/
def pageJson (page : Document) : Json :=
  .obj [("location", .str page.location), ("title", .str page.title),
    ("content", .str page.toText)]

/-- A site as it is sent. -/
def siteJson (site : Site) : Json :=
  .obj [("pages", .arr (site.pages.map pageJson)), ("overview", .str site.overview.toText),
    ("navigation", site.manifest.toJson)]

/-- Renders what a body asks for. -/
def renderSite (plan : Site.Plan) (task : RenderTask) : Except ServiceFault Site := do
  let (root, _) ← (loadProject task.project).mapError .ofLoad
  let (site, _) ← (Site.build { plan with askedName := task.projectName } root).mapError
    fun _ => .broken
  return site

/-- The plan that the settings of the home directory make. -/
def planOf (tree : FileTree) : Except ServiceFault Site.Plan := do
  let settings ← (Settings.read tree tree.homePath).mapError .ofSettings
  return .ofSettings settings (settings.layout tree)

/-- The response to a request to render. -/
def renderResponse (plan : Except ServiceFault Site.Plan) (body : Option Json) :
    ServiceResponse :=
  match plan, body.bind RenderTask.ofJson? with
  | .error fault, _ => fault.response
  | .ok _, none => .badBody
  | .ok plan, some task =>
    match renderSite plan task with
    | .ok site => .done (siteJson site)
    | .error fault => fault.response

/-- The response to a request, given the plan by which sites are rendered. -/
def respond (plan : Except ServiceFault Site.Plan) (request : ServiceRequest) : ServiceResponse :=
  match request.target.asked?.bind Route.ofPath? with
  | none => .refusal 404 "Not Found"
  | some route =>
    if !route.methods.contains (request.method.map Char.toUpper) then
      .refusal 405 "Method Not Allowed"
    else
      match route with
      | .health => .done (.obj [("status", .str "ok")])
      | .render => renderResponse plan request.body
      | .manual => { status := 200 }

end Service

end ApiReference
