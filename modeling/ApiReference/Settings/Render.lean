import ApiReference.Reference.Map

/-! # Settings for rendering

What can be set about the pages: when long lists are folded, where pages live, and how the folders
are called. -/

namespace ApiReference

/-- The folder of a kind's pages, unless another one is set. -/
def Kind.defaultFolder : Kind → Text
  | .classType => "classes"
  | .interfaceType => "interfaces"
  | .function => "functions"
  | .enumeration => "enums"
  | .typeAlias => "type-aliases"
  | _ => "modules"

/-- The settings for rendering. -/
structure RenderSettings where
  /-- A declaration with more properties than this folds them. -/
  propertyThreshold : Int := 5
  /-- A declaration with more methods than this folds them. -/
  methodThreshold : Int := 3
  basePath : Text := "api"
  indexPage : Text := "index"
  /-- How many pages may be rendered at a time; the pages do not depend on it. -/
  workers : Int := 1
  /-- The folders that were set, the last one first. -/
  folders : List (Kind × Text) := []
deriving DecidableEq, Inhabited

/-- The greatest heading level of a finished page. -/
def maxHeadingLevel : Int := 4

namespace RenderSettings

/-- Sets the folder of a kind. -/
def setFolder (settings : RenderSettings) (kind : Kind) (folder : Text) : RenderSettings :=
  { settings with folders := (kind, folder) :: settings.folders }

/-- The folder of a kind's pages; an empty one counts as not set. -/
def folderOf (settings : RenderSettings) (kind : Kind) : Text :=
  match settings.folders.lookup kind with
  | some (c :: folder) => c :: folder
  | _ => kind.defaultFolder

/-- The site address of the overview. -/
def indexUrl (settings : RenderSettings) : Text :=
  let parts := [stripSlashes settings.basePath, settings.indexPage]
  '/' :: Text.joinWith ['/'] (parts.filter fun part => !part.isEmpty)

end RenderSettings

end ApiReference
