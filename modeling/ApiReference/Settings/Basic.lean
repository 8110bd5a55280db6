import ApiReference.Settings.Render
import ApiReference.Files.Path
import ApiReference.Yaml.Value

/-! # Settings

All that can be set: the name of the project, how pages are rendered, and how they are written.
Settings are read from a mapping; a value of the wrong sort leaves the default in place, and only a
folder for an unknown kind is refused. -/

namespace ApiReference

/-- The settings for writing files. -/
structure OutputSettings where
  directory : Option Path := none
  extension : Text := ".mdx"
  /-- The navigation manifest is written too. -/
  navigation : Bool := true
deriving DecidableEq, Inhabited

/-- All settings. -/
structure Settings where
  /-- The directory in which relative paths of the settings start. -/
  root : Path
  projectName : Option Text := none
  render : RenderSettings := {}
  /-- Where templates are looked for before the standard ones. -/
  templates : Option Path := none
  output : OutputSettings := {}
deriving DecidableEq, Inhabited

/-- The name of the file that holds settings. -/
def settingsFileName : Text := ".mdxdoc.yml"

/-! ### Values of settings -/

namespace Yaml.Value

/-- The text of a text, a number or a truth value. -/
def asText? : Value → Option Text
  | bool b => (bool b).display?
  | int n => (int n).display?
  | float x => (float x).display?
  | str x => some x
  | _ => none

/-- The text, unless it is empty. -/
def asGivenText? (value : Value) : Option Text := value.asText?.filter fun x => !x.isEmpty

/-- A number above zero, which can also be written as a text. -/
def asCount? : Value → Option Int
  | int n => if 0 < n then some n else none
  | str x => (whole? x).filter fun n => 0 < n
  | _ => none

/-- The words that switch something on or off. -/
def switchWords : List (Text × Bool) :=
  [("true", true), ("yes", true), ("1", true), ("false", false), ("no", false), ("0", false)]

/-- A truth value, or a word for one. -/
def asSwitch? : Value → Option Bool
  | bool b => some b
  | str x => switchWords.lookup x.strip.lower
  | _ => none

/-- The value of a key, null if there is none. -/
def field (value : Value) (key : Text) : Value := (value.get? key).getD null

/-- The value is a mapping. -/
def isMap : Value → Bool
  | map _ => true
  | _ => false

end Yaml.Value

/-! ### Reading settings -/

/-- Why a mapping is refused as settings. -/
inductive SettingsFault
  | notAMapping
  /-- A folder is set for a kind that does not exist. -/
  | unknownKind (name : Text)
deriving DecidableEq, Inhabited, Repr

/-- What is said of settings that are refused. -/
def SettingsFault.message : SettingsFault → Text
  | notAMapping => settingsFileName ++ " must contain a mapping at the root"
  | unknownKind name => "Unknown declaration kind in render.folders: " ++ name

namespace RenderSettings

/-- Sets the folders of a mapping from kinds to folders; an empty folder is passed over. -/
def setFolders (settings : RenderSettings) :
    List (Yaml.Value × Yaml.Value) → Except SettingsFault RenderSettings
  | [] => .ok settings
  | (key, folder) :: more =>
    let name := key.display?.getD []
    match Kind.ofName name, folder.asGivenText? with
    | .unknown, _ => .error (.unknownKind name)
    | kind, some folder => (settings.setFolder kind (stripSlashes folder)).setFolders more
    | _, none => settings.setFolders more

/-- The settings for rendering in a mapping. -/
def ofValue (value : Yaml.Value) : Except SettingsFault RenderSettings :=
  let default : RenderSettings := {}
  let count (key : Text) (default : Int) : Int := (value.field key).asCount?.getD default
  let settings : RenderSettings := {
    propertyThreshold := count "property_disclosure_threshold" default.propertyThreshold
    methodThreshold := count "method_disclosure_threshold" default.methodThreshold
    workers := count "workers" default.workers
    basePath := ((value.field "base_path").asText?.map stripSlashes).getD default.basePath
    indexPage := ((value.field "index_page").asGivenText?.map stripSlashes).getD default.indexPage }
  settings.setFolders (value.field "folders").pairs

end RenderSettings

namespace OutputSettings

/-- A file extension with its dot. -/
def dotted (extension : Text) : Text :=
  if extension.startsWith ['.'] then extension else '.' :: extension

/-- The settings for writing in a mapping, whose directory is relative to a root. -/
def ofValue (root : Path) (value : Yaml.Value) : OutputSettings :=
  let default : OutputSettings := {}
  { directory := (value.field "directory").asGivenText?.map root.joinText
    extension := ((value.field "extension").asGivenText?.map dotted).getD default.extension
    navigation := (value.field "navigation").asSwitch?.getD default.navigation }

end OutputSettings

/-- The settings in a mapping, for a root directory. -/
def Settings.ofValue (root : Path) (value : Yaml.Value) : Except SettingsFault Settings :=
  if value.isMap then do
    let render := value.field "render"
    return {
      root
      projectName := ((value.field "project").field "name").asText?
      render := ← RenderSettings.ofValue render
      templates := (render.field "templates_dir").asGivenText?.map root.joinText
      output := .ofValue root (value.field "output") }
  else .error .notAMapping

end ApiReference
