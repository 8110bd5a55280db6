import ApiReference.Settings.Basic
import ApiReference.Files.Tree
import ApiReference.Page.Layout

/-! # Settings files

Finds the file that holds settings and reads it.  Where there is no such file, and where it says
nothing, everything has its default.

The path to settings is the one that is meant: where it began with a tilde for a home directory,
that has been put in. -/

namespace ApiReference

/-- Why settings cannot be read from a file. -/
inductive SettingsFileFault
  /-- The file, or a directory on the way to it, cannot be read. -/
  | unreadable (fault : ReadFault)
  /-- The file is not written in the notation. -/
  | malformed (name : Text)
  /-- A scalar in the file does not hold what it seems to hold. -/
  | badScalar (fault : Yaml.Fault)
  | refused (fault : SettingsFault)
deriving DecidableEq, Inhabited, Repr

namespace SettingsFileFault

/-- What is said of settings that cannot be used, where the settings themselves are to blame. -/
def message? : SettingsFileFault → Option Text
  | malformed name => some ("Failed to parse " ++ name)
  | refused fault => some fault.message
  | _ => none

end SettingsFileFault

/-- The directory from which relative paths start. -/
def FileTree.homePath (tree : FileTree) : Path := ⟨['/'], tree.home⟩

namespace Settings

/-- The file that an expanded path to settings means: in a directory, the one with the usual
name. -/
def fileAt (tree : FileTree) (path : Path) : Except FileFault Path := do
  let file := if ← tree.hasDirectory path then path.joinText settingsFileName else path
  if file.holdsNull then throw ⟨.holdsNull, file⟩
  return Path.resolve tree.homePath file

/-- The value that the text of a settings file holds. -/
def valueOf (name : Text) (x : Text) : Except SettingsFileFault Yaml.Value :=
  if x.isAllBlank then .ok (.map [])
  else
    match Yaml.Value.parse x with
    | .ok .null => .ok (.map [])
    | .ok value => .ok value
    | .error .malformed => .error (.malformed name)
    | .error fault => .error (.badScalar fault)

/-- Reads the settings to which a path leads. -/
def read (tree : FileTree) (path : Path) : Except SettingsFileFault Settings := do
  let file ← (fileAt tree path).mapError fun fault => .unreadable (.refused fault)
  let found ← (tree.look file).mapError fun fault => .unreadable (.refused fault)
  if found.isNone then return { root := file.parent }
  let x ← (tree.readText file).mapError .unreadable
  let value ← valueOf file.name x
  (ofValue file.parent value).mapError .refused

/-- The layout of fragments, with the templates that are found. -/
def layout (settings : Settings) (tree : FileTree) : Layout :=
  match settings.templates with
  | none => Layout.standard
  | some directory =>
    Layout.ofTemplates fun name =>
      match tree.readText (directory.joinText name) with
      | .ok x => some (.ok x)
      | .error .notText => some (.error .notText)
      | .error (.refused _) => none

end Settings

end ApiReference
