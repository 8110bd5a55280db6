import ApiReference.Settings.Render
import ApiReference.Json.Value

/-! # The navigation manifest

The name of the site and its navigation: the overview, then the groups of pages.  Pages of modules
are not listed, and a location that several entries share is listed once. -/

namespace ApiReference

/-- The navigation of a site. -/
structure Manifest where
  name : Text
  groups : List (Text × List Text)
deriving DecidableEq, Inhabited

/-- The name of a site that has none. -/
def defaultSiteName : Text := "API Reference"

/-- A text, or the other one if it is missing or empty. -/
def givenOr (given : Option Text) (default : Text) : Text :=
  match given with
  | some (c :: rest) => c :: rest
  | _ => default

namespace Manifest

/-- The path of a page below the root of the site. -/
def pagePath (refs : ReferenceMap) (location : Text) : Text :=
  if refs.basePath.isEmpty then location else refs.basePath ++ '/' :: location

/-- The pages of a group. -/
def pagesOf (refs : ReferenceMap) (entries : List ReferenceEntry) : List Text :=
  ((entries.filter fun entry => entry.kind != .moduleScope).map
    fun entry => pagePath refs entry.location).eraseDups

/-- The manifest of a site. -/
def build (settings : RenderSettings) (refs : ReferenceMap) (name : Option Text) : Manifest :=
  let groups := (refs.groups.map fun (title, entries) => (title, pagesOf refs entries)).filter
    fun (_, pages) => !pages.isEmpty
  { name := givenOr name defaultSiteName
    groups := ("Overview", [pagePath refs settings.indexPage]) :: groups }

/-- A group as it is written. -/
def groupJson (title : Text) (pages : List Text) : Json :=
  .obj [("group", .str title), ("pages", .arr (pages.map .str))]

/-- The manifest as it is written. -/
def toJson (manifest : Manifest) : Json :=
  .obj [("name", .str manifest.name),
    ("navigation", .arr (manifest.groups.map fun (title, pages) => groupJson title pages))]

end Manifest

end ApiReference
