import ApiReference.Site.Basic
import ApiReference.Settings.File
import ApiReference.Json.Writer
import ApiReference.Log

/-! # Sites as files

The files of a site: every page and the overview below the base path of the site, each under its
location, and the navigation manifest beside them.  Pages that share a location share a file, which
the last of them is left in.

The directory of a site is the one that is meant: where its name began with a tilde for a home
directory, that has been put in.  No path is expanded here. -/

namespace ApiReference

/-- The plan that settings make, for a name that may be asked for. -/
def Site.Plan.ofSettings (settings : Settings) (layout : Layout) (askedName : Option Text := none) :
    Site.Plan :=
  { settings := settings.render, layout, setName := settings.projectName, askedName }

/-- The name of the file that holds the navigation manifest. -/
def manifestFileName : Text := "mint.json"

/-- A manifest as the text of its file. -/
def Manifest.toText (manifest : Manifest) : Text := manifest.toJson.renderIndented 0 ++ ['\n']

/-- What writing files has done so far. -/
structure WriteReport where
  tree : FileTree
  /-- The files, in the order in which they were written. -/
  written : List Path := []
  log : Log := []
  /-- What has stopped the writing. -/
  fault : Option FileFault := none
deriving Inhabited

namespace WriteReport

/-- Writes a file, unless writing has stopped. -/
def write (report : WriteReport) (path : Path) (x : Text) : WriteReport :=
  match report.fault with
  | some _ => report
  | none =>
    match report.tree.store path x with
    | .ok tree => { report with tree, written := report.written ++ [path] }
    | .error fault => { report with fault := some fault }

/-- Adds an entry to the log, unless writing has stopped. -/
def note (report : WriteReport) (entry : LogEntry) : WriteReport :=
  if report.fault.isSome then report else { report with log := report.log ++ [entry] }

end WriteReport

namespace Site

/-- The directory below which pages are written, in the expanded directory of the site. -/
def pagesRoot (site : Site) (directory : Path) : Path :=
  if site.refs.basePath.isEmpty then directory else directory.joinText site.refs.basePath

/-- The file of a location, in the expanded directory of the site. -/
def fileOf (site : Site) (output : OutputSettings) (directory : Path) (location : Text) : Path :=
  (site.pagesRoot directory).joinText (location ++ output.extension)

/-- The pages and the overview, each with its file. -/
def documentFiles (site : Site) (output : OutputSettings) (directory : Path) :
    List (Path × Text) :=
  (site.pages ++ [site.overview]).map fun page =>
    (site.fileOf output directory page.location, page.toText)

/-- Writes a document and says so. -/
def writeDocument (report : WriteReport) (file : Path × Text) : WriteReport :=
  (report.write file.1 file.2).note (.debug "writer" ("Wrote " ++ file.1.toText))

/-- The file of the navigation manifest. -/
def manifestFile (directory : Path) : Path := directory.joinText manifestFileName

/-- Writes a site below a directory, which is the expanded one. -/
def write (site : Site) (output : OutputSettings) (directory : Path) (tree : FileTree) :
    WriteReport :=
  let report := (site.documentFiles output directory).foldl writeDocument { tree }
  let report :=
    if output.navigation then report.write (manifestFile directory) site.manifest.toText
    else report
  let count := Text.ofNat report.written.length
  report.note
    (.info "writer" ("Wrote " ++ count ++ " file(s) to " ++ directory.toText))

end Site

end ApiReference
