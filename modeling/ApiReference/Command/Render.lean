import ApiReference.Command.Basic
import ApiReference.Declaration.File
import ApiReference.Log.Setup
import ApiReference.Site.Files

/-! # Rendering on command

Reads the settings and the project, makes the site, and writes it.  What was written before
something failed stays written. -/

namespace ApiReference

/-- Why the command has failed. -/
inductive CommandFault
  | settings (fault : SettingsFileFault)
  | project (fault : ProjectFault)
  | page (fault : PageFault)
  | writing (fault : FileFault)
deriving DecidableEq, Inhabited, Repr

/-- What is said of a failure that the user can do something about. -/
def CommandFault.message? : CommandFault → Option Text
  | settings fault => fault.message?
  | project fault => fault.message?
  | page _ => none
  | writing fault =>
    fault.message?.map fun message =>
      "mdxdoc render failed: " ++ message ++ "\nRun with --verbose for more details."

/-- What the command has done. -/
structure RenderRun where
  /-- The files after it. -/
  tree : FileTree
  log : Log := []
  /-- What is said in the end. -/
  result : Except CommandFault Text

namespace RenderRun

/-- The exit code of the command. -/
def exit (run : RenderRun) : Nat :=
  match run.result with
  | .ok _ => 0
  | .error _ => 1

/-- What the command says on its standard output. -/
def output (run : RenderRun) : Text :=
  match run.result with
  | .ok summary => summary ++ ['\n']
  | .error _ => []

end RenderRun

namespace RenderOptions

/-- The directory that is written to if none is set. -/
def defaultDirectory : Path := { parts := [("docs" : Text)] }

/-- The path that is given, unless it is empty. -/
def givenPath? (x : Option Text) : Option Path :=
  (x.filter fun x => !x.isEmpty).map Path.ofText

/-- The directory that is written to: the one given, the one set, or the default. -/
def directory (options : RenderOptions) (settings : Settings) : Path :=
  ((givenPath? options.output).or settings.output.directory).getD defaultDirectory

/-- How a directory is called: by its place below the home directory, if it is there. -/
def shownDirectory (tree : FileTree) (directory : Path) : Text :=
  ((Path.below? tree.homePath (Path.resolve tree.homePath directory)).getD directory).toText

/-- The last words of a successful run. -/
def summary (tree : FileTree) (directory : Path) (site : Site) (written : List Path) : Text :=
  "Rendered " ++ Text.ofNat site.pages.length ++ " page(s) into " ++
    shownDirectory tree directory ++ " (" ++ Text.ofNat written.length ++ " file(s))"

/-- The path to the settings: the one given, or the home directory. -/
def settingsPath (options : RenderOptions) (tree : FileTree) : Path :=
  (givenPath? options.config).getD tree.homePath

/-- Writes the site of a project. -/
def writeSite (options : RenderOptions) (settings : Settings) (tree : FileTree)
    (root : Declaration) (log : Log) : RenderRun :=
  match Site.build (.ofSettings settings (settings.layout tree)) root with
  | .error fault => { tree, log, result := .error (.page fault) }
  | .ok (site, siteLog) =>
    let directory := options.directory settings
    let output := { settings.output with
      navigation := settings.output.navigation && options.navigation }
    let report := site.write output directory tree
    { tree := report.tree
      log := log ++ siteLog ++ report.log
      result := match report.fault with
        | some fault => .error (.writing fault)
        | none => .ok (summary tree directory site report.written) }

/-- The path to the project. -/
def projectPath (options : RenderOptions) : Path := Path.ofText options.project

/-- Carries the command out. -/
def run (options : RenderOptions) (tree : FileTree) : RenderRun :=
  match Settings.read tree (options.settingsPath tree) with
  | .error fault => { tree, result := .error (.settings fault) }
  | .ok settings =>
    match readProject tree options.projectPath with
    | .error fault => { tree, result := .error (.project fault) }
    | .ok (root, log) => options.writeSite settings tree root log

/-! ### What is looked at -/

/-- The files that the site of a project is written to. -/
def targets (options : RenderOptions) (settings : Settings) (tree : FileTree) : List Path :=
  let directory := options.directory settings
  let site? := do
    let (root, _) ← (readProject tree options.projectPath).toOption
    let (site, _) ← (Site.build (.ofSettings settings (settings.layout tree)) root).toOption
    return site
  match site? with
  | none => []
  | some site =>
    Site.manifestFile directory :: (site.documentFiles settings.output directory).map (·.1)

/-- The paths that the command looks at, as far as the files that are known tell. -/
def lookedAt (options : RenderOptions) (tree : FileTree) : List Path :=
  let path := options.settingsPath tree
  let first := [path, path.joinText settingsFileName, options.projectPath]
  match Settings.read tree path with
  | .error _ => first
  | .ok settings =>
    first ++ (settings.templates.toList.flatMap fun directory =>
      Layout.templateFiles.map directory.joinText) ++ options.targets settings tree

end RenderOptions

end ApiReference
