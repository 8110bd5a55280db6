import ApiReference.Proofs.PageLookup
import ApiReference.Proofs.Slugs
import Mathlib.Data.List.Infix

/-! # Folders of pages

No name leads a page out of its place.  Unless other folders are set, the location of a declaration is
the folder of its kind, a slash and a slug, whatever its name is, and the file of every page lies
directly in one of these folders (`Site.pages_stay_in_folders`). -/

namespace ApiReference

/-- The folders of pages, unless others are set. -/
def defaultFolders : List Text :=
  ["classes", "interfaces", "functions", "enums", "type-aliases", "modules"]

theorem mem_defaultFolders (kind : Kind) : kind.defaultFolder ∈ defaultFolders := by
  cases kind <;> decide

/-- The file lies directly in one of the folders below the directory, under a slug, and that is where
its path leads in every tree. -/
def Path.LiesInFolder (directory file : Path) : Prop :=
  ∃ folder ∈ defaultFolders, ∃ slug, IsSlug slug ∧
    file = { directory with parts := directory.parts ++ [folder, slug ++ ".mdx"] } ∧
    ∀ tree : FileTree, tree.goal file = tree.goal directory ++ [folder, slug ++ ".mdx"]

/-- The location of a declaration with a name: a folder, a slash and a slug. -/
structure RenderSettings.LocatesBySlug (settings : RenderSettings) (name : Text) (kind : Kind) :
    Prop where
  location : settings.locationOf name kind = kind.defaultFolder ++ '/' :: slugOf name
  isSlug : IsSlug (slugOf name)
  /-- The last part is the slug of the name, if it has one. -/
  slug : slugOf name = slugify name ∨ slugify name = [] ∧ slugOf name = "index"

theorem RenderSettings.locatesBySlug {settings : RenderSettings} {kind : Kind}
    (h : settings.folderOf kind = kind.defaultFolder) (name : Text) :
    settings.LocatesBySlug name kind := by
  refine ⟨by rw [locationOf_eq, h], isSlug_slugOf name, ?_⟩
  unfold slugOf
  split
  · next hnil => exact .inr ⟨List.isEmpty_iff.1 hnil, rfl⟩
  · exact .inl rfl

/-- A location of a folder and a slug, with the extension, is a file that lies in the folder. -/
theorem Path.liesInFolder_joinText (directory : Path) (kind : Kind) (name : Text) :
    directory.LiesInFolder
      (directory.joinText (kind.defaultFolder ++ '/' :: slugOf name ++ ".mdx")) := by
  have hplain := forall_isPlain_location kind name
  rw [location_append_extension]
  exact ⟨kind.defaultFolder, mem_defaultFolders kind, slugOf name, isSlug_slugOf name,
    directory.joinText_joinWith (List.cons_ne_nil _ _) hplain,
    fun tree => tree.goal_joinText directory (List.cons_ne_nil _ _) hplain⟩

namespace Site

/-- Written with the standard extension, the pages of a site stay in the folders. -/
structure StaysInFolders (site : Site) : Prop where
  /-- The file of every page lies in a folder below the directory of pages. -/
  files : ∀ (output : OutputSettings) (directory : Path), output.extension = (".mdx" : Text) →
    ∀ page ∈ site.pages,
      (site.pagesRoot directory).LiesInFolder (site.fileOf output directory page.location)
  /-- As many files as there are pages are written first, in the order of the pages, or fewer if
  writing stops; they are the files of the pages. -/
  written : ∀ output directory tree,
    (site.write output directory tree).written.take site.pages.length <+:
      site.pages.map fun page => site.fileOf output directory page.location

theorem isPrefix_take_written (site : Site) (output : OutputSettings) (directory : Path)
    (tree : FileTree) : (site.write output directory tree).written.take site.pages.length <+:
      site.pages.map fun page => site.fileOf output directory page.location := by
  have hfirst := List.IsPrefix.take (site.isPrefix_written output directory tree) site.pages.length
  rwa [documentFiles, List.map_map, List.map_append, List.append_assoc,
    List.take_left' (List.length_map _)] at hfirst

theorem staysInFolders_of_build {plan : Plan} {root : Declaration} {site : Site} {log : Log}
    (hfolders : ∀ kind, plan.settings.folderOf kind = kind.defaultFolder)
    (h : build plan root = .ok (site, log)) : site.StaysInFolders := by
  refine ⟨fun output directory hextension page hpage => ?_, site.isPrefix_take_written⟩
  obtain ⟨placed, -, -, hlocation, -⟩ :=
    exists_of_mem_forall₂ (followsWalk_of_build h).pages page hpage
  rw [hlocation, (RenderSettings.locatesBySlug (hfolders _) _).location, fileOf, hextension]
  exact Path.liesInFolder_joinText _ _ _

/-- Names do not lead out of the folders of pages.  Unless other folders are set, every name leads to a
slug in the folder of its kind; slugs are their own slugs, and nothing else is but the empty text; and
every site that is made, and one is made of every tree whose types can be shown, has the file of each
page directly in one of the folders. -/
theorem pages_stay_in_folders (plan : Plan)
    (hfolders : ∀ kind, plan.settings.folderOf kind = kind.defaultFolder) (root : Declaration) :
    (∀ name kind, plan.settings.LocatesBySlug name kind) ∧
      (∀ x, slugify (slugify x) = slugify x ∧ (slugify x = x ↔ x = [] ∨ IsSlug x)) ∧
      (∀ site log, build plan root = .ok (site, log) → site.StaysInFolders) ∧
      (plan.layout.LaysOut → root.wellNamed = true → Succeeds (build plan root)) :=
  ⟨fun name kind => RenderSettings.locatesBySlug (hfolders kind) name,
    fun x => ⟨slugify_slugify x, slugify_eq_self_iff⟩,
    fun _ _ h => staysInFolders_of_build hfolders h, Site.succeeds_build⟩

/-- A project with a class and a function whose names lead upwards. -/
def upwardProject : Declaration where
  name := "sdk"
  kind := .project
  comment := none
  signatures := []
  children := [
    { name := "../../Etc/Passwd"
      kind := .classType
      comment := none
      signatures := []
      children := []
      type := none
      flags := {}
      defaultValue := none },
    { name := ".."
      kind := .function
      comment := none
      signatures := []
      children := []
      type := none
      flags := {}
      defaultValue := none }]
  type := none
  flags := {}
  defaultValue := none

/-- Both pages stay in their folders; the name without letters leads to the slug `index`. -/
theorem pages_stay_in_folders_upward :
    (∀ kind, RenderSettings.folderOf {} kind = kind.defaultFolder) ∧
      ∃ site log, build {} upwardProject = .ok (site, log) ∧ site.StaysInFolders ∧
        site.pages.map (·.location) = ["classes/etc-passwd", "functions/index"] := by
  have hfolders : ∀ kind, RenderSettings.folderOf {} kind = kind.defaultFolder := by
    intro kind
    cases kind <;> rfl
  obtain ⟨_, _, hstays, hsucceeds⟩ := pages_stay_in_folders {} hfolders upwardProject
  obtain ⟨⟨site, log⟩, h⟩ := hsucceeds laysOut_standard (by decide +kernel)
  have hlocations : site.pages.map (·.location) =
      (pageWorthy (upwardProject.preorder [])).map fun placed =>
        RenderSettings.locationOf {} placed.declaration.name placed.declaration.kind := by
    rw [← List.forall₂_eq_eq_eq, List.forall₂_map_left_iff, List.forall₂_map_right_iff]
    exact (followsWalk_of_build h).pages.flip.imp fun page placed hpage => hpage.2.1
  refine ⟨hfolders, site, log, h, hstays site log h, hlocations.trans ?_⟩
  decide +kernel

end Site

end ApiReference
