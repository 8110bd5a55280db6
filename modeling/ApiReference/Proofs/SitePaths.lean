import ApiReference.Proofs.LoadedSettings
import ApiReference.Proofs.WalkedSite
import ApiReference.Proofs.WrittenFiles
import Mathlib.Data.List.Nodup

/-! # Paths of pages

Navigation, links and files each put the path of a page together in a way of their own.  With settings
that were loaded they agree: every path is the base path, a slash and the location
(`RenderSettings.sitePath`).  The navigation lists each path once, in the group of its kind; the address
is a slash and the path; and the page is written to the path with the extension
(`Site.paths_agree`).  Modules add no path to the navigation, but settings can give them the folder of
another kind, and then the path of a module may be listed as that of another page
(`Site.module_path_listed`). -/

namespace ApiReference

/-- The path of a page below the root of the site: the base path, if there is one, and the location. -/
def RenderSettings.sitePath (settings : RenderSettings) (location : Text) : Text :=
  Text.joinWith ['/'] ([settings.basePath, location].filter fun part => !part.isEmpty)

theorem RenderSettings.sitePath_eq (settings : RenderSettings) {location : Text}
    (h : location ≠ []) : settings.sitePath location =
      if settings.basePath.isEmpty then location else settings.basePath ++ '/' :: location := by
  unfold sitePath
  split
  · next hbase => simp [List.isEmpty_iff.1 hbase, h, Text.joinWith]
  · next hbase =>
    have hparts : ∀ part ∈ [settings.basePath, location], (!part.isEmpty) = true := by
      simpa [h] using hbase
    rw [List.filter_eq_self.2 hparts, Text.joinWith_cons_cons]
    simp [Text.joinWith]

/-! ### The navigation -/

/-- The pages of a group of the navigation are those of the entries of a kind: each path once, in the
order of the first entries that have it. -/
structure RenderSettings.ListsKind (settings : RenderSettings) (entries : List ReferenceEntry)
    (kind : Kind) (pages : List Text) : Prop where
  listed : ∀ path, path ∈ pages ↔
    ∃ entry ∈ entries, entry.kind = kind ∧ settings.sitePath entry.location = path
  nodup : pages.Nodup
  ordered : pages.Pairwise fun a b =>
    let paths := (entries.filter fun entry => entry.kind == kind).map
      fun entry => settings.sitePath entry.location
    paths.idxOf a < paths.idxOf b

/-- A manifest lists the pages of entries. -/
structure Manifest.ListsPages (manifest : Manifest) (settings : RenderSettings)
    (entries : List ReferenceEntry) : Prop where
  /-- After the overview comes a group for each kind that has entries, in the fixed order. -/
  groups : ∃ overview groups, manifest.groups = (("Overview" : Text), overview) :: groups ∧
    List.Forall₂ (fun group listed =>
        listed.1 = group.1 ∧ settings.ListsKind entries group.2 listed.2)
      (navigationGroups.filter fun group => entries.any fun entry => entry.kind == group.2) groups
  /-- Every path of an entry is in the group of its kind, and that once, unless it is a module's. -/
  once : ∀ entry ∈ entries, entry.kind ≠ .moduleScope → ∃ title pages,
    (title, entry.kind) ∈ navigationGroups ∧ (title, pages) ∈ manifest.groups.tail ∧
      pages.count (settings.sitePath entry.location) = 1
  /-- Outside the overview, a group lists the paths of the entries of its kind, which is not that of
  modules, and nothing else. -/
  listed : ∀ title pages, (title, pages) ∈ manifest.groups.tail → ∀ path, path ∈ pages ↔
    ∃ entry ∈ entries, entry.kind ≠ .moduleScope ∧ (title, entry.kind) ∈ navigationGroups ∧
      settings.sitePath entry.location = path
  /-- The path of a module is in a group only where an entry of the group has the same path. -/
  modules : ∀ entry ∈ entries, entry.kind = .moduleScope → ∀ title pages,
    (title, pages) ∈ manifest.groups.tail → settings.sitePath entry.location ∈ pages →
      ∃ other ∈ entries, other.kind ≠ .moduleScope ∧ (title, other.kind) ∈ navigationGroups ∧
        settings.sitePath other.location = settings.sitePath entry.location

namespace Manifest

variable {settings : RenderSettings} {refs : ReferenceMap}

/-- The kinds of groups are those that have pages, but for modules. -/
theorem kind_of_navigationGroups : ∀ group ∈ navigationGroups, group.2 ≠ .moduleScope := by decide

/-- Every group has a title of its own. -/
theorem eq_of_mem_navigationGroups : ∀ group ∈ navigationGroups, ∀ other ∈ navigationGroups,
    group.1 = other.1 → group = other := by
  decide

theorem exists_title_of_hasPage {kind : Kind} (h : kind.hasPage = true) (hm : kind ≠ .moduleScope) :
    ∃ title, (title, kind) ∈ navigationGroups := by
  revert h hm
  cases kind <;> simp [Kind.hasPage, navigationGroups]

theorem pagesOf_entriesOf {kind : Kind} (h : kind ≠ .moduleScope) :
    pagesOf refs (refs.entriesOf kind) =
      ((refs.entriesOf kind).map fun entry => pagePath refs entry.location).eraseDups := by
  unfold pagesOf
  rw [List.filter_eq_self.2]
  intro entry hentry
  have hkind : entry.kind = kind := by simpa using (List.mem_filter.1 hentry).2
  simpa [hkind] using h

/-- The groups that are built: after the overview, one for each kind that has entries. -/
theorem groups_build (settings : RenderSettings) (refs : ReferenceMap) (name : Option Text) :
    (build settings refs name).groups = (("Overview" : Text), [pagePath refs settings.indexPage]) ::
      (navigationGroups.filter fun group => refs.entries.any fun entry => entry.kind == group.2).map
        fun group => (group.1, pagesOf refs (refs.entriesOf group.2)) := by
  have hsome (group : Text × Kind) : (!(refs.entriesOf group.2).isEmpty) =
      refs.entries.any fun entry => entry.kind == group.2 := by
    rw [Bool.eq_iff_iff]
    simp [ReferenceMap.entriesOf]
  have hpages (group : Text × Kind) (hg : group ∈ navigationGroups) :
      (pagesOf refs (refs.entriesOf group.2)).isEmpty = (refs.entriesOf group.2).isEmpty := by
    rw [pagesOf_entriesOf (kind_of_navigationGroups group hg), Bool.eq_iff_iff, List.isEmpty_iff,
      List.isEmpty_iff, List.eq_nil_iff_forall_not_mem]
    simp [List.mem_eraseDups, List.eq_nil_iff_forall_not_mem]
  unfold build ReferenceMap.groups
  dsimp only
  rw [List.filter_map, List.filter_map, List.filter_map, List.map_map, List.filter_filter]
  refine congrArg (List.cons _ ∘ List.map _) (List.filter_congr fun group hg => ?_)
  rw [← hsome group]
  simp [hpages group hg]

section

variable (hbase : refs.basePath = settings.basePath)
  (hlocations : ∀ entry ∈ refs.entries, entry.location ≠ [])

include hbase hlocations

theorem pagePath_eq_sitePath {entry : ReferenceEntry} (h : entry ∈ refs.entries) :
    pagePath refs entry.location = settings.sitePath entry.location := by
  rw [settings.sitePath_eq (hlocations entry h), ← hbase, pagePath]

theorem listsKind_pagesOf {kind : Kind} (h : kind ≠ .moduleScope) :
    settings.ListsKind refs.entries kind (pagesOf refs (refs.entriesOf kind)) := by
  have hpages : pagesOf refs (refs.entriesOf kind) =
      ((refs.entriesOf kind).map fun entry => settings.sitePath entry.location).eraseDups := by
    rw [pagesOf_entriesOf h]
    refine congrArg _ (List.map_congr_left fun entry hentry => ?_)
    exact pagePath_eq_sitePath hbase hlocations (List.mem_filter.1 hentry).1
  have hordered := pairwise_idxOf_eraseDups
    ((refs.entriesOf kind).map fun entry => settings.sitePath entry.location)
  rw [← hpages] at hordered
  refine ⟨fun path => ?_, hordered.imp fun hlt e => ?_, hordered⟩
  · rw [hpages, List.mem_eraseDups, List.mem_map]
    simp [ReferenceMap.entriesOf, and_assoc]
  · rw [e] at hlt
    exact Nat.lt_irrefl _ hlt

/-- The manifest that is built lists the pages of the entries. -/
theorem listsPages_build (hworthy : ∀ entry ∈ refs.entries, entry.kind.hasPage = true)
    (name : Option Text) : (build settings refs name).ListsPages settings refs.entries := by
  have hgroups := groups_build settings refs name
  have hlists {group : Text × Kind} (hg : group ∈ navigationGroups) :=
    listsKind_pagesOf hbase hlocations (kind_of_navigationGroups group hg)
  have hlisted (title : Text) (pages : List Text)
      (hgroup : (title, pages) ∈ (build settings refs name).groups.tail) (path : Text) :
      path ∈ pages ↔ ∃ entry ∈ refs.entries, entry.kind ≠ .moduleScope ∧
        (title, entry.kind) ∈ navigationGroups ∧ settings.sitePath entry.location = path := by
    rw [hgroups, List.tail_cons] at hgroup
    obtain ⟨group, hg, he⟩ := List.mem_map.1 hgroup
    obtain ⟨rfl, rfl⟩ := Prod.mk.inj he
    have hg := (List.mem_filter.1 hg).1
    rw [(hlists hg).listed]
    constructor
    · rintro ⟨entry, hentry, hkind, hlocation⟩
      exact ⟨entry, hentry, hkind ▸ kind_of_navigationGroups group hg, hkind ▸ hg, hlocation⟩
    · rintro ⟨entry, hentry, -, hother, hlocation⟩
      have hsame := eq_of_mem_navigationGroups _ hother group hg rfl
      exact ⟨entry, hentry, congrArg Prod.snd hsame, hlocation⟩
  refine ⟨⟨_, _, hgroups, ?_⟩, fun entry hentry hkind => ?_, hlisted,
    fun entry _ _ title pages hgroup hpath => (hlisted title pages hgroup _).1 hpath⟩
  · rw [List.forall₂_map_right_iff, List.forall₂_same]
    exact fun group hg => ⟨rfl, hlists (List.mem_filter.1 hg).1⟩
  · obtain ⟨title, htitle⟩ := exists_title_of_hasPage (hworthy entry hentry) hkind
    have hkinds := hlists htitle
    refine ⟨title, _, htitle, ?_,
      List.count_eq_one_of_mem hkinds.nodup ((hkinds.listed _).2 ⟨entry, hentry, rfl, rfl⟩)⟩
    rw [hgroups, List.tail_cons]
    refine List.mem_map.2 ⟨(title, entry.kind), List.mem_filter.2 ⟨htitle, ?_⟩, rfl⟩
    exact List.any_eq_true.2 ⟨entry, hentry, beq_self_eq_true _⟩

end

/-- Entries of modules make no difference to a manifest. -/
theorem build_without_modules (settings : RenderSettings) (refs : ReferenceMap)
    (name : Option Text) :
    build settings
        { refs with entries := refs.entries.filter fun entry => entry.kind != .moduleScope } name =
      build settings refs name := by
  have hentries {kind : Kind} (h : kind ≠ .moduleScope) :
      ReferenceMap.entriesOf
          { refs with entries := refs.entries.filter fun entry => entry.kind != .moduleScope } kind =
        refs.entriesOf kind := by
    unfold ReferenceMap.entriesOf
    rw [List.filter_filter]
    refine List.filter_congr fun entry _ => ?_
    by_cases hkind : entry.kind = kind
    · simp [hkind, h]
    · simp [hkind]
  have hgroups : ReferenceMap.groups
        { refs with entries := refs.entries.filter fun entry => entry.kind != .moduleScope } =
      refs.groups := by
    unfold ReferenceMap.groups
    refine congrArg _ (List.map_congr_left fun group hg => ?_)
    exact congrArg (Prod.mk group.1) (hentries (kind_of_navigationGroups group hg))
  unfold build
  rw [hgroups]
  rfl

end Manifest

/-! ### Addresses -/

theorem ReferenceMap.urlFor_eq_sitePath {settings : RenderSettings} {refs : ReferenceMap}
    (hbase : refs.basePath = settings.basePath) {location : Text} (hne : location ≠ [])
    (hslash : location.head? ≠ some '/') :
    refs.urlFor location = '/' :: settings.sitePath location := by
  rw [urlFor, addressStart, settings.sitePath_eq hne, hbase, dropWhile_slash_of_head? hslash]
  split
  · rfl
  · simp

/-! ### Files -/

namespace Path

/-- The parts of a path that say something about the way. -/
def segments (x : Text) : List Text := (Text.split '/' x).filter fun part => !isIdle part

/-- A path that does not begin with a slash leads further down. -/
theorem joinText_eq (path : Path) {x : Text} (h : x.head? ≠ some '/') :
    path.joinText x = { path with parts := path.parts ++ segments x } := by
  have hroot : rootOf x = [] := by
    unfold rootOf
    split
    · simp at h
    · simp at h
    · simp at h
    · rfl
  rw [joinText, join, ofText, hroot]
  rfl

theorem segments_append_slash (x y : Text) : segments (x ++ '/' :: y) = segments x ++ segments y := by
  rw [segments, Text.split, Text.splitWhere_append_cons (by simp), List.filter_append]
  rfl

end Path

/-- The file of the page at a location: below the directory, at the path of the page with the
extension. -/
def Settings.pageFile (settings : Settings) (directory : Path) (location : Text) : Path :=
  { directory with
    parts := directory.parts ++
      Path.segments (settings.render.sitePath location ++ settings.output.extension) }

namespace Site

/-- A site writes the pages of entries to the files that their paths say. -/
structure WritesPages (site : Site) (settings : Settings) (entries : List ReferenceEntry) : Prop where
  /-- There is one page for each entry, at its location. -/
  pages : List.Forall₂ (fun entry page => page.location = entry.location) entries site.pages
  /-- The pages are written first, in their order. -/
  written : ∀ directory tree, (site.write settings.output directory tree).fault = none →
    site.pages.map (fun page => settings.pageFile directory page.location) <+:
      (site.write settings.output directory tree).written
  /-- Unless something is written to its place later, the file of a page holds the page. -/
  kept : ∀ directory tree, (site.write settings.output directory tree).fault = none →
    ∀ before page after, site.pages = before ++ page :: after →
      (∀ later ∈ after ++ [site.overview],
        tree.goal (site.fileOf settings.output directory later.location) ≠
          tree.goal (settings.pageFile directory page.location)) →
      tree.goal (manifestFile directory) ≠ tree.goal (settings.pageFile directory page.location) →
      (site.write settings.output directory tree).tree.readBytes
          (settings.pageFile directory page.location) = .ok (Utf8.encode page.toText)

/-- A file is found below the directory at the path of its page with the extension. -/
theorem fileOf_eq {site : Site} {output : OutputSettings} (directory : Path)
    (hbase : site.refs.basePath.head? ≠ some '/') {location : Text}
    (hfile : (location ++ output.extension).head? ≠ some '/') :
    site.fileOf output directory location =
      { directory with
        parts := directory.parts ++
          Path.segments (Manifest.pagePath site.refs location ++ output.extension) } := by
  unfold fileOf pagesRoot Manifest.pagePath
  split
  · rw [Path.joinText_eq _ hfile]
  · rw [Path.joinText_eq _ hfile, Path.joinText_eq _ hbase, List.append_assoc,
      List.append_assoc _ ('/' :: location), List.cons_append, Path.segments_append_slash]

theorem fileOf_eq_pageFile {site : Site} {settings : Settings}
    (hbase : site.refs.basePath = settings.render.basePath)
    (hstripped : settings.render.Stripped) (directory : Path) {location : Text} (hne : location ≠ [])
    (hslash : location.head? ≠ some '/') :
    site.fileOf settings.output directory location = settings.pageFile directory location := by
  have hfile : (location ++ settings.output.extension).head? ≠ some '/' := by
    rwa [List.head?_append_of_ne_nil _ hne]
  have hhead := head?_stripSlashes settings.render.basePath
  rw [hstripped.basePath, ← hbase] at hhead
  rw [fileOf_eq directory hhead hfile, Settings.pageFile, settings.render.sitePath_eq hne, ← hbase,
    Manifest.pagePath]

/-- There is one page for each entry, at its location. -/
theorem forall_location_of_build {plan : Plan} {root : Declaration} {site : Site} {log : Log}
    (h : build plan root = .ok (site, log)) :
    List.Forall₂ (fun entry page => page.location = entry.location)
      (ReferenceMap.ofDeclarations plan.settings root.walk).entries site.pages := by
  have hentries : (ReferenceMap.ofDeclarations plan.settings root.walk).entries =
      (pageWorthy root.walk).map fun placed => plan.settings.entryOf placed.declaration := rfl
  rw [hentries, List.forall₂_map_left_iff, root.walk_eq_preorder]
  exact (followsWalk_of_build h).pages.imp fun placed page hpage => hpage.2.1

section

variable {settings : Settings} (h : settings.Loaded) {layout : Layout} {asked : Option Text}
  {root : Declaration} {site : Site} {log : Log}
  (hbuild : build (.ofSettings settings layout asked) root = .ok (site, log))

include h hbuild

theorem basePath_of_build : site.refs.basePath = settings.render.basePath := by
  rw [refs_of_build hbuild]
  exact h.stripped.basePath

theorem fileOf_of_build (directory : Path) : ∀ page ∈ site.pages,
    site.fileOf settings.output directory page.location =
      settings.pageFile directory page.location := by
  intro page hm
  obtain ⟨entry, hentry, hlocation⟩ :=
    exists_of_mem_forall₂ (forall_location_of_build hbuild) page hm
  rw [hlocation, ReferenceMap.location_of_mem hentry]
  refine fileOf_eq_pageFile (basePath_of_build h hbuild) h.stripped directory ?_
    (h.stripped.locationOf_ne_slash _ _)
  exact RenderSettings.locationOf_ne_nil _ _ _

/-- With loaded settings, the site that is made of a tree writes the pages of its entries. -/
theorem writesPages_of_build :
    site.WritesPages settings (ReferenceMap.ofDeclarations settings.render root.walk).entries := by
  have hfile := fileOf_of_build h hbuild
  refine ⟨forall_location_of_build hbuild, fun directory tree hfault => ?_,
    fun directory tree hfault before page after hsplit hlater hmanifest => ?_⟩
  · rw [written_of_write hfault, documentFiles, List.map_map, List.map_append, List.append_assoc,
      ← List.map_congr_left (hfile directory)]
    exact List.prefix_append _ _
  · have hown := hfile directory page (hsplit ▸ List.mem_append_right _ List.mem_cons_self)
    rw [← hown] at hlater hmanifest ⊢
    have hfiles : site.documentFiles settings.output directory =
        before.map (fun page => (site.fileOf settings.output directory page.location, page.toText)) ++
          (site.fileOf settings.output directory page.location, page.toText) ::
            (after ++ [site.overview]).map fun page =>
              (site.fileOf settings.output directory page.location, page.toText) := by
      rw [documentFiles, hsplit]
      simp
    rw [FileTree.readBytes,
      find_of_write hfault hfiles (List.forall_mem_map.2 fun later hm => hlater later hm) hmanifest]

end

/-- Links, navigation and files name the same pages, whatever settings are loaded.  The navigation lists
the paths of all entries but those of modules: they make no difference to it, and the path of one is
listed only where another entry has it.  The address of an entry is a slash and its path, and each page
is written to the file that its path says. -/
theorem paths_agree {settings : Settings} (h : settings.Loaded) (layout : Layout)
    (asked : Option Text) (root : Declaration) :
    let refs := ReferenceMap.ofDeclarations settings.render root.walk
    (∀ name, (Manifest.build settings.render refs name).ListsPages settings.render refs.entries ∧
        Manifest.build settings.render
            { refs with entries := refs.entries.filter fun entry => entry.kind != .moduleScope } name =
          Manifest.build settings.render refs name) ∧
      (∀ entry ∈ refs.entries,
        refs.urlFor entry.location = '/' :: settings.render.sitePath entry.location) ∧
      (∀ site log, build (.ofSettings settings layout asked) root = .ok (site, log) →
        site.refs = refs ∧ (∃ name, site.manifest = Manifest.build settings.render refs name) ∧
          site.WritesPages settings refs.entries) ∧
      (layout.LaysOut → root.wellNamed = true →
        Succeeds (build (.ofSettings settings layout asked) root)) := by
  intro refs
  have hbase : refs.basePath = settings.render.basePath := h.stripped.basePath
  have hne : ∀ entry ∈ refs.entries, entry.location ≠ [] := by
    intro entry hentry
    rw [ReferenceMap.location_of_mem hentry]
    exact RenderSettings.locationOf_ne_nil _ _ _
  have hworthy : ∀ entry ∈ refs.entries, entry.kind.hasPage = true := by
    intro entry hentry
    obtain ⟨placed, hplaced, rfl⟩ := List.mem_map.1 hentry
    exact (List.mem_filter.1 hplaced).2
  refine ⟨fun name => ⟨Manifest.listsPages_build hbase hne hworthy name,
    Manifest.build_without_modules _ _ name⟩, fun entry hentry => ?_, fun site log hbuild =>
    ⟨refs_of_build hbuild, ⟨_, manifest_of_build hbuild⟩, writesPages_of_build h hbuild⟩,
    fun hlays hnamed => succeeds_build hlays hnamed⟩
  refine ReferenceMap.urlFor_eq_sitePath hbase (hne entry hentry) ?_
  rw [ReferenceMap.location_of_mem hentry]
  exact h.stripped.locationOf_ne_slash _ _

/-- Settings with another base path, in which modules share a folder with classes. -/
def docsValue : Yaml.Value :=
  .map [
    (.str "render", .map [
      (.str "base_path", .str "/docs/"),
      (.str "folders", .map [(.str "Class", .str "types/"), (.str "Module", .str "types")])]),
    (.str "output", .map [(.str "extension", .str "md")])]

/-- What these settings are read as. -/
def docsSettings : Settings where
  root := { root := ['/'] }
  render := { basePath := "docs", folders := [(.moduleScope, "types"), (.classType, "types")] }
  output := { extension := ".md" }

/-- The directory of a site. -/
def siteDirectory : Path := { root := ['/'], parts := ["site"] }

/-- The files of pages of those settings. -/
def typesFile (name : Text) : Path :=
  { root := ['/'], parts := ["site", "docs", "types", name ++ ".md"] }

/-- The locations of the pages of the project under those settings. -/
def typesLocations : List Text := ["types/billing", "types/client", "types/shipping", "types/client"]

theorem map_pageFile_typesLocations :
    typesLocations.map (docsSettings.pageFile siteDirectory) =
      [typesFile "billing", typesFile "client", typesFile "shipping", typesFile "client"] := by
  decide +kernel

/-- The site of those settings can be written where there is nothing yet. -/
theorem exists_typesSite : ∃ site log,
    build (.ofSettings docsSettings Layout.standard none) clientsProject = .ok (site, log) ∧
      (site.write docsSettings.output siteDirectory {}).fault = none ∧
      site.pages.map (·.location) = typesLocations := by
  have hbuilt : ((build (.ofSettings docsSettings Layout.standard none)
      clientsProject).toOption.any fun built =>
        (built.1.write docsSettings.output siteDirectory {}).fault == none &&
          built.1.pages.map (·.location) == typesLocations) = true := by
    decide +kernel
  obtain ⟨⟨site, log⟩, hbuild, hsite⟩ := exists_ok_of_any hbuilt
  obtain ⟨hfault, hlocations⟩ := Bool.and_eq_true_iff.1 hsite
  exact ⟨site, log, hbuild, eq_of_beq hfault, eq_of_beq hlocations⟩

/-- Two classes of one name are listed once and lead to one file, which holds the page of the second
one; modules are not listed. -/
theorem paths_agree_docs :
    Settings.ofValue { root := ['/'] } docsValue = .ok docsSettings ∧
      ∃ site log last,
        build (.ofSettings docsSettings Layout.standard none) clientsProject = .ok (site, log) ∧
        site.manifest.groups = [(("Overview" : Text), [("docs/index" : Text)]),
          (("Classes" : Text), [("docs/types/client" : Text)])] ∧
        (∀ entry ∈ site.refs.entries,
          site.refs.urlFor entry.location = '/' :: docsSettings.render.sitePath entry.location) ∧
        site.WritesPages docsSettings site.refs.entries ∧
        (site.write docsSettings.output siteDirectory {}).fault = none ∧
        [typesFile "billing", typesFile "client", typesFile "shipping", typesFile "client"] <+:
          (site.write docsSettings.output siteDirectory {}).written ∧
        site.pages.getLast? = some last ∧
        (site.write docsSettings.output siteDirectory {}).tree.readBytes (typesFile "client") =
          .ok (Utf8.encode last.toText) := by
  have hsettings : Settings.ofValue { root := ['/'] } docsValue = .ok docsSettings := by
    rfl
  have hloaded : docsSettings.Loaded := .mapping hsettings
  obtain ⟨_, hlinks, hwrites, _⟩ := paths_agree hloaded Layout.standard none clientsProject
  obtain ⟨site, log, hbuild, hfault, hlocations⟩ := exists_typesSite
  obtain ⟨hrefs, ⟨name, hmanifest⟩, hfiles⟩ := hwrites site log hbuild
  have hgroups : site.manifest.groups = [(("Overview" : Text), [("docs/index" : Text)]),
      (("Classes" : Text), [("docs/types/client" : Text)])] := by
    rw [hmanifest, Manifest.groups_build]
    decide +kernel
  have hwritten := hfiles.written siteDirectory {} hfault
  rw [← Function.comp_def (docsSettings.pageFile siteDirectory), ← List.map_map, hlocations,
    map_pageFile_typesLocations] at hwritten
  have hends : site.pages.map (·.location) =
      typesLocations.dropLast ++ [("types/client" : Text)] := hlocations
  obtain ⟨before, lasts, hpages, -, hlasts⟩ := List.map_eq_append_iff.1 hends
  obtain ⟨last, rfl, hlast⟩ := List.map_eq_singleton_iff.1 hlasts
  have hclient : docsSettings.pageFile siteDirectory last.location = typesFile "client" := by
    rw [hlast]
    decide +kernel
  have hoverview : site.fileOf docsSettings.output siteDirectory site.overview.location =
      docsSettings.pageFile siteDirectory "index" := by
    rw [location_overview_of_build hbuild]
    exact fileOf_eq_pageFile (basePath_of_build hloaded hbuild) hloaded.stripped siteDirectory
      (by decide) (by decide)
  have hkept := hfiles.kept siteDirectory {} hfault before last [] hpages
  rw [hclient] at hkept
  refine ⟨hsettings, site, log, last, hbuild, hgroups, hrefs ▸ hlinks, hrefs ▸ hfiles, hfault,
    hwritten, by rw [hpages, List.getLast?_concat], hkept (fun later hm => ?_) (by decide +kernel)⟩
  rw [List.mem_singleton.1 hm, hoverview]
  decide +kernel

/-- A project with a module and a class in it whose names have the same slug. -/
def clientProject : Declaration :=
  { clientsProject with children := [moduleWithClient "client" "Calls the service."] }

/-- The path of a module is listed where its folder is that of classes. -/
theorem module_path_listed :
    Settings.ofValue { root := ['/'] } docsValue = .ok docsSettings ∧
      ∃ site log, build (.ofSettings docsSettings Layout.standard none) clientProject =
          .ok (site, log) ∧
        ∃ entry ∈ site.refs.entries, entry.kind = .moduleScope ∧
          ∃ pages, (("Classes" : Text), pages) ∈ site.manifest.groups ∧
            docsSettings.render.sitePath entry.location ∈ pages := by
  have hsucceeds : Succeeds (build (.ofSettings docsSettings Layout.standard none) clientProject) :=
    succeeds_build laysOut_standard (by decide +kernel)
  obtain ⟨⟨site, log⟩, hbuild⟩ := hsucceeds
  have hlisted : ∃ entry ∈ (ReferenceMap.ofDeclarations docsSettings.render
      clientProject.walk).entries, entry.kind = .moduleScope ∧
        docsSettings.render.sitePath entry.location ∈ [("docs/types/client" : Text)] := by
    decide +kernel
  obtain ⟨entry, hentry, hkind, hpath⟩ := hlisted
  refine ⟨by rfl, site, log, hbuild, entry, refs_of_build hbuild ▸ hentry, hkind, _, ?_, hpath⟩
  rw [manifest_of_build hbuild, Manifest.groups_build]
  decide +kernel

end Site

end ApiReference
