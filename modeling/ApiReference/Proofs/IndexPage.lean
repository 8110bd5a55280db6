import ApiReference.Proofs.SitePaths

/-! # The index page

Pages lead back to the overview by an address, the navigation lists its path, and it is written to a
file.  The file is always at the path, but the address is that of the path only as long as the index page
has a name: it leaves out an index page without one, where the path keeps the slash before it.  Settings
that are loaded have no index page without a name unless they set it to slashes alone
(`Site.index_page_agrees_iff`). -/

namespace ApiReference

/-! ### Paths and addresses -/

/-- The path of the overview below the root of the site. -/
def RenderSettings.indexPath (settings : RenderSettings) : Text :=
  if settings.basePath.isEmpty then settings.indexPage
  else settings.basePath ++ '/' :: settings.indexPage

/-- The file of the overview: below the directory, at its path with the extension. -/
def Settings.indexFile (settings : Settings) (directory : Path) : Path :=
  { directory with
    parts := directory.parts ++
      Path.segments (settings.render.indexPath ++ settings.output.extension) }

namespace RenderSettings

variable {settings : RenderSettings}

theorem sitePath_nil (settings : RenderSettings) : settings.sitePath [] = settings.basePath := by
  unfold sitePath
  cases settings.basePath with
  | nil => rfl
  | cons c rest => simp [Text.joinWith]

theorem Stripped.indexUrl_eq (h : settings.Stripped) :
    settings.indexUrl = '/' :: settings.sitePath settings.indexPage := by
  unfold indexUrl
  rw [h.basePath]
  rfl

/-- With a name, the index page is found at the address of its path. -/
theorem indexPath_eq_sitePath (h : settings.indexPage ≠ []) :
    settings.indexPath = settings.sitePath settings.indexPage :=
  (settings.sitePath_eq h).symm

theorem Stripped.slash_indexPath_eq_indexUrl_iff (h : settings.Stripped) :
    '/' :: settings.indexPath = settings.indexUrl ↔
      settings.basePath = [] ∨ settings.indexPage ≠ [] := by
  rw [h.indexUrl_eq, List.cons_inj_right]
  by_cases hindex : settings.indexPage = []
  · rw [hindex, sitePath_nil, indexPath, hindex]
    cases settings.basePath <;> simp
  · rw [indexPath_eq_sitePath hindex]
    simp [hindex]

/-- Where they differ, the path has one slash more. -/
theorem Stripped.slash_indexPath_eq_or (h : settings.Stripped) :
    '/' :: settings.indexPath = settings.indexUrl ∨
      '/' :: settings.indexPath = settings.indexUrl ++ ['/'] := by
  by_cases hagrees : settings.basePath = [] ∨ settings.indexPage ≠ []
  · exact .inl (h.slash_indexPath_eq_indexUrl_iff.2 hagrees)
  · rw [not_or, not_not] at hagrees
    obtain ⟨hbase, hindex⟩ := hagrees
    refine .inr ?_
    rw [h.indexUrl_eq, indexPath, hindex, sitePath_nil, if_neg (by simpa using hbase)]
    rfl

end RenderSettings

/-! ### Index pages without a name -/

/-- The settings in a value name an index page by slashes alone. -/
def Yaml.Value.SetsSlashes (value : Yaml.Value) : Prop :=
  ∃ given, ((value.field "render").field "index_page").asText? = some given ∧ given ≠ [] ∧
    ∀ c ∈ given, c = '/'

/-- Slashes alone leave the index page without a name; an empty name is passed over. -/
theorem Settings.indexPage_eq_nil_iff {root : Path} {value : Yaml.Value} {settings : Settings}
    (h : ofValue root value = .ok settings) :
    settings.render.indexPage = [] ↔ value.SetsSlashes := by
  rw [RenderSettings.indexPage_ofValue (exists_render_of_ofValue h).1, Yaml.Value.asGivenText?,
    Yaml.Value.SetsSlashes]
  cases ((value.field "render").field "index_page").asText? with
  | none => simp
  | some given =>
      by_cases hgiven : given = []
      · simp [hgiven, Option.filter]
      · simp [hgiven, Option.filter, stripSlashes_eq_nil_iff]

namespace Site

/-! ### The overview of a site -/

section

variable {settings : Settings} (h : settings.Loaded) {layout : Layout} {asked : Option Text}
  {root : Declaration} {site : Site} {log : Log}
  (hbuild : build (.ofSettings settings layout asked) root = .ok (site, log))

include h hbuild

theorem pagePath_indexPage_of_build :
    Manifest.pagePath site.refs settings.render.indexPage = settings.render.indexPath := by
  rw [Manifest.pagePath, basePath_of_build h hbuild, RenderSettings.indexPath]

theorem lookup_overview_of_build :
    site.manifest.groups.lookup ("Overview" : Text) = some [settings.render.indexPath] := by
  rw [manifest_of_build hbuild, Manifest.groups_build, List.lookup_cons_self,
    ← pagePath_indexPage_of_build h hbuild, refs_of_build hbuild]
  rfl

theorem fileOf_overview_of_build (directory : Path) :
    site.fileOf settings.output directory site.overview.location = settings.indexFile directory := by
  have hbase := head?_stripSlashes settings.render.basePath
  rw [h.stripped.basePath, ← basePath_of_build h hbuild] at hbase
  have hfile : (settings.render.indexPage ++ settings.output.extension).head? ≠ some '/' := by
    have hindex := head?_stripSlashes settings.render.indexPage
    rw [h.indexPage] at hindex
    cases e : settings.render.indexPage with
    | nil =>
        rw [List.nil_append, h.extension]
        decide
    | cons c rest =>
        rw [e] at hindex
        exact hindex
  rw [location_overview_of_build hbuild]
  change site.fileOf settings.output directory settings.render.indexPage = _
  rw [fileOf_eq directory hbase hfile, pagePath_indexPage_of_build h hbuild, Settings.indexFile]

/-- After the files of the pages, that of the overview is written. -/
theorem getElem?_written_of_build {directory : Path} {tree : FileTree}
    (hfault : (site.write settings.output directory tree).fault = none) :
    (site.write settings.output directory tree).written[site.pages.length]? =
      some (settings.indexFile directory) := by
  rw [written_of_write hfault, documentFiles, ← fileOf_overview_of_build h hbuild directory]
  simp

end

/-- Whatever settings are loaded, the navigation lists the path of the overview, and the overview is
written to the file that its path says.  Its address is a slash and its path, unless there is a base path
and the settings name the index page by slashes alone: then the path has one slash more at its end. -/
theorem index_page_agrees_iff {settings : Settings} (h : settings.Loaded) (layout : Layout)
    (asked : Option Text) (root : Declaration) :
    let path := settings.render.indexPath
    (settings.render.indexUrl = '/' :: path ↔
        settings.render.basePath = [] ∨ settings.render.indexPage ≠ []) ∧
      (settings.render.indexUrl ≠ '/' :: path → '/' :: path = settings.render.indexUrl ++ ['/']) ∧
      (∀ directory value, Settings.ofValue directory value = .ok settings →
        (settings.render.indexPage = [] ↔ value.SetsSlashes)) ∧
      (∀ site log, build (.ofSettings settings layout asked) root = .ok (site, log) →
        site.manifest.groups.lookup ("Overview" : Text) = some [path] ∧
          ∀ directory tree, (site.write settings.output directory tree).fault = none →
            (site.write settings.output directory tree).written[site.pages.length]? =
              some (settings.indexFile directory)) ∧
      (layout.LaysOut → root.wellNamed = true →
        Succeeds (build (.ofSettings settings layout asked) root)) := by
  intro path
  refine ⟨eq_comm.trans h.stripped.slash_indexPath_eq_indexUrl_iff,
    fun hne => h.stripped.slash_indexPath_eq_or.resolve_left (Ne.symm hne),
    fun directory value hvalue => Settings.indexPage_eq_nil_iff hvalue,
    fun site log hbuild => ⟨lookup_overview_of_build h hbuild,
      fun directory tree hfault => getElem?_written_of_build h hbuild hfault⟩,
    fun hlays hnamed => succeeds_build hlays hnamed⟩

/-- Settings that name the index page by one slash. -/
def slashValue : Yaml.Value :=
  .map [(.str "render", .map [(.str "index_page", .str ['/'])])]

/-- What these settings are read as. -/
def slashSettings : Settings where
  root := { root := ['/'] }
  render := { indexPage := [] }

/-- The address leads to a directory, the path in the navigation has a slash at its end, and the name of
the file is only an extension.  The site can be written where there is nothing yet. -/
theorem index_page_agrees_iff_slash :
    Settings.ofValue { root := ['/'] } slashValue = .ok slashSettings ∧ slashValue.SetsSlashes ∧
      slashSettings.render.indexUrl = "/api" ∧
      slashSettings.render.indexUrl ≠ '/' :: slashSettings.render.indexPath ∧
      ∃ site log,
        build (.ofSettings slashSettings Layout.standard none) clientsProject = .ok (site, log) ∧
        site.manifest.groups.lookup ("Overview" : Text) = some [("api/" : Text)] ∧
        (∀ tree, (site.write slashSettings.output { parts := ["docs"] } tree).fault = none →
          (site.write slashSettings.output { parts := ["docs"] } tree).written[site.pages.length]? =
            some { parts := ["docs", "api", ".mdx"] }) ∧
        (site.write slashSettings.output { parts := ["docs"] } {}).fault = none ∧
        (site.write slashSettings.output { parts := ["docs"] } {}).written[4]? =
          some { parts := ["docs", "api", ".mdx"] } := by
  have hsettings : Settings.ofValue { root := ['/'] } slashValue = .ok slashSettings := by
    rfl
  obtain ⟨hagrees, _, hslashes, hsite, _⟩ :=
    index_page_agrees_iff (.mapping hsettings) Layout.standard none clientsProject
  have hbuilt : ((build (.ofSettings slashSettings Layout.standard none)
      clientsProject).toOption.any fun built =>
        (built.1.write slashSettings.output { parts := ["docs"] } {}).fault == none &&
          built.1.pages.length == 4) = true := by
    decide +kernel
  obtain ⟨⟨site, log⟩, hbuild, hwrite⟩ := exists_ok_of_any hbuilt
  obtain ⟨hfault, hlength⟩ := Bool.and_eq_true_iff.1 hwrite
  obtain ⟨hlookup, hwritten⟩ := hsite site log hbuild
  have hpath : slashSettings.render.indexPath = "api/" := by decide +kernel
  have hfile : slashSettings.indexFile { parts := ["docs"] } =
      { parts := ["docs", "api", ".mdx"] } := by
    decide +kernel
  rw [hpath] at hlookup
  have hall := hwritten { parts := ["docs"] }
  rw [hfile] at hall
  refine ⟨hsettings, (hslashes _ _ hsettings).1 rfl, by decide +kernel, ?_, site, log, hbuild, hlookup,
    hall, eq_of_beq hfault, ?_⟩
  · rw [Ne, hagrees]
    decide +kernel
  · rw [← hall {} (eq_of_beq hfault), eq_of_beq hlength]

end Site

end ApiReference
