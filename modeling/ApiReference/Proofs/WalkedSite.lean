import ApiReference.Proofs.Preorder
import ApiReference.Proofs.References
import ApiReference.Proofs.WellNamed

/-! # Sites follow the walk

The pages of a site, its references and what is warned of are all made in one order: that of the
recursive walk over the tree (`Site.build_followsWalk`).  Of declarations with equal names, each has a
page and an entry, the last one is where the name leads, and each but the first is warned of. -/

namespace ApiReference

/-! ### Warnings in a log -/

/-- The warnings among log entries. -/
def Log.warnings (log : Log) : Log := log.filter fun entry => entry.level == .warning

theorem warnings_append (a b : Log) : Log.warnings (a ++ b) = Log.warnings a ++ Log.warnings b :=
  List.filter_append ..

theorem warnings_eq_nil {log : Log} (h : ∀ entry ∈ log, entry.level ≠ .warning) :
    Log.warnings log = [] :=
  List.filter_eq_nil_iff.2 fun entry hm => by simpa using h entry hm

theorem warnings_duplicateWarnings (seen entries : List ReferenceEntry) :
    Log.warnings (duplicateWarnings seen entries) = duplicateWarnings seen entries := by
  induction entries generalizing seen with
  | nil => rfl
  | cons entry more ih =>
      rw [duplicateWarnings]
      split
      · exact congrArg _ (ih (entry :: seen))
      · exact ih (entry :: seen)

theorem warnings_referenceLog (entries : List ReferenceEntry) :
    Log.warnings (referenceLog entries) = duplicateWarnings [] entries := by
  rw [referenceLog, warnings_append, warnings_duplicateWarnings]
  exact List.append_nil _

theorem warnings_renderLog (decl : Declaration) : Log.warnings (renderLog decl) = [] := by
  unfold renderLog
  split <;> rfl

theorem warnings_linkLog (table : LinkTable) (doc : Document) :
    Log.warnings (doc.linkLog table) = [] := by
  unfold Document.linkLog
  dsimp only
  split <;> rfl

theorem warnings_repairLog (doc : Document) : Log.warnings doc.repairLog = [] :=
  warnings_eq_nil fun entry hm => by
    obtain ⟨note, _, rfl⟩ := List.mem_map.1 hm
    nofun

namespace Site

theorem warnings_stagesLog (table : LinkTable) (decl : Declaration) (stages : PageStages) :
    Log.warnings (stagesLog table decl stages) = [] := by
  unfold stagesLog
  simp only [warnings_append, warnings_renderLog, warnings_linkLog, warnings_repairLog]
  rfl

/-- Making a site warns of equal names and of nothing else. -/
theorem warnings_of_build {plan : Plan} {root : Declaration} {site : Site} {log : Log}
    (h : build plan root = .ok (site, log)) :
    log.warnings = duplicateWarnings [] site.refs.entries := by
  unfold build buildFrom at h
  obtain ⟨stages, _, h⟩ := bind_eq_ok.1 h
  obtain ⟨drafted, _, h⟩ := bind_eq_ok.1 h
  cases h
  have hpages (pairs : List (Placed × PageStages)) (table : LinkTable) :
      Log.warnings (pairs.flatMap fun pair => stagesLog table pair.1.declaration pair.2) = [] := by
    refine warnings_eq_nil fun entry hm hw => ?_
    obtain ⟨pair, _, hm⟩ := List.mem_flatMap.1 hm
    have hentry : entry ∈ Log.warnings (stagesLog table pair.1.declaration pair.2) :=
      List.mem_filter.2 ⟨hm, by simpa using hw⟩
    rw [warnings_stagesLog] at hentry
    cases hentry
  have hinfo (message : Text) : Log.warnings [LogEntry.info "pipeline" message] = [] := rfl
  have hoverview (ctx : PageContext) (details : List PageDetail) :
      Log.warnings (Overview.log ctx details) = [] := rfl
  simp only [warnings_append, warnings_referenceLog, warnings_linkLog, warnings_repairLog, hpages,
    hinfo, hoverview, List.append_nil, List.nil_append]

/-! ### The order of a site -/

/-- A site with what making it had to say follows the recursive walk over the tree it was made
from. -/
structure FollowsWalk (plan : Plan) (root : Declaration) (site : Site) (log : Log) : Prop where
  /-- There is one page for each declaration that gets one, made from that declaration. -/
  pages : List.Forall₂ (fun placed page =>
      page.title = placed.declaration.name ∧
        page.location = plan.settings.locationOf placed.declaration.name placed.declaration.kind ∧
        ∃ rendered, renderPage (contextFor plan root) placed page.location = .ok rendered ∧
          page = (rendered.link site.refs.linkTable).repair maxHeadingLevel)
    (pageWorthy (root.preorder [])) site.pages
  /-- The entries are those of the same declarations. -/
  entries : site.refs.entries =
    (pageWorthy (root.preorder [])).map fun placed => plan.settings.entryOf placed.declaration
  /-- A name leads to the last of these declarations that has it. -/
  leads : ∀ name location, site.refs.location? name = some location ↔
    ∃ before last after, pageWorthy (root.preorder []) = before ++ last :: after ∧
      last.declaration.name = name ∧
      plan.settings.locationOf last.declaration.name last.declaration.kind = location ∧
      ∀ later ∈ after, later.declaration.name ≠ name
  /-- The names are those of these declarations. -/
  known : ∀ name, name ∈ site.refs.names ↔
    ∃ placed ∈ pageWorthy (root.preorder []), placed.declaration.name = name
  /-- Each name stands once, where it was visited first. -/
  ordered : site.refs.names.Pairwise fun a b =>
    ((pageWorthy (root.preorder [])).map (·.declaration.name)).idxOf a <
      ((pageWorthy (root.preorder [])).map (·.declaration.name)).idxOf b
  /-- There is one warning for each declaration whose name was visited before, and it names the last
  one that had it. -/
  warned : ∃ places : List Nat, places.Pairwise (· < ·) ∧
    (∀ place, place ∈ places ↔ ∃ entry, site.refs.entries[place]? = some entry ∧
      ∃ before ∈ site.refs.entries.take place, before.name = entry.name) ∧
    List.Forall₂ (fun place warning => ∃ earlier before entry,
        Repeats site.refs.entries earlier place before entry ∧
          warning = LogEntry.warning "references" (duplicateMessage before entry))
      places log.warnings

theorem entries_of_build {plan : Plan} {root : Declaration} {site : Site} {log : Log}
    (h : build plan root = .ok (site, log)) : site.refs.entries =
      (pageWorthy (root.preorder [])).map fun placed => plan.settings.entryOf placed.declaration := by
  rw [refs_of_build h, ← root.walk_eq_preorder]
  rfl

theorem title_location_of_renderPage {ctx : PageContext} {placed : Placed} {location : Text}
    {doc : Document} (h : renderPage ctx placed location = .ok doc) :
    doc.title = placed.declaration.name ∧ doc.location = location := by
  unfold renderPage at h
  obtain ⟨opening, _, h⟩ := bind_eq_ok.1 h
  obtain ⟨body, _, h⟩ := bind_eq_ok.1 h
  cases h
  exact ⟨rfl, rfl⟩

/-- A split of mapped items comes from a split of the items. -/
theorem map_eq_split_iff {α β : Type} {f : α → β} {items : List α} {before after : List β} {b : β} :
    items.map f = before ++ b :: after ↔ ∃ older a newer, items = older ++ a :: newer ∧
      older.map f = before ∧ f a = b ∧ newer.map f = after := by
  rw [List.map_eq_append_iff]
  constructor
  · rintro ⟨older, rest, rfl, rfl, hrest⟩
    obtain ⟨a, newer, rfl, rfl, rfl⟩ := List.map_eq_cons_iff.1 hrest
    exact ⟨older, a, newer, rfl, rfl, rfl, rfl⟩
  · rintro ⟨older, a, newer, rfl, rfl, rfl, rfl⟩
    exact ⟨older, a :: newer, rfl, rfl, rfl⟩

theorem followsWalk_of_build {plan : Plan} {root : Declaration} {site : Site} {log : Log}
    (h : build plan root = .ok (site, log)) : FollowsWalk plan root site log := by
  have hentries := entries_of_build h
  have hnames : site.refs.entries.map (·.name) =
      (pageWorthy (root.preorder [])).map (·.declaration.name) := by
    rw [hentries, List.map_map]
    rfl
  refine ⟨?_, hentries, fun name location => ?_, fun name => ?_, ?_, ?_⟩
  · rw [← root.walk_eq_preorder]
    refine (forall_page_of_build h).imp fun placed page hpage => ?_
    obtain ⟨rendered, hrendered, rfl⟩ := hpage
    obtain ⟨htitle, hlocation⟩ := title_location_of_renderPage hrendered
    have hplace : ((rendered.link site.refs.linkTable).repair maxHeadingLevel).location =
        rendered.location := rfl
    rw [hplace, hlocation]
    exact ⟨htitle, rfl, rendered, hrendered, rfl⟩
  · rw [ReferenceMap.location?_eq_some_iff, hentries]
    constructor
    · rintro ⟨_, entry, _, hsplit, hname, hlocation, hafter⟩
      obtain ⟨before, last, after, hall, -, rfl, rfl⟩ := map_eq_split_iff.1 hsplit
      exact ⟨before, last, after, hall, hname, hlocation,
        fun later hm => hafter _ (List.mem_map_of_mem hm)⟩
    · rintro ⟨before, last, after, hall, hname, hlocation, hafter⟩
      refine ⟨_, _, _, map_eq_split_iff.2 ⟨before, last, after, hall, rfl, rfl, rfl⟩, hname,
        hlocation, fun later hm => ?_⟩
      obtain ⟨placed, hplaced, rfl⟩ := List.mem_map.1 hm
      exact hafter placed hplaced
  · rw [ReferenceMap.mem_names_iff, hentries]
    simp [RenderSettings.entryOf]
  · rw [← hnames]
    exact site.refs.pairwise_names
  · rw [warnings_of_build h]
    exact exists_places_of_duplicateWarnings _

/-- A class of that name in a module, with a summary. -/
def moduleWithClient (name summary : Text) : Declaration where
  name := name
  kind := .moduleScope
  comment := none
  signatures := []
  children := [
    { name := "Client"
      kind := .classType
      comment := some { summary := summary }
      signatures := []
      children := []
      type := none
      flags := {}
      defaultValue := none }]
  type := none
  flags := {}
  defaultValue := none

/-- A project with two modules that declare classes of one name. -/
def clientsProject : Declaration where
  name := "sdk"
  kind := .project
  comment := none
  signatures := []
  children := [moduleWithClient "billing" "Bills.", moduleWithClient "shipping" "Ships."]
  type := none
  flags := {}
  defaultValue := none

end Site

end ApiReference
