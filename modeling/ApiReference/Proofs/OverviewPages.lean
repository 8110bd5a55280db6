import ApiReference.Proofs.OverviewEntries
import ApiReference.Proofs.WalkedSite

/-! # The overview lists every page

The entries of the overview of a site are those of its pages, each of them once, group by group and in
each group in the order of the walk (`Site.overview_lists_pages`).  Each carries the text of the top
heading of its page; unless its page is about an enum, it ends with the link to the page. -/

namespace ApiReference

/-! ### Groups and last items -/

/-- Items that are taken group by group are all items, each of them once. -/
theorem perm_flatMap_filter {α κ : Type} [DecidableEq κ] (key : α → κ) {keys : List κ}
    (hnodup : keys.Nodup) {items : List α} (h : ∀ a ∈ items, key a ∈ keys) :
    (keys.flatMap fun k => items.filter fun a => key a == k).Perm items := by
  induction keys generalizing items with
  | nil =>
      rw [List.eq_nil_iff_forall_not_mem.2 fun a ha => List.not_mem_nil (h a ha)]
      exact .refl _
  | cons k keys ih =>
      obtain ⟨hk, hkeys⟩ := List.nodup_cons.1 hnodup
      -- what is not of the first group is taken from the others
      have hothers : (keys.flatMap fun other => items.filter fun a => key a == other) =
          keys.flatMap fun other => (items.filter fun a => !(key a == k)).filter
            fun a => key a == other := by
        refine List.flatMap_congr fun other hother => ?_
        rw [List.filter_filter]
        refine List.filter_congr fun a _ => ?_
        by_cases he : key a = other
        · have hne : other ≠ k := fun e => hk (e ▸ hother)
          simp [he, hne]
        · simp [he]
      rw [List.flatMap_cons, hothers]
      refine ((ih hkeys fun a ha => ?_).append_left _).trans (List.filter_append_perm _ items)
      obtain ⟨ha, hne⟩ := List.mem_filter.1 ha
      exact (List.mem_cons.1 (h a ha)).resolve_left (by simpa using hne)

/-- A last item that is kept as it is stays the last. -/
theorem getLast?_filterMap {α β : Type} {f : α → Option β} {items : List α} {a : α} {b : β}
    (h : items.getLast? = some a) (hf : f a = some b) : (items.filterMap f).getLast? = some b := by
  obtain ⟨before, rfl⟩ := List.getLast?_eq_some_iff.1 h
  rw [List.filterMap_append, List.filterMap_cons_some hf]
  exact List.getLast?_concat ..

/-! ### Headings of finished pages -/

/-- Repairing keeps the headings that are not too deep. -/
theorem mem_repairBlocks_iff_of_heading {maxLevel : Int} {blocks : List Block} {block : Block}
    (hk : block.kind = .heading) :
    block ∈ repairBlocks maxLevel blocks ↔ block ∈ blocks ∧ block.level ≤ maxLevel := by
  have hcontent : block.isContent = true := by simp [Block.isContent, Block.opens, Block.closes, hk]
  have hmem : block ∈ repairBlocks maxLevel blocks ↔
      block ∈ (repairBlocks maxLevel blocks).filter Block.isContent := by
    rw [List.mem_filter, and_iff_left hcontent]
  rw [hmem, filter_isContent_repairBlocks, List.mem_filterMap]
  constructor
  · rintro ⟨source, hsource, hclean⟩
    obtain ⟨origin, horigin, rfl⟩ := List.mem_map.1 hsource
    obtain ⟨_, rfl⟩ | ⟨_, hk', _⟩ := cleanBlock?_eq_some hclean
    · have hle := level_demote_le hk
      have hsame : demote maxLevel origin = origin := by
        unfold demote at hk ⊢
        split at hk
        · cases hk
        · next hd => exact if_neg hd
      rw [hsame] at hle ⊢
      exact ⟨(List.mem_filter.1 horigin).1, hle⟩
    · cases hk.symm.trans hk'
  · rintro ⟨hm, hle⟩
    refine ⟨block, List.mem_map.2 ⟨block, List.mem_filter.2 ⟨hm, hcontent⟩, ?_⟩, ?_⟩
    · rw [demote, if_neg]
      simpa [hk] using hle
    · rw [cleanBlock?, if_neg (by simp [hk])]

theorem mem_finish_iff_of_heading {refs : ReferenceMap} {maxLevel : Int} {doc : Document}
    {block : Block} (hk : block.kind = .heading) :
    block ∈ ((doc.link refs.linkTable).repair maxLevel).blocks ↔
      block ∈ doc.blocks ∧ block.level ≤ maxLevel := by
  have hlink {source : Block} (hs : source.kind = .heading) :
      linkBlock refs.linkTable source = source := linkBlock_of_ne (by simp [hs])
  refine (mem_repairBlocks_iff_of_heading hk).trans (and_congr_left fun _ => ?_)
  constructor
  · intro hm
    obtain ⟨source, hsource, rfl⟩ := List.mem_map.1 hm
    rw [kind_linkBlock] at hk
    rwa [hlink hk]
  · exact fun hm => List.mem_map.2 ⟨block, hm, hlink hk⟩

/-- Every page has its name as a heading. -/
theorem heading_mem_renderPage {ctx : PageContext} {placed : Placed} {location : Text}
    {doc : Document} (h : renderPage ctx placed location = .ok doc) :
    Block.heading 2 placed.declaration.name ∈ doc.blocks := by
  unfold renderPage at h
  obtain ⟨opening, hopening, h⟩ := bind_eq_ok.1 h
  obtain ⟨body, hbody, h⟩ := bind_eq_ok.1 h
  cases h
  have hopening := mapError_eq_ok.1 hopening
  unfold openingBlocks at hopening
  obtain ⟨matter, -, hopening⟩ := bind_eq_ok.1 hopening
  cases hopening
  simp

namespace Site

variable {plan : Plan} {root : Declaration} {site : Site} {log : Log}

/-- A finished page has a top heading, with a trimmed title. -/
theorem exists_top_of_rendered {ctx : PageContext} {placed : Placed} {location : Text}
    {rendered : Document} (refs : ReferenceMap) (h : renderPage ctx placed location = .ok rendered) :
    let page := (rendered.link refs.linkTable).repair maxHeadingLevel
    ∃ top after, Overview.cutAtTop? page.blocks = some (top, after) ∧ IsTopHeading page.blocks top ∧
      top.text.strip = top.text := by
  intro page
  have hname : Block.heading 2 placed.declaration.name ∈ page.blocks :=
    (mem_finish_iff_of_heading rfl).2
      ⟨heading_mem_renderPage h, (by decide : (2 : Int) ≤ maxHeadingLevel)⟩
  obtain ⟨top, after, hcut, htop⟩ := Overview.exists_cutAtTop? ⟨_, hname, rfl⟩
  refine ⟨top, after, hcut, htop, ?_⟩
  obtain ⟨before, after, hsplit, hk, -⟩ := htop
  have hm : top ∈ page.blocks := hsplit ▸ List.mem_append_right _ List.mem_cons_self
  obtain ⟨texts, -, hcomposed⟩ := composed_renderPage h
  exact hcomposed.trimmed top ((mem_finish_iff_of_heading hk).1 hm).1 hk

/-! ### Pages in the order of the overview -/

/-- The kinds of pages in the order of their groups. -/
def overviewOrder : List Kind :=
  [.enumeration, .classType, .interfaceType, .typeAlias, .function, .moduleScope]

/-- The pages of a site with their declarations, group by group, and in each group in the order of the
walk. -/
def groupedPages (root : Declaration) (site : Site) : List (Placed × Document) :=
  overviewOrder.flatMap fun kind =>
    ((pageWorthy (root.preorder [])).zip site.pages).filter
      fun visited => visited.1.declaration.kind == kind

/-- What the overview knows of a page. -/
def detailOf (visited : Placed × Document) : PageDetail :=
  ⟨visited.1.declaration.name, visited.1.declaration.kind, visited.2⟩

theorem detailsOf_eq {ctx : PageContext} {declarations : List Placed} {stages : List PageStages}
    (h : allStages ctx declarations = .ok stages) :
    detailsOf stages =
      ((pageWorthy declarations).zip (stages.map (·.repaired))).map detailOf := by
  unfold allStages at h
  rw [mapM_eq_ok_iff] at h
  unfold detailsOf
  generalize pageWorthy declarations = worthy at h ⊢
  induction h with
  | nil => rfl
  | @cons placed page _ _ hpage _ ih =>
      unfold stagesOf at hpage
      obtain ⟨rendered, -, hpage⟩ := bind_eq_ok.1 hpage
      cases hpage
      rw [List.map_cons, List.map_cons, List.zip_cons_cons, List.map_cons, ih]
      rfl

/-- The details of a site, group by group, are those of the pages. -/
theorem grouped_detailsOf {stages : List PageStages}
    (h : allStages (contextFor plan root) root.walk = .ok stages)
    (hpages : site.pages = stages.map (·.repaired)) :
    (overviewGroups.flatMap fun group =>
        (detailsOf stages).filter fun detail => detail.kind == group.2) =
      (groupedPages root site).map detailOf := by
  rw [detailsOf_eq h, ← hpages, root.walk_eq_preorder, groupedPages, List.map_flatMap,
    show overviewOrder = overviewGroups.map (·.2) from rfl, List.flatMap_map]
  refine List.flatMap_congr fun group _ => ?_
  rw [List.filter_map]
  rfl

/-! ### The overview of a site -/

/-- The entry of a page: a heading with the text of the top heading of the page; unless the page is
about an enum, the blocks after the heading end with the link to the page. -/
structure Lists (site : Site) (visited : Placed × Document) (listed : Block × List Block) : Prop where
  title : ∃ top, IsTopHeading visited.2.blocks top ∧ listed.1.text = top.text
  link : visited.1.declaration.kind ≠ .enumeration → listed.2.getLast? =
    some (Block.paragraph
      ("[View full documentation →](" ++ site.refs.urlFor visited.2.location ++ [')']))

/-- The entries of the overview are those of the pages: of every page once, in the order of the
groups. -/
structure ListsEveryPage (plan : Plan) (root : Declaration) (site : Site) : Prop where
  /-- The pages are those of the declarations that get one, in the order of the walk. -/
  pages : List.Forall₂ (fun placed page => ∃ rendered,
      renderPage (contextFor plan root) placed page.location = .ok rendered ∧
        page = (rendered.link site.refs.linkTable).repair maxHeadingLevel)
    (pageWorthy (root.preorder [])) site.pages
  /-- Every page is in one group. -/
  every : ((groupedPages root site).map (·.2)).Perm site.pages
  /-- The entries are those of the pages, group by group. -/
  entries : List.Forall₂ site.Lists (groupedPages root site) (listedEntries site.overview.blocks)

theorem perm_groupedPages (h : FollowsWalk plan root site log) :
    ((groupedPages root site).map (·.2)).Perm site.pages := by
  have hlength := h.pages.length_eq
  have hall : (groupedPages root site).Perm ((pageWorthy (root.preorder [])).zip site.pages) := by
    refine perm_flatMap_filter (fun visited : Placed × Document => visited.1.declaration.kind)
      (by decide) fun visited hm => ?_
    have hworthy := (List.mem_filter.1 (List.of_mem_zip hm).1).2
    revert hworthy
    cases visited.1.declaration.kind <;> decide
  have hsnd : ((pageWorthy (root.preorder [])).zip site.pages).map (·.2) = site.pages :=
    List.map_snd_zip (Nat.le_of_eq hlength.symm)
  exact hsnd ▸ hall.map _

/-- What holds of every declaration with its page holds of those that are grouped. -/
theorem forall_groupedPages {R : Placed → Document → Prop}
    (h : List.Forall₂ R (pageWorthy (root.preorder [])) site.pages) :
    ∀ visited ∈ groupedPages root site, R visited.1 visited.2 := by
  intro visited hm
  obtain ⟨kind, -, hm⟩ := List.mem_flatMap.1 hm
  exact (List.forall₂_iff_zip.1 h).2 (List.mem_filter.1 hm).1

/-- Links of entries are left alone, whatever the declarations are called. -/
theorem finishBlock?_pageLink {settings : RenderSettings} (hplain : settings.PlainPaths)
    (declarations : List Placed) (refs : ReferenceMap) (name : Text) (kind : Kind) :
    let shown := Overview.pageLink (ReferenceMap.ofDeclarations settings declarations)
      (settings.locationOf name kind)
    finishBlock? refs.linkTable shown = some shown := by
  obtain ⟨hspan, hline⟩ := hplain.not_mem_urlFor declarations name kind
  refine finishBlock?_paragraph refs ?_ ?_ ?_ ?_
  · simpa using hspan
  · simpa using hline
  · exact Text.stripEnd_concat (c := ')') rfl
  · rfl

/-- Every entry of a site is that of its page, its blocks linked and cleaned. -/
theorem forall_entry_of_build (h : build plan root = .ok (site, log)) :
    List.Forall₂ (fun visited listed =>
        visited.2.location = plan.settings.locationOf visited.1.declaration.name
          visited.1.declaration.kind ∧
        ∃ (rendered : Document) (drafted : Block × List Block),
          renderPage (contextFor plan root) visited.1 visited.2.location = .ok rendered ∧
          visited.2 = (rendered.link site.refs.linkTable).repair maxHeadingLevel ∧
          Overview.entry site.refs (detailOf visited) = drafted.1 :: drafted.2 ∧
          listed = (drafted.1, drafted.2.filterMap (finishBlock? site.refs.linkTable)))
      (groupedPages root site) (listedEntries site.overview.blocks) := by
  have hvisited := forall_groupedPages (followsWalk_of_build h).pages
  have hrefs := refs_of_build h
  obtain ⟨stages, overview, description, hstages, hdrafted, hpages, hoverview⟩ := build_eq_ok h
  have hentries := Overview.forall_entry_arrange (contextFor plan root).refs (detailsOf stages)
  rw [grouped_detailsOf hstages hpages, List.forall₂_map_left_iff] at hentries
  rw [hoverview, Overview.listedEntries_finish (contextFor plan root).refs hdrafted,
    List.forall₂_map_right_iff]
  refine ((List.forall₂_and_left _ _).2 ⟨hvisited, hentries⟩).imp fun visited drafted hboth => ?_
  obtain ⟨⟨-, hlocation, rendered, hrendered, hpage⟩, hentry⟩ := hboth
  rw [hrefs] at hpage ⊢
  exact ⟨hlocation, rendered, drafted, hrendered, hpage, hentry, rfl⟩

/-- The finished overview of a site lists every page once, group by group. -/
theorem listsEveryPage_of_build (hplain : plan.settings.PlainPaths)
    (h : build plan root = .ok (site, log)) : ListsEveryPage plan root site := by
  have hwalk := followsWalk_of_build h
  refine ⟨hwalk.pages.imp fun _ _ hpage => hpage.2.2, perm_groupedPages hwalk,
    (forall_entry_of_build h).imp fun visited listed hlisted => ?_⟩
  obtain ⟨hlocation, rendered, drafted, hrendered, hpage, hentry, rfl⟩ := hlisted
  have hdraft := Overview.drafts_of_entry_eq hentry
  constructor
  · obtain ⟨top, after, hcut, htop, htrimmed⟩ := exists_top_of_rendered site.refs hrendered
    rw [← hpage] at hcut htop
    exact ⟨top, htop, (hdraft.title top after hcut).trans htrimmed⟩
  · intro hkind
    have hlink := hdraft.link hkind
    rw [show (detailOf visited).page.location = visited.2.location from rfl, hlocation] at hlink
    rw [refs_of_build h] at hlink ⊢
    rw [hlocation]
    exact getLast?_filterMap hlink (finishBlock?_pageLink hplain root.walk _ _ _)

/-- The overview of every site that is made lists its pages, where the paths of the site hold neither
backticks nor line ends; and a site is made of every tree whose types can be shown. -/
theorem overview_lists_pages (plan : Plan) (hplain : plan.settings.PlainPaths) (root : Declaration) :
    (∀ site log, build plan root = .ok (site, log) → ListsEveryPage plan root site) ∧
      (plan.layout.LaysOut → root.wellNamed = true → Succeeds (build plan root)) :=
  ⟨fun _ _ h => listsEveryPage_of_build hplain h, Site.succeeds_build⟩

/-- Two classes of one name come before the modules that they are in, and each is linked. -/
theorem overview_lists_pages_clients :
    RenderSettings.PlainPaths {} ∧ ∃ site log, build {} clientsProject = .ok (site, log) ∧
      ListsEveryPage {} clientsProject site ∧
      (listedEntries site.overview.blocks).map (·.1.text) =
        ["Client", "Client", "billing", "shipping"] := by
  have hplain : RenderSettings.PlainPaths {} := ⟨by decide, by decide⟩
  obtain ⟨hlists, hsucceeds⟩ := overview_lists_pages {} hplain clientsProject
  obtain ⟨⟨site, log⟩, h⟩ := hsucceeds laysOut_standard (by decide +kernel)
  have hshown : ((build {} clientsProject).toOption.any fun built =>
      (listedEntries built.1.overview.blocks).map (·.1.text) ==
        ["Client", "Client", "billing", "shipping"]) = true := by
    decide +kernel
  refine ⟨hplain, site, log, h, hlists site log h, ?_⟩
  rw [h] at hshown
  exact eq_of_beq hshown

end Site

end ApiReference
