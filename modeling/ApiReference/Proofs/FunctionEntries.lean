import ApiReference.Proofs.DescribedSignatures
import ApiReference.Proofs.OverviewPages

/-! # Entries of functions without comments

The page of a function without comments is cut at its title, and its frontmatter tells the sentence
about the function (`exists_cut_of_renderPage`, `frontmatterValue?_of_renderPage`).  So the entry
of the function is described by that sentence if and only if every call line that the overview
meets was left a literal span (`Site.describes_functions`).  A call line loses its backticks where
its form holds the name of a page in angle brackets; then that line describes the entry. -/

namespace ApiReference

/-! ### Pages -/

/-- The blocks of the page of a function without comments. -/
theorem exists_blocks_of_renderPage {ctx : PageContext} {placed : Placed} {location : Text}
    {rendered : Document} (h : renderPage ctx placed location = .ok rendered)
    (huncommented : placed.declaration.Uncommented) :
    ∃ matter shown, ctx.layout.frontmatter (Markup.attributeValue placed.declaration.name)
        (Markup.attributeValue placed.declaration.describe).strip = .ok matter ∧
      List.Forall₂ (fun signature blocks =>
          signatureBlocks ctx.refs {} placed.declaration.name signature = .ok blocks)
        placed.declaration.signatures shown ∧
      rendered.blocks = { kind := .frontmatter, text := matter } :: backLink ctx placed.lineage ::
        Block.heading 2 placed.declaration.name :: shown.flatten := by
  have hsummary := huncommented.pageSummary_eq_nil
  unfold renderPage at h
  obtain ⟨opening, hopening, h⟩ := bind_eq_ok.1 h
  obtain ⟨body, hbody, h⟩ := bind_eq_ok.1 h
  cases h
  have hopening := mapError_eq_ok.1 hopening
  unfold openingBlocks Fragment.frontmatter at hopening
  obtain ⟨first, hfirst, hopening⟩ := bind_eq_ok.1 hopening
  obtain ⟨matter, hmatter, hfirst⟩ := bind_eq_ok.1 hfirst
  cases hfirst
  rw [hsummary, huncommented.comment] at hopening
  cases hopening
  unfold kindBlocks at hbody
  rw [huncommented.kind] at hbody
  have hbody := mapError_eq_ok.1 hbody
  unfold functionBlocks at hbody
  rw [hsummary] at hbody
  obtain ⟨shown, hshown, hbody⟩ := bind_eq_ok.1 hbody
  cases hbody
  exact ⟨matter, shown, hmatter, mapM_eq_ok_iff.1 hshown, rfl⟩

theorem nested_flatten {blockss : List (List Block)} (h : ∀ blocks ∈ blockss, Nested blocks) :
    Nested blockss.flatten := by
  induction blockss with
  | nil => rfl
  | cons blocks blockss ih =>
      rw [List.forall_mem_cons] at h
      unfold Nested at h ih ⊢
      rw [List.flatten_cons, openedAfter?_append, h.1, Option.bind_some]
      exact ih h.2

section

variable {ctx : PageContext} {placed : Placed} {location : Text} {rendered : Document}
  (h : renderPage ctx placed location = .ok rendered)
  (huncommented : placed.declaration.Uncommented)
  (hplain : placed.declaration.ReadsPlainly ctx.refs)

include h huncommented hplain

theorem nested_renderPage : Nested rendered.blocks := by
  obtain ⟨matter, shown, -, hshown, hblocks⟩ := exists_blocks_of_renderPage h huncommented
  have hnested : ∀ blocks ∈ shown, Nested blocks := by
    intro blocks hm
    obtain ⟨signature, hsignature, hblocks⟩ := exists_of_mem_forall₂ hshown blocks hm
    obtain ⟨texts, htexts, hcomposed⟩ := composed_signatureBlocks hblocks
    have horderly := (hplain.signatures signature hsignature).texts texts htexts
    exact (hcomposed.assembled.read (fun x hx => (horderly x hx).nested)
      (.inr (List.forall_mem_nil _))).1
  rw [hblocks]
  exact nested_flatten hnested

/-- No heading of the page is above its title. -/
theorem le_level_of_renderPage {block : Block} (hm : block ∈ rendered.blocks)
    (hh : block.isHeading = true) : 2 ≤ block.level := by
  obtain ⟨matter, shown, -, hshown, hblocks⟩ := exists_blocks_of_renderPage h huncommented
  rw [hblocks, List.mem_cons, List.mem_cons, List.mem_cons] at hm
  rcases hm with rfl | rfl | rfl | hm
  · cases hh
  · cases hh
  · exact Int.le_refl _
  · obtain ⟨blocks, hblocks, hm⟩ := List.mem_flatten.1 hm
    obtain ⟨signature, hsignature, hblocks⟩ := exists_of_mem_forall₂ hshown blocks hblocks
    obtain ⟨form, texts, fields, -, htexts, hfields, rfl⟩ :=
      exists_of_signatureBlocks (huncommented.signatures signature hsignature) hblocks
    rcases List.mem_cons.1 hm with rfl | hm
    · cases hh
    · obtain ⟨x, hx, hm⟩ := (hfields.headings block hh).1 hm
      exact ((hplain.signatures signature hsignature).texts texts htexts x hx).below block hm hh

/-- The finished page is cut at its title, and what comes after it is read like the settled blocks
of the signatures. -/
theorem exists_cut_of_renderPage :
    let page := (rendered.link ctx.refs.linkTable).repair maxHeadingLevel
    ∃ shown after, List.Forall₂ (fun signature blocks =>
          signatureBlocks ctx.refs {} placed.declaration.name signature = .ok blocks)
        placed.declaration.signatures shown ∧
      Overview.cutAtTop? page.blocks = some (Block.heading 2 placed.declaration.name, after) ∧
      Overview.described 0 after =
        Overview.described 0 (shown.flatten.filterMap (settleBlock? ctx.refs)) := by
  intro page
  obtain ⟨matter, shown, -, hshown, hblocks⟩ := exists_blocks_of_renderPage h huncommented
  have htitle : rendered.blocks =
      [{ kind := .frontmatter, text := matter }, backLink ctx placed.lineage] ++
        Block.heading 2 placed.declaration.name :: shown.flatten := hblocks
  have hpage := blocks_finish_of_nested_of_heading ctx.refs
    (nested_renderPage h huncommented hplain) htitle rfl (by decide : (2 : Int) ≤ maxHeadingLevel)
  refine ⟨shown, _, hshown, ?_, Overview.described_foldl_addCleaned 0 [] _⟩
  rw [hpage]
  refine Overview.cutAtTop?_append (fun block hm => ?_) rfl fun block hm hh => ?_
  · rw [Bool.eq_false_iff]
    intro hh
    have hsettled := (mem_foldl_addCleaned (List.mem_reverse.1 hm)).resolve_left List.not_mem_nil
    have hfirst := ((mem_filterMap_settleBlock?_iff hh).1 hsettled).1
    rcases List.mem_cons.1 hfirst with rfl | hlast
    · cases hh
    · rw [List.mem_singleton.1 hlast] at hh
      cases hh
  · have hm' : block ∈ page.blocks := hpage ▸ List.mem_append_right _ (List.mem_cons_of_mem _ hm)
    exact le_level_of_renderPage h huncommented hplain
      ((mem_finish_iff_of_heading (beq_iff_eq.1 hh)).1 hm').1 hh

/-- The frontmatter of the finished page tells the sentence about the function. -/
theorem frontmatterValue?_of_renderPage (hlayout : ctx.layout.TellsDescription) :
    ((rendered.link ctx.refs.linkTable).repair maxHeadingLevel).frontmatterValue? "description" =
      some placed.declaration.describe := by
  obtain ⟨matter, shown, hmatter, -, hblocks⟩ := exists_blocks_of_renderPage h huncommented
  have hsentence := Declaration.saysCall_describe huncommented.kind huncommented.pageSummary_eq_nil
    hplain.name
  rw [hsentence.attributeValue_eq_self, hsentence.strip_eq_self] at hmatter
  have hvalue : valueFrom? "description" true matter = some placed.declaration.describe := by
    have hsigns : ∀ c ∈ (['\x22', '\x5c', '\n'] : Text),
        c ∈ (['\x60', '\x22', '\x5c', '\n', '\r'] : Text) := by
      simp
    exact hlayout.tells _ _ matter (isOneLine_attributeValue _).1
      (fun c hc => hsentence.plain c (hsigns c hc)) hmatter
  have hkind : ({ kind := .frontmatter, text := matter } : Block).kind = .frontmatter := rfl
  obtain ⟨more, hmore⟩ := exists_repairBlocks_cons hkind maxHeadingLevel
    ((backLink ctx placed.lineage :: Block.heading 2 placed.declaration.name ::
      shown.flatten).map (linkBlock ctx.refs.linkTable))
  have hlinked : (rendered.link ctx.refs.linkTable).blocks =
      { kind := .frontmatter, text := matter } :: (backLink ctx placed.lineage ::
        Block.heading 2 placed.declaration.name :: shown.flatten).map
          (linkBlock ctx.refs.linkTable) := by
    rw [Document.link, hblocks, List.map_cons, linkBlock_of_ne fun hk => by cases hk]
  rw [Document.frontmatterValue?, Document.repair, hlinked, hmore, List.findSome?_cons, hvalue]
  rfl

/-- The entry of the page is described by the sentence in its frontmatter if the call lines that the
overview meets were left literal spans, and by a call line otherwise. -/
theorem head?_entry (hlayout : ctx.layout.TellsDescription)
    (hhref : ∀ target href, ctx.refs.href? target = some href → '\x60' ∉ href ∧ '\n' ∉ href)
    {listed : Block × List Block}
    (hentry : Overview.entry ctx.refs (Site.detailOf
      (placed, (rendered.link ctx.refs.linkTable).repair maxHeadingLevel)) = listed.1 :: listed.2) :
    KeepsCallLines ctx.refs placed.declaration.name placed.declaration.signatures ∧
        (listed.2.filterMap (finishBlock? ctx.refs.linkTable)).head? =
          some (Block.paragraph placed.declaration.describe) ∨
      ¬ KeepsCallLines ctx.refs placed.declaration.name placed.declaration.signatures ∧
        ∃ y, ShowsCall placed.declaration.name y ∧ y ≠ placed.declaration.describe ∧
          (listed.2.filterMap (finishBlock? ctx.refs.linkTable)).head? =
            some (Block.paragraph y) := by
  obtain ⟨shown, after, hshown, hcut, hdescribed⟩ := exists_cut_of_renderPage h huncommented hplain
  have hsentence := Declaration.saysCall_describe huncommented.kind huncommented.pageSummary_eq_nil
    hplain.name
  have hvalue := frontmatterValue?_of_renderPage h huncommented hplain hlayout
  -- the entry begins with its description, which is left alone
  have hhead {x : Text} (hx : (Overview.described 0 after).getD placed.declaration.describe = x)
      (hvisible : x.isAllBlank = false)
      (hkept : finishBlock? ctx.refs.linkTable (Block.paragraph x) = some (Block.paragraph x)) :
      (listed.2.filterMap (finishBlock? ctx.refs.linkTable)).head? = some (Block.paragraph x) := by
    have hfilled : x.isEmpty = false := by
      rw [List.isEmpty_eq_false_iff]
      rintro rfl
      cases hvisible
    have hx' : (Overview.firstDescription 0 (Overview.untilHeading after)).getD
        placed.declaration.describe = x := hx
    rw [Overview.entry, List.cons_append, List.cons.injEq] at hentry
    rw [← hentry.2]
    simp only [Site.detailOf, hcut, hvalue, Option.getD_some, hx', Fragment.plainText, hfilled]
    rw [if_neg Bool.false_ne_true, List.singleton_append, List.filterMap_cons_some hkept]
    rfl
  rcases described_signatures hplain.name hhref hshown huncommented.signatures hplain.signatures
    with ⟨hkeeps, hnone⟩ | ⟨hnot, y, hshows, htrimmed, hfound⟩
  · refine .inl ⟨hkeeps, hhead ?_ hsentence.isAllBlank_eq_false ?_⟩
    · rw [hdescribed, hnone]
      rfl
    · exact finishBlock?_paragraph ctx.refs (hsentence.plain _ (by decide))
        (hsentence.plain _ (by decide)) hsentence.stripEnd_eq_self hsentence.isAllBlank_eq_false
  · refine .inr ⟨hnot, y, hshows, hshows.ne_of_saysCall hplain.name hsentence,
      hhead ?_ (hshows.isAllBlank_eq_false hplain.name) (hshows.finishBlock? hplain.name htrimmed)⟩
    rw [hdescribed, hfound]
    rfl

end

/-! ### Sites -/

namespace Site

variable {plan : Plan} {root : Declaration} {site : Site} {log : Log}

/-- How the overview describes a function: the frontmatter of its page tells a sentence on its call,
and that sentence describes the entry if the call lines that the overview meets on the page stay
literal spans.  Otherwise a call line that was linked describes it. -/
structure DescribesFunction (refs : ReferenceMap) (visited : Placed × Document)
    (listed : Block × List Block) : Prop where
  told : visited.2.frontmatterValue? "description" = some visited.1.declaration.describe
  starts : ("Call " ++ visited.1.declaration.name ++ " to" : Text) <+:
    visited.1.declaration.describe
  described_iff : listed.2.head? = some (Block.paragraph visited.1.declaration.describe) ↔
    KeepsCallLines refs visited.1.declaration.name visited.1.declaration.signatures
  linked : ¬ KeepsCallLines refs visited.1.declaration.name visited.1.declaration.signatures →
    ∃ y, ShowsCall visited.1.declaration.name y ∧ listed.2.head? = some (Block.paragraph y)

theorem forall_described_of_build (hpaths : plan.settings.PlainPaths)
    (hlayout : plan.layout.TellsDescription) (h : build plan root = .ok (site, log)) :
    List.Forall₂ (fun visited listed =>
        visited.1.declaration.Uncommented → visited.1.declaration.ReadsPlainly site.refs →
        DescribesFunction site.refs visited listed)
      (groupedPages root site) (listedEntries site.overview.blocks) := by
  refine (forall_entry_of_build h).imp fun visited listed hlisted huncommented hplain => ?_
  obtain ⟨-, rendered, drafted, hrendered, hpage, hentry, rfl⟩ := hlisted
  rw [refs_of_build h] at hplain hpage hentry ⊢
  obtain ⟨placed, page⟩ := visited
  dsimp only at hpage
  subst hpage
  have hhead := head?_entry hrendered huncommented hplain hlayout
    (fun _ _ hfound => hpaths.not_mem_href? hfound) hentry
  refine ⟨frontmatterValue?_of_renderPage hrendered huncommented hplain hlayout,
    Declaration.isPrefix_describe huncommented.kind huncommented.pageSummary_eq_nil hplain.name,
    ?_, fun hnot => ?_⟩
  · rcases hhead with ⟨hkeeps, hhead⟩ | ⟨hnot, y, -, hne, hhead⟩
    · exact iff_of_true hhead hkeeps
    · rw [hhead]
      exact iff_of_false (fun hsame => hne (congrArg Block.text (Option.some.inj hsame))) hnot
  · obtain ⟨-, y, hshows, -, hhead⟩ := hhead.resolve_left fun hkeeps => hnot hkeeps.1
    exact ⟨y, hshows, hhead⟩

/-- In the overview of every site that is made, a function without comments whose page reads
plainly is described by the sentence in its frontmatter if and only if the call lines that the
overview meets on its page stay literal spans.  A site is made of every tree whose types can be
shown. -/
theorem describes_functions (plan : Plan) (hpaths : plan.settings.PlainPaths)
    (hlayout : plan.layout.TellsDescription) (root : Declaration) :
    (∀ site log, build plan root = .ok (site, log) →
      List.Forall₂ (fun visited listed =>
          visited.1.declaration.Uncommented → visited.1.declaration.ReadsPlainly site.refs →
          DescribesFunction site.refs visited listed)
        (groupedPages root site) (listedEntries site.overview.blocks)) ∧
      (plan.layout.LaysOut → root.wellNamed = true → Succeeds (build plan root)) :=
  ⟨fun _ _ h => forall_described_of_build hpaths hlayout h, Site.succeeds_build⟩

/-- A function without parameters and comments. -/
def plainFunction (name : Text) (type : TypeExpr) : Declaration where
  name := name
  kind := .function
  comment := none
  signatures := [{ name := name, parameters := [], type := some type, comment := none }]
  children := []
  type := none
  flags := {}
  defaultValue := none

/-- A function that promises a user. -/
def loadFunction : Declaration :=
  plainFunction "load" (.reference "Promise" [.reference "User" []])

/-- A function that promises a text. -/
def pingFunction : Declaration :=
  plainFunction "ping" (.reference "Promise" [.intrinsic "string"])

/-- A project with both functions, in which users have a page. -/
def loadProject : Declaration where
  name := "sdk"
  kind := .project
  comment := none
  signatures := []
  children := [userInterface, loadFunction, pingFunction]
  type := none
  flags := {}
  defaultValue := none

/-- The function that promises a text is described by the sentence about it, and the one that
promises a user is not: its call form holds `<User>`. -/
theorem describes_functions_load :
    RenderSettings.PlainPaths {} ∧ Layout.standard.TellsDescription ∧
      ∃ site log, build {} loadProject = .ok (site, log) ∧
        loadFunction.Uncommented ∧ loadFunction.ReadsPlainly site.refs ∧
        pingFunction.Uncommented ∧ pingFunction.ReadsPlainly site.refs ∧
        ∃ user load ping, listedEntries site.overview.blocks = [user, load, ping] ∧
          load.2.head? ≠ some (Block.paragraph loadFunction.describe) ∧
          ping.2.head? = some (Block.paragraph pingFunction.describe) := by
  have hpaths : RenderSettings.PlainPaths {} := ⟨by decide, by decide⟩
  have hlayout := tellsDescription_standard
  obtain ⟨hdescribes, hsucceeds⟩ := describes_functions {} hpaths hlayout loadProject
  obtain ⟨⟨site, log⟩, h⟩ := hsucceeds laysOut_standard (by decide +kernel)
  have hentries := hdescribes site log h
  have hrefs := refs_of_build h
  have hload : loadFunction.ReadsPlainly site.refs := by
    rw [hrefs]
    decide +kernel
  have hping : pingFunction.ReadsPlainly site.refs := by
    rw [hrefs]
    decide +kernel
  have hlinked : ¬ KeepsCallLines site.refs loadFunction.name loadFunction.signatures := by
    rw [hrefs]
    decide +kernel
  have hkept : KeepsCallLines site.refs pingFunction.name pingFunction.signatures := by
    rw [hrefs]
    decide +kernel
  have hlength : site.pages.length = 3 := (followsWalk_of_build h).pages.length_eq.symm
  obtain ⟨first, second, third, hpages⟩ := List.length_eq_three.1 hlength
  have hgrouped : groupedPages loadProject site =
      [(⟨userInterface, [loadProject.asAncestor]⟩, first),
        (⟨loadFunction, [loadProject.asAncestor]⟩, second),
        (⟨pingFunction, [loadProject.asAncestor]⟩, third)] := by
    unfold groupedPages
    rw [hpages]
    rfl
  generalize hlisted : listedEntries site.overview.blocks = listed at hentries
  rw [hgrouped] at hentries
  obtain _ | ⟨-, _ | ⟨hloadEntry, _ | ⟨hpingEntry, _ | _⟩⟩⟩ := hentries
  have hloadPlain : loadFunction.Uncommented := by decide
  have hpingPlain : pingFunction.Uncommented := by decide
  exact ⟨hpaths, hlayout, site, log, h, hloadPlain, hload, hpingPlain, hping, _, _, _,
    hlisted, fun hsame => hlinked ((hloadEntry hloadPlain hload).described_iff.1 hsame),
    (hpingEntry hpingPlain hping).described_iff.2 hkept⟩

end Site

end ApiReference
