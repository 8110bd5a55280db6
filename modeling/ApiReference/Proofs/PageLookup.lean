import ApiReference.Proofs.Bytes
import ApiReference.Proofs.Locations
import ApiReference.Proofs.WalkedSite
import ApiReference.Proofs.WrittenFiles

/-! # Looking pages up and reading their files

Pages that share a location are told apart in three ways: a name leads to the location of the last
declaration that has it, looking the name up gives the first page at that location, and the file of the
location holds the last one.  So the lookup and the file agree with the name exactly if the page of that
declaration is the first page at its location and reads like the last one
(`Site.lookup_agrees_iff`).

Under the settings that hold where nothing is set, different locations have files in different places
(`goal_fileOf`). -/

namespace ApiReference

/-! ### Places of plain paths -/

namespace Path

/-- The part is the name of something in a directory. -/
structure IsPlain (part : Text) : Prop where
  noSlash : '/' ∉ part
  notIdle : isIdle part = false
  notUp : (part == up) = false

/-- A part of more than two characters is no dots. -/
theorem isPlain_of_length {part : Text} (hslash : '/' ∉ part) (hlength : 2 < part.length) :
    IsPlain part where
  noSlash := hslash
  notIdle := by
    match part, hlength with
    | _ :: _ :: _ :: _, _ => simp [isIdle]
  notUp := by
    rw [beq_eq_false_iff_ne]
    rintro rfl
    exact absurd hlength (by decide)

theorem forall_isPlain_singleton {part : Text} (hslash : '/' ∉ part) (hlength : 2 < part.length) :
    ∀ other ∈ [part], IsPlain other := by
  intro other hm
  rw [List.mem_singleton.1 hm]
  exact isPlain_of_length hslash hlength

theorem rootOf_cons {c : Char} (h : c ≠ '/') (x : Text) : rootOf (c :: x) = [] := by
  unfold rootOf
  split
  · next e => exact absurd (List.cons.inj e).1 h
  · next e => exact absurd (List.cons.inj e).1 h
  · next e => exact absurd (List.cons.inj e).1 h
  · rfl

/-- Plain parts between slashes are read as a relative path. -/
theorem ofText_joinWith {parts : List Text} (hne : parts ≠ [])
    (h : ∀ part ∈ parts, IsPlain part) : ofText (Text.joinWith ['/'] parts) = ⟨[], parts⟩ := by
  have hsplit := Text.split_joinWith hne fun part hm => (h part hm).noSlash
  have hroot : rootOf (Text.joinWith ['/'] parts) = [] := by
    match parts, hne with
    | [] :: _, _ => exact absurd (h [] List.mem_cons_self).notIdle (by decide)
    | (c :: first) :: more, _ =>
        have hc : c ≠ '/' := fun e => (h _ List.mem_cons_self).noSlash (e ▸ List.mem_cons_self)
        cases more with
        | nil => exact rootOf_cons hc _
        | cons second more =>
            rw [Text.joinWith_cons_cons]
            exact rootOf_cons hc _
  rw [ofText, hsplit, hroot, List.filter_eq_self.2]
  intro part hm
  simp [(h part hm).notIdle]

end Path

/-- Plain parts are added to a path one by one. -/
theorem Path.joinText_joinWith (path : Path) {parts : List Text} (hne : parts ≠ [])
    (h : ∀ part ∈ parts, IsPlain part) :
    path.joinText (Text.joinWith ['/'] parts) = { path with parts := path.parts ++ parts } := by
  rw [joinText, ofText_joinWith hne h]
  rfl

/-- Plain parts lead further down. -/
theorem FileTree.goal_joinText (tree : FileTree) (path : Path) {parts : List Text} (hne : parts ≠ [])
    (h : ∀ part ∈ parts, Path.IsPlain part) :
    tree.goal (path.joinText (Text.joinWith ['/'] parts)) = tree.goal path ++ parts := by
  have hsteps (place : List Text) : parts.foldl stepTo place = place ++ parts := by
    clear hne
    induction parts generalizing place with
    | nil => rw [List.foldl_nil, List.append_nil]
    | cons part parts ih =>
        have hup : stepTo place part = place ++ [part] := by
          rw [stepTo, (h part List.mem_cons_self).notUp]
          rfl
        rw [List.foldl_cons, hup, ih fun q hq => h q (List.mem_cons_of_mem _ hq), List.append_assoc]
        rfl
  rw [path.joinText_joinWith hne h, goal, List.foldl_append]
  exact hsteps _

/-! ### Files of locations -/

theorem locationOf_default (name : Text) (kind : Kind) :
    RenderSettings.locationOf {} name kind = kind.defaultFolder ++ '/' :: slugOf name := by
  cases kind <;> rfl

theorem isPlain_defaultFolder (kind : Kind) : Path.IsPlain kind.defaultFolder := by
  cases kind <;> exact Path.isPlain_of_length (by decide) (by decide)

/-- A name with the extension of pages is a plain part. -/
theorem isPlain_append_extension {x : Text} (h : '/' ∉ x) : Path.IsPlain (x ++ ".mdx") := by
  refine Path.isPlain_of_length ?_ ?_
  · rw [List.mem_append, not_or]
    exact ⟨h, by decide⟩
  · rw [List.length_append]
    exact Nat.lt_of_lt_of_le (by decide) (Nat.le_add_left _ _)

theorem forall_isPlain_location (kind : Kind) (name : Text) :
    ∀ part ∈ [kind.defaultFolder, slugOf name ++ ".mdx"], Path.IsPlain part := by
  intro part hm
  rcases List.mem_cons.1 hm with rfl | hm
  · exact isPlain_defaultFolder kind
  · rw [List.mem_singleton.1 hm]
    exact isPlain_append_extension (slash_not_mem_slugOf name)

/-- With the extension, a location is two plain parts. -/
theorem location_append_extension (kind : Kind) (name : Text) :
    kind.defaultFolder ++ '/' :: slugOf name ++ ".mdx" =
      Text.joinWith ['/'] [kind.defaultFolder, slugOf name ++ ".mdx"] := by
  rw [Text.joinWith_cons_cons]
  simp [Text.joinWith]

namespace Site

variable {plan : Plan} {root : Declaration} {site : Site} {log : Log}

theorem goal_pagesRoot (hs : plan.settings = {}) (h : build plan root = .ok (site, log))
    (directory : Path) (tree : FileTree) :
    tree.goal (site.pagesRoot directory) = tree.goal directory ++ [("api" : Text)] := by
  have hbase : site.refs.basePath = ("api" : Text) := by
    rw [refs_of_build h]
    change stripSlashes plan.settings.basePath = _
    rw [hs]
    decide
  have hplain := Path.forall_isPlain_singleton (by decide : '/' ∉ ("api" : Text)) (by decide)
  unfold pagesRoot
  rw [hbase]
  exact tree.goal_joinText directory (List.cons_ne_nil _ _) hplain

/-- The file of the page of a declaration. -/
theorem goal_fileOf (hs : plan.settings = {}) (h : build plan root = .ok (site, log))
    (directory : Path) (tree : FileTree) (name : Text) (kind : Kind) :
    tree.goal (site.fileOf {} directory (RenderSettings.locationOf {} name kind)) =
      tree.goal directory ++ [("api" : Text), kind.defaultFolder, slugOf name ++ ".mdx"] := by
  unfold fileOf
  rw [locationOf_default, location_append_extension,
    tree.goal_joinText _ (List.cons_ne_nil _ _) (forall_isPlain_location kind name),
    goal_pagesRoot hs h,
    List.append_assoc]
  rfl

/-- The file of the overview. -/
theorem goal_fileOf_overview (hs : plan.settings = {}) (h : build plan root = .ok (site, log))
    (directory : Path) (tree : FileTree) :
    tree.goal (site.fileOf {} directory site.overview.location) =
      tree.goal directory ++ [("api" : Text), "index.mdx"] := by
  have hplain := Path.forall_isPlain_singleton (by decide : '/' ∉ ("index.mdx" : Text)) (by decide)
  have hlocation : site.overview.location ++ ".mdx" =
      Text.joinWith ['/'] [("index.mdx" : Text)] := by
    rw [location_overview_of_build h, hs]
    rfl
  unfold fileOf
  rw [hlocation, tree.goal_joinText _ (List.cons_ne_nil _ _) hplain, goal_pagesRoot hs h,
    List.append_assoc]
  rfl

theorem goal_manifestFile (directory : Path) (tree : FileTree) :
    tree.goal (manifestFile directory) = tree.goal directory ++ [("mint.json" : Text)] := by
  have hplain := Path.forall_isPlain_singleton (by decide : '/' ∉ ("mint.json" : Text)) (by decide)
  exact tree.goal_joinText directory (List.cons_ne_nil _ _) hplain

/-! ### Pages that share a location -/

/-- The pages at a location, in their order. -/
def pagesAt (site : Site) (location : Text) : List Document :=
  site.pages.filter fun page => page.location == location

/-- The page is that of the last declaration of a name. -/
def IsLastOf (root : Declaration) (site : Site) (name : Text) (page : Document) : Prop :=
  ∃ before placed after, (pageWorthy root.walk).zip site.pages = before ++ (placed, page) :: after ∧
    placed.declaration.name = name ∧ ∀ later ∈ after, later.1.declaration.name ≠ name

/-- Looking a name up gives the first page at its location. -/
theorem pageFor?_eq {name location : Text} (hn : site.refs.location? name = some location) :
    site.pageFor? name = (site.pagesAt location).head? := by
  rw [pageFor?, hn, pagesAt, List.head?_filter]
  rfl

/-- Related lists have a pair wherever the first one has an item. -/
theorem exists_zip_eq {α β : Type} {R : α → β → Prop} {before after : List α} {a : α} {others : List β}
    (h : List.Forall₂ R (before ++ a :: after) others) :
    ∃ b earlier later, (before ++ a :: after).zip others = earlier ++ (a, b) :: later ∧ R a b ∧
      b ∈ others ∧ ∀ pair ∈ later, pair.1 ∈ after := by
  induction before generalizing others with
  | nil =>
      obtain ⟨b, more, hab, _, rfl⟩ := List.forall₂_cons_left_iff.1 h
      exact ⟨b, [], after.zip more, rfl, hab, List.mem_cons_self,
        fun pair hm => (List.of_mem_zip (a := pair.1) (b := pair.2) hm).1⟩
  | cons first before ih =>
      obtain ⟨b', more, _, hmore, rfl⟩ := List.forall₂_cons_left_iff.1 h
      obtain ⟨b, earlier, later, hzip, hab, hb, hlater⟩ := ih hmore
      refine ⟨b, (first, b') :: earlier, later, ?_, hab, List.mem_cons_of_mem _ hb, hlater⟩
      rw [List.cons_append, List.zip_cons_cons, hzip, List.cons_append]

theorem exists_isLastOf (h : build plan root = .ok (site, log)) {name location : Text}
    (hn : site.refs.location? name = some location) :
    ∃ own ∈ site.pagesAt location, IsLastOf root site name own := by
  have hwalk := followsWalk_of_build h
  obtain ⟨before, last, after, hvisited, hname, hlocation, hafter⟩ := (hwalk.leads _ _).1 hn
  have hpages := hwalk.pages
  rw [hvisited] at hpages
  obtain ⟨own, earlier, later, hzip, hown, hm, hlater⟩ := exists_zip_eq hpages
  rw [← hvisited, ← root.walk_eq_preorder] at hzip
  refine ⟨own, List.mem_filter.2 ⟨hm, ?_⟩, earlier, last, later, hzip, hname,
    fun pair hp => hafter _ (hlater pair hp)⟩
  rw [beq_iff_eq, hown.2.1, hlocation]

/-- The last item with a property. -/
theorem exists_split_of_getLast?_filter {α : Type} {p : α → Bool} {items : List α} {last : α}
    (h : (items.filter p).getLast? = some last) :
    ∃ before after, items = before ++ last :: after ∧ p last = true ∧ ∀ a ∈ after, p a = false := by
  rw [← List.head?_reverse, ← List.filter_reverse, List.head?_filter] at h
  obtain ⟨hlast, after, before, hsplit, hafter⟩ := List.find?_eq_some_iff_append.1 h
  refine ⟨before.reverse, after.reverse, ?_, hlast, fun a hm => ?_⟩
  · rw [← List.reverse_reverse items, hsplit]
    simp
  · simpa using hafter a (List.mem_reverse.1 hm)

/-- The file of a location holds the last page at it. -/
theorem readBytes_of_write (hs : plan.settings = {}) (h : build plan root = .ok (site, log))
    {directory : Path} {tree : FileTree} (hw : (site.write {} directory tree).fault = none)
    {location : Text} {last : Document} (hlast : (site.pagesAt location).getLast? = some last) :
    (site.write {} directory tree).tree.readBytes (site.fileOf {} directory location) =
      .ok (Utf8.encode last.toText) := by
  obtain ⟨before, after, hsplit, hat, hafter⟩ := exists_split_of_getLast?_filter hlast
  have hlocation : last.location = location := by simpa using hat
  -- Every page is at the location of some declaration, so its file is where `goal_fileOf` says.
  have hdeclared : ∀ page ∈ site.pages, ∃ name kind,
      page.location = RenderSettings.locationOf {} name kind := by
    have hpages := (followsWalk_of_build h).pages
    intro page hm
    obtain ⟨placed, _, hplaced⟩ := exists_of_mem_forall₂ hpages page hm
    exact ⟨_, _, hs ▸ hplaced.2.1⟩
  obtain ⟨name, kind, hname⟩ := hdeclared last (hsplit ▸ List.mem_append_right _ List.mem_cons_self)
  have hgoal := goal_fileOf hs h directory tree name kind
  rw [← hname, hlocation] at hgoal
  have hfiles : site.documentFiles {} directory =
      before.map (fun page => (site.fileOf {} directory page.location, page.toText)) ++
        (site.fileOf {} directory location, last.toText) ::
          (after ++ [site.overview]).map
            fun page => (site.fileOf {} directory page.location, page.toText) := by
    rw [documentFiles, hsplit, ← hlocation]
    simp
  have hfound := find_of_write hw hfiles ?_ ?_
  · rw [FileTree.readBytes, hfound]
  · intro file hm
    obtain ⟨page, hpage, rfl⟩ := List.mem_map.1 hm
    rcases List.mem_append.1 hpage with hpage | hpage
    · obtain ⟨name', kind', hname'⟩ :=
        hdeclared page (hsplit ▸ List.mem_append_right _ (List.mem_cons_of_mem _ hpage))
      have hother : page.location ≠ location := by simpa using hafter page hpage
      dsimp only
      rw [hname', goal_fileOf hs h, hgoal]
      intro e
      have hparts := List.append_cancel_left e
      simp only [List.cons.injEq, List.append_cancel_right_eq, true_and, and_true] at hparts
      refine hother ?_
      rw [hname', locationOf_default, hparts.1, hparts.2, ← locationOf_default, ← hname, hlocation]
    · rw [List.mem_singleton.1 hpage, goal_fileOf_overview hs h, hgoal]
      intro e
      have hlengths := congrArg List.length e
      simp at hlengths
  · rw [goal_manifestFile, hgoal]
    intro e
    have hlengths := congrArg List.length e
    simp at hlengths

/-- Looking a name up gives the first page at its location, and the file of the location holds the last
one.  So both are the page of the last declaration of the name exactly if that page is the first one
and reads like the last one. -/
theorem lookup_agrees_iff (hs : plan.settings = {}) (h : build plan root = .ok (site, log))
    {name location : Text} (hn : site.refs.location? name = some location) {directory : Path}
    {tree : FileTree} (hw : (site.write {} directory tree).fault = none) :
    ∃ first own last, (site.pagesAt location).head? = some first ∧
      (site.pagesAt location).getLast? = some last ∧ own ∈ site.pagesAt location ∧
      IsLastOf root site name own ∧ site.pageFor? name = some first ∧
      (site.write {} directory tree).tree.readBytes (site.fileOf {} directory location) =
        .ok (Utf8.encode last.toText) ∧
      (site.pageFor? name = some own ∧
          (site.write {} directory tree).tree.readBytes (site.fileOf {} directory location) =
            .ok (Utf8.encode own.toText) ↔
        first = own ∧ last.toText = own.toText) := by
  obtain ⟨own, hown, hlastOf⟩ := exists_isLastOf h hn
  have hne : site.pagesAt location ≠ [] := List.ne_nil_of_mem hown
  have hfirst : (site.pagesAt location).head? = some ((site.pagesAt location).head hne) :=
    List.head?_eq_some_head hne
  have hlast : (site.pagesAt location).getLast? = some ((site.pagesAt location).getLast hne) :=
    List.getLast?_eq_some_getLast hne
  have hlookup := (pageFor?_eq hn).trans hfirst
  have hread := readBytes_of_write hs h hw hlast
  refine ⟨_, own, _, hfirst, hlast, hown, hlastOf, hlookup, hread, ?_⟩
  rw [hlookup, hread]
  constructor
  · rintro ⟨hsame, hbytes⟩
    exact ⟨Option.some.inj hsame, Utf8.encode_injective (Except.ok.inj hbytes)⟩
  · rintro ⟨hsame, htext⟩
    exact ⟨congrArg some hsame, congrArg (fun x => Except.ok (Utf8.encode x)) htext⟩

/-- The page of the last declaration is the last one of all pages, if that declaration has the
name. -/
theorem IsLastOf.getLast?_eq {name : Text} {own page : Document} {placed : Placed}
    (h : IsLastOf root site name own)
    (hlast : ((pageWorthy root.walk).zip site.pages).getLast? = some (placed, page))
    (hname : placed.declaration.name = name) : own = page := by
  obtain ⟨before, placed', after, hzip, _, hafter⟩ := h
  rw [hzip, List.getLast?_append_cons] at hlast
  cases after with
  | nil => exact congrArg Prod.snd (Option.some.inj hlast)
  | cons next more =>
      have hm : (placed, page) ∈ next :: more := by
        rw [List.getLast?_cons_cons] at hlast
        exact List.mem_of_getLast? hlast
      exact absurd hname (hafter _ hm)

/-- The location of both classes of one name. -/
def clientLocation : Text := "classes/client"

/-- A directory at the root of a tree of files. -/
def docsDirectory : Path := { root := ['/'], parts := ["docs"] }

/-- Two classes of one name: the name leads to the second one, whose page is in the file, but looking
it up gives the page of the first one. -/
theorem lookup_agrees_iff_clients :
    ∃ site log own, build {} clientsProject = .ok (site, log) ∧
      site.refs.location? "Client" = some clientLocation ∧
      (site.write {} docsDirectory {}).fault = none ∧ IsLastOf clientsProject site "Client" own ∧
      site.pageFor? "Client" ≠ some own ∧
      (site.write {} docsDirectory {}).tree.readBytes
          (site.fileOf {} docsDirectory clientLocation) = .ok (Utf8.encode own.toText) := by
  have hsite : ((build {} clientsProject).toOption.any fun built =>
      let pages := built.1.pagesAt clientLocation
      let visited := (pageWorthy clientsProject.walk).zip built.1.pages
      built.1.refs.location? "Client" == some clientLocation &&
        (built.1.write {} docsDirectory {}).fault == none && pages.head? != pages.getLast? &&
        visited.getLast?.map (fun pair => pair.1.declaration.name) == some ("Client" : Text) &&
        visited.getLast?.map (·.2) == pages.getLast?) = true := by
    decide +kernel
  obtain ⟨⟨site, log⟩, h, hsite⟩ := exists_ok_of_any hsite
  simp only [Bool.and_eq_true, beq_iff_eq, bne_iff_ne, ne_eq] at hsite
  obtain ⟨⟨⟨⟨hn, hw⟩, hdiffer⟩, hname⟩, hlastPage⟩ := hsite
  obtain ⟨first, own, last, hfirst, hlast, -, hown, hlookup, hread, -⟩ :=
    lookup_agrees_iff rfl h hn hw
  obtain ⟨⟨placed, page⟩, hpair, hclient⟩ := Option.map_eq_some_iff.1 hname
  have hpage : page = last := by
    rw [hpair, hlast] at hlastPage
    exact Option.some.inj hlastPage
  have hsame : own = last := (hown.getLast?_eq hpair hclient).trans hpage
  refine ⟨site, log, own, h, hn, hw, hown, ?_, hsame ▸ hread⟩
  rw [hlookup, hsame]
  intro e
  exact hdiffer (hfirst.trans (e.trans hlast.symm))

end Site

end ApiReference
