import ApiReference.Proofs.LinkTwice
import ApiReference.Proofs.PageTags
import ApiReference.Proofs.RepairTwice

/-! # Entries of the overview

An entry is a heading of level three with the blocks up to the next heading or container tag
(`listedEntries`), and every such heading has one (`map_fst_listedEntries`).  However the overview is
arranged, its entries are those of the pages, group by group (`Overview.forall_entry_arrange`).
Linking and repairing the overview keeps its entries, since all its containers are nested and none of
them is a field (`Overview.listedEntries_finish`). -/

namespace ApiReference

/-! ### Reading entries -/

/-- The block is the heading of an entry. -/
def Block.headsEntry (block : Block) : Bool := block.kind == .heading && block.level == 3

/-- The blocks up to the next heading or container tag. -/
def untilMark (blocks : List Block) : List Block := blocks.takeWhile fun block => !block.isMark

/-- The headings of level three among blocks, each with the blocks up to the next heading or container
tag. -/
def listedEntries : List Block → List (Block × List Block)
  | [] => []
  | block :: more =>
    if block.headsEntry then (block, untilMark more) :: listedEntries more
    else listedEntries more

/-- Every heading of level three heads an entry. -/
theorem map_fst_listedEntries (blocks : List Block) :
    (listedEntries blocks).map (·.1) = blocks.filter Block.headsEntry := by
  induction blocks with
  | nil => rfl
  | cons block blocks ih =>
      rw [listedEntries, List.filter_cons]
      split
      · rw [List.map_cons, ih]
      · exact ih

/-- The first block, if there is one, is a heading or a container tag. -/
def BeginsWithMark (blocks : List Block) : Prop := ∀ block ∈ blocks.head?, block.isMark = true

theorem untilMark_append {a b : List Block} (hb : BeginsWithMark b) :
    untilMark (a ++ b) = untilMark a := by
  induction a with
  | nil =>
      cases b with
      | nil => rfl
      | cons block b =>
          have hmark : block.isMark = true := hb block rfl
          simp [untilMark, hmark]
  | cons block a ih =>
      unfold untilMark at ih ⊢
      rw [List.cons_append, List.takeWhile_cons, List.takeWhile_cons, ih]

/-- Entries end where other marks begin. -/
theorem listedEntries_append {a b : List Block} (hb : BeginsWithMark b) :
    listedEntries (a ++ b) = listedEntries a ++ listedEntries b := by
  induction a with
  | nil => rfl
  | cons block a ih =>
      rw [List.cons_append, listedEntries, listedEntries, untilMark_append hb, ih]
      split <;> rfl

theorem isMark_of_headsEntry {block : Block} (h : block.headsEntry = true) : block.isMark = true := by
  rw [Block.headsEntry, Bool.and_eq_true] at h
  rw [Block.isMark, h.1, Bool.true_or]

/-- Running text is no mark. -/
theorem isMark_of_text {block : Block} (h : block.kind = .text) : block.isMark = false := by
  simp [Block.isMark, Block.isContainer, h]

theorem listedEntries_of_texts {blocks : List Block} (h : ∀ block ∈ blocks, block.kind = .text) :
    listedEntries blocks = [] := by
  rw [← List.map_eq_nil_iff, map_fst_listedEntries, List.filter_eq_nil_iff]
  intro block hm
  simp [Block.headsEntry, h block hm]

theorem untilMark_of_texts {blocks : List Block} (h : ∀ block ∈ blocks, block.kind = .text) :
    untilMark blocks = blocks := by
  rw [untilMark, List.takeWhile_eq_self_iff]
  intro block hm
  rw [isMark_of_text (h block hm)]
  rfl

/-- A container around blocks leaves their entries alone. -/
theorem listedEntries_wrap (name : Text) (content : List Block) (attributes : Text) :
    listedEntries (Fragment.wrap name content attributes) = listedEntries content := by
  have hclose : BeginsWithMark [Block.closeTag name] := by
    intro block hm
    rw [← Option.some.inj hm]
    rfl
  rw [Fragment.wrap, List.cons_append]
  exact (listedEntries_append hclose).trans (List.append_nil _)

/-! ### Changes that keep entries -/

/-- Headings and container tags are kept as they are, and no others are made. -/
structure KeepsMarks (f : Block → Option Block) : Prop where
  marks : ∀ block, block.isMark = true → f block = some block
  others : ∀ block kept, f block = some kept → block.isMark = false → kept.isMark = false

namespace KeepsMarks

variable {f : Block → Option Block}

theorem untilMark_filterMap (hf : KeepsMarks f) (blocks : List Block) :
    untilMark (blocks.filterMap f) = (untilMark blocks).filterMap f := by
  unfold untilMark
  induction blocks with
  | nil => rfl
  | cons block blocks ih =>
      cases hm : block.isMark with
      | true => simp [List.filterMap_cons_some (hf.marks block hm), hm]
      | false =>
          cases hb : f block with
          | none => simp [List.filterMap_cons_none hb, hm, ih]
          | some kept => simp [List.filterMap_cons_some hb, hm, hf.others block kept hb hm, ih]

/-- The entries stay, with what is kept of their blocks. -/
theorem listedEntries_filterMap (hf : KeepsMarks f) (blocks : List Block) :
    listedEntries (blocks.filterMap f) =
      (listedEntries blocks).map fun entry => (entry.1, entry.2.filterMap f) := by
  induction blocks with
  | nil => rfl
  | cons block blocks ih =>
      cases hm : block.isMark with
      | true =>
          rw [List.filterMap_cons_some (hf.marks block hm), listedEntries, listedEntries, ih,
            hf.untilMark_filterMap]
          split <;> rfl
      | false =>
          have hhead {other : Block} (h : other.isMark = false) : other.headsEntry = false := by
            by_contra hne
            rw [isMark_of_headsEntry (by simpa using hne)] at h
            cases h
          rw [listedEntries, if_neg (by simp [hhead hm])]
          cases hb : f block with
          | none => rw [List.filterMap_cons_none hb, ih]
          | some kept =>
              rw [List.filterMap_cons_some hb, listedEntries,
                if_neg (by simp [hhead (hf.others block kept hb hm)]), ih]

end KeepsMarks

/-! ### Linking and repairing -/

/-- A block, linked and cleaned, unless nothing is left of it. -/
def finishBlock? (table : LinkTable) (block : Block) : Option Block :=
  cleanBlock? (linkBlock table block)

theorem kind_of_finishBlock? {refs : ReferenceMap} {block kept : Block}
    (h : finishBlock? refs.linkTable block = some kept) : kept.kind = block.kind := by
  have hkind : (linkBlock refs.linkTable block).kind = block.kind := kind_linkBlock block
  rw [← hkind]
  obtain ⟨_, rfl⟩ | ⟨hk, hk', _⟩ := cleanBlock?_eq_some h
  · rfl
  · rw [hk, hk']

theorem keepsMarks_finishBlock? (refs : ReferenceMap) : KeepsMarks (finishBlock? refs.linkTable) where
  marks block hm := by
    have hk : block.kind ≠ .text := fun e => by
      rw [isMark_of_text e] at hm
      cases hm
    rw [finishBlock?, linkBlock_of_ne hk, cleanBlock?, if_neg (by simpa using hk)]
  others block kept h hm := by
    rw [Block.isMark, Block.isContainer] at hm ⊢
    rwa [kind_of_finishBlock? h]

/-- A paragraph of one line without backticks is left alone. -/
theorem finishBlock?_paragraph (refs : ReferenceMap) {x : Text} (hspan : '\x60' ∉ x)
    (hline : '\n' ∉ x) (hend : x.stripEnd = x) (hvisible : x.isAllBlank = false) :
    finishBlock? refs.linkTable (Block.paragraph x) = some (Block.paragraph x) := by
  rw [finishBlock?, linkBlock_eq_self_iff.2 fun _ => nothingToLink_of_not_mem hspan]
  have hclean : cleanText (Block.paragraph x).text = x := cleanText_of_isLine hline hend
  unfold cleanBlock?
  rw [hclean]
  simp [Block.paragraph, hvisible]

/-- Blocks that repairing has nothing to take from but blanks: their containers are nested and no
fields, and no heading is too deep. -/
structure Plain (blocks : List Block) : Prop where
  assembled : Assembled [] blocks
  shallow : Shallow maxHeadingLevel blocks
  noField : ∀ block ∈ blocks, block.closes = true → Block.isFieldName block.name = false

namespace Plain

theorem nil : Plain [] := ⟨.nil, List.forall_mem_nil _, List.forall_mem_nil _⟩

theorem content {block : Block} (h : block.isContainer = false)
    (hl : block.kind = .heading → block.level ≤ maxHeadingLevel) : Plain [block] where
  assembled := .content h
  shallow := List.forall_mem_singleton.2 hl
  noField := List.forall_mem_singleton.2 fun hc => by
    rw [closes_of_not_isContainer h] at hc
    cases hc

theorem heading {level : Int} (h : level ≤ maxHeadingLevel) (title : Text) :
    Plain [Block.heading level title] := content rfl fun _ => h

theorem append {a b : List Block} (ha : Plain a) (hb : Plain b) : Plain (a ++ b) where
  assembled := ha.assembled.append hb.assembled
  shallow := List.forall_mem_append.2 ⟨ha.shallow, hb.shallow⟩
  noField := List.forall_mem_append.2 ⟨ha.noField, hb.noField⟩

theorem cons {block : Block} {blocks : List Block} (h : Plain [block]) (hb : Plain blocks) :
    Plain (block :: blocks) := h.append hb

theorem flatMap {α : Type} {items : List α} {f : α → List Block} (h : ∀ item ∈ items, Plain (f item)) :
    Plain (items.flatMap f) := by
  induction items with
  | nil => exact nil
  | cons item items ih =>
      rw [List.forall_mem_cons] at h
      exact h.1.append (ih h.2)

theorem texts {blocks : List Block} (h : ∀ block ∈ blocks, block.kind = .text) : Plain blocks := by
  have hall : Plain (blocks.flatMap fun block => [block]) := flatMap fun block hm =>
    content (not_isContainer_of_text (h block hm)) fun e => by cases (h block hm).symm.trans e
  rwa [List.flatMap_singleton'] at hall

theorem wrap {name : Text} {content : List Block} (attributes : Text)
    (h : Block.isFieldName name = false) (hc : Plain content) :
    Plain (Fragment.wrap name content attributes) where
  assembled := hc.assembled.wrap attributes fun _ => rfl
  shallow := by
    rw [Fragment.wrap, Shallow, List.cons_append, List.forall_mem_cons, List.forall_mem_append,
      List.forall_mem_singleton]
    exact ⟨fun hk => (by cases hk), hc.shallow, fun hk => (by cases hk)⟩
  noField := by
    rw [Fragment.wrap, List.cons_append, List.forall_mem_cons, List.forall_mem_append,
      List.forall_mem_singleton]
    exact ⟨fun hcloses => (by cases hcloses), hc.noField, fun _ => h⟩

variable {doc : Document} (h : Plain doc.blocks) (refs : ReferenceMap)

include h

theorem nested_link : Nested (doc.link refs.linkTable).blocks := by
  have hread : openedAfter? [] doc.blocks = some [] :=
    (h.assembled.read nofun (.inl rfl)).1
  unfold Nested Document.link
  rw [← openedAfter?_filter_isContainer, (leavesTags_linkBlock _).filter_map,
    openedAfter?_filter_isContainer, hread]

theorem shallow_link : Shallow maxHeadingLevel (doc.link refs.linkTable).blocks := by
  rw [Shallow, Document.link, List.forall_mem_map]
  intro block hm hk
  rw [kind_linkBlock] at hk
  rw [linkBlock_of_ne (by simp [hk])]
  exact h.shallow block hm hk

theorem isChain_finish : (doc.blocks.filterMap (finishBlock? refs.linkTable)).IsChain
    fun before after => ¬ IsEmptyField before after := by
  refine (List.pairwise_of_forall_mem_list fun before hb after ha hempty => ?_).isChain
  obtain ⟨-, hcloses, hfield, hname⟩ := hempty
  obtain ⟨source, hsource, hkept⟩ := List.mem_filterMap.1 ha
  have hkind : source.kind = .closing := by
    rw [← kind_of_finishBlock? hkept]
    simpa [Block.closes] using hcloses
  have hmark : source.isMark = true := by simp [Block.isMark, Block.isContainer, hkind]
  obtain rfl : source = after :=
    Option.some.inj (((keepsMarks_finishBlock? refs).marks source hmark).symm.trans hkept)
  rw [hname, h.noField source hsource hcloses] at hfield
  cases hfield

/-- Such a document is linked and repaired block by block. -/
theorem blocks_finish : ((doc.link refs.linkTable).repair maxHeadingLevel).blocks =
    doc.blocks.filterMap (finishBlock? refs.linkTable) := by
  have hmap : (doc.link refs.linkTable).blocks.filterMap cleanBlock? =
      doc.blocks.filterMap (finishBlock? refs.linkTable) := List.filterMap_map
  change clean ((balance (doc.link refs.linkTable).blocks).map (demote maxHeadingLevel)) = _
  rw [balance_of_nested (h.nested_link refs), map_demote_of_shallow (h.shallow_link refs), clean, hmap,
    foldl_addCleaned_of_isChain (h.isChain_finish refs), List.append_nil, List.reverse_reverse]

end Plain

/-! ### Top headings -/

/-- The first heading of the least level among blocks. -/
def IsTopHeading (blocks : List Block) (heading : Block) : Prop :=
  ∃ before after, blocks = before ++ heading :: after ∧ heading.kind = .heading ∧
    (∀ other ∈ before, other.kind = .heading → heading.level < other.level) ∧
    ∀ other ∈ after, other.kind = .heading → heading.level ≤ other.level

namespace Overview

theorem exists_cutAtLevel {level : Int} {blocks : List Block}
    (h : ∃ block ∈ blocks, block.kind = .heading ∧ block.level = level) :
    ∃ before heading after, cutAtLevel level blocks = some (heading, after) ∧
      blocks = before ++ heading :: after ∧ heading.kind = .heading ∧ heading.level = level ∧
      ∀ other ∈ before, other.kind = .heading → other.level ≠ level := by
  induction blocks with
  | nil =>
      obtain ⟨block, hm, -⟩ := h
      cases hm
  | cons first blocks ih =>
      rw [cutAtLevel]
      split
      · next hfirst =>
        rw [Bool.and_eq_true, beq_iff_eq, beq_iff_eq] at hfirst
        exact ⟨[], first, blocks, rfl, rfl, hfirst.1, hfirst.2, nofun⟩
      · next hfirst =>
        have hne : first.kind = .heading → first.level ≠ level := by simpa using hfirst
        obtain ⟨block, hm, hk, hl⟩ := h
        rcases List.mem_cons.1 hm with rfl | hm
        · exact absurd hl (hne hk)
        · obtain ⟨before, heading, after, hcut, hsplit, hkind, hlevel, hbefore⟩ := ih ⟨block, hm, hk, hl⟩
          exact ⟨first :: before, heading, after, hcut, by rw [hsplit]; rfl, hkind, hlevel,
            List.forall_mem_cons.2 ⟨hne, hbefore⟩⟩

/-- Where there is a heading, the blocks are cut at the top one. -/
theorem exists_cutAtTop? {blocks : List Block} (h : ∃ block ∈ blocks, block.kind = .heading) :
    ∃ heading after, cutAtTop? blocks = some (heading, after) ∧ IsTopHeading blocks heading := by
  have hlevels : topLevel? blocks ≠ none := by
    obtain ⟨block, hm, hk⟩ := h
    rw [topLevel?, Ne, List.min?_eq_none_iff, List.map_eq_nil_iff, List.filter_eq_nil_iff]
    exact fun hall => hall block hm (by simpa using hk)
  obtain ⟨level, hlevel⟩ := Option.ne_none_iff_exists'.1 hlevels
  obtain ⟨hmem, hleast⟩ := List.min?_eq_some_iff.1 hlevel
  have hleast {other : Block} (hm : other ∈ blocks) (hk : other.kind = .heading) :
      level ≤ other.level :=
    hleast _ (List.mem_map_of_mem (List.mem_filter.2 ⟨hm, by simpa using hk⟩))
  obtain ⟨block, hblock, hblockLevel⟩ := List.mem_map.1 hmem
  obtain ⟨hm, hk⟩ := List.mem_filter.1 hblock
  obtain ⟨before, heading, after, hcut, hsplit, hkind, rfl, hbefore⟩ :=
    exists_cutAtLevel ⟨block, hm, by simpa using hk, hblockLevel⟩
  refine ⟨heading, after, by rw [cutAtTop?, hlevel]; exact hcut, before, after, hsplit, hkind, ?_, ?_⟩
  · intro other hother hotherKind
    have hle := hleast (hsplit ▸ List.mem_append_left _ hother) hotherKind
    have hne := hbefore other hother hotherKind
    omega
  · intro other hother hotherKind
    exact hleast (hsplit ▸ List.mem_append_right _ (List.mem_cons_of_mem _ hother)) hotherKind

/-! ### Entries of pages -/

variable {refs : ReferenceMap}

/-- The entry of a page as it is drafted: it carries the text of the top heading of the page, and it
ends with the link to the page unless that is about an enum. -/
structure Drafts (refs : ReferenceMap) (detail : PageDetail) (listed : Block × List Block) : Prop where
  title : ∀ heading after, cutAtTop? detail.page.blocks = some (heading, after) →
    listed.1.text = heading.text.strip
  link : detail.kind ≠ .enumeration →
    listed.2.getLast? = some (pageLink refs detail.page.location)

theorem kind_of_mem_plainText {x : Text} {block : Block} (h : block ∈ Fragment.plainText x) :
    block.kind = .text := by
  unfold Fragment.plainText at h
  split at h
  · cases h
  · rw [List.mem_singleton.1 h]
    rfl

theorem kind_of_firstTable? {blocks : List Block} {block : Block}
    (h : firstTable? blocks = some block) : block.kind = .text := by
  have hfound := List.find?_some h
  rw [Bool.and_eq_true, beq_iff_eq] at hfound
  exact hfound.1

/-- An entry is its heading and running text. -/
theorem exists_entry_eq (refs : ReferenceMap) (detail : PageDetail) :
    ∃ name body, entry refs detail = Block.heading 3 name :: body ∧
      ∀ block ∈ body, block.kind = .text := by
  refine ⟨_, _, rfl, fun block hm => ?_⟩
  rcases List.mem_append.1 hm with hm | hm
  · exact kind_of_mem_plainText hm
  · split at hm
    · exact kind_of_firstTable? (Option.mem_toList.1 hm)
    · rw [List.mem_singleton.1 hm]
      rfl

theorem drafts_of_entry_eq {detail : PageDetail} {listed : Block × List Block}
    (h : entry refs detail = listed.1 :: listed.2) : Drafts refs detail listed := by
  rw [entry, List.cons_append, List.cons.injEq] at h
  rw [← Prod.eta listed, ← h.1, ← h.2]
  constructor
  · intro heading after hcut
    rw [hcut]
    rfl
  · intro hkind
    rw [if_neg (by simpa using hkind)]
    exact List.getLast?_concat ..

theorem beginsWithMark_flatMap_entry (refs : ReferenceMap) (details : List PageDetail) :
    BeginsWithMark (details.flatMap (entry refs)) := by
  cases details with
  | nil => exact fun _ hm => by cases hm
  | cons detail details =>
      intro block hm
      rw [List.flatMap_cons, entry] at hm
      rw [← Option.some.inj hm]
      rfl

theorem forall_entry_flatMap (refs : ReferenceMap) (details : List PageDetail) :
    List.Forall₂ (fun detail listed => entry refs detail = listed.1 :: listed.2) details
      (listedEntries (details.flatMap (entry refs))) := by
  induction details with
  | nil => exact .nil
  | cons detail details ih =>
      obtain ⟨name, body, hentry, htexts⟩ := exists_entry_eq refs detail
      rw [List.flatMap_cons, listedEntries_append (beginsWithMark_flatMap_entry refs details), hentry,
        listedEntries, if_pos (by rfl), untilMark_of_texts htexts, listedEntries_of_texts htexts]
      exact .cons hentry ih

/-! ### Arranged entries -/

/-- Groups fold or not; their entries are listed one group after another. -/
theorem listedEntries_arrange (items : List (Text × List Block)) :
    listedEntries (arrange items) = items.flatMap fun item => listedEntries item.2 := by
  have hfolded : ∀ items : List (Text × List Block),
      BeginsWithMark (items.flatMap fun item => Fragment.accordion item.1 item.2) ∧
        listedEntries (items.flatMap fun item => Fragment.accordion item.1 item.2) =
          items.flatMap fun item => listedEntries item.2 := by
    intro items
    induction items with
    | nil => exact ⟨fun _ hm => (by cases hm), rfl⟩
    | cons item items ih =>
        refine ⟨fun block hm => ?_, ?_⟩
        · rw [List.flatMap_cons, Fragment.accordion, Fragment.wrap] at hm
          rw [← Option.some.inj hm]
          rfl
        · rw [List.flatMap_cons, List.flatMap_cons, listedEntries_append ih.1, ih.2,
            Fragment.accordion, listedEntries_wrap]
  obtain _ | ⟨⟨title, blocks⟩, _ | ⟨second, more⟩⟩ := items
  · rfl
  · rw [List.flatMap_singleton]
    rfl
  · exact (listedEntries_wrap _ _ _).trans (hfolded ((title, blocks) :: second :: more)).2

theorem sections_eq (refs : ReferenceMap) (details : List PageDetail) :
    sections refs details =
      (overviewGroups.map fun group => (group.1,
        (details.filter fun detail => detail.kind == group.2).flatMap (entry refs))).filter
          fun item => !item.2.isEmpty := rfl

/-- The entries of the overview are those of the pages, group by group. -/
theorem forall_entry_arrange (refs : ReferenceMap) (details : List PageDetail) :
    List.Forall₂ (fun detail listed => entry refs detail = listed.1 :: listed.2)
      (overviewGroups.flatMap fun group => details.filter fun detail => detail.kind == group.2)
      (listedEntries (arrange (sections refs details))) := by
  rw [listedEntries_arrange, sections_eq]
  induction overviewGroups with
  | nil => exact .nil
  | cons group groups ih =>
      have hgroup := forall_entry_flatMap refs (details.filter fun detail => detail.kind == group.2)
      rw [List.flatMap_cons, List.map_cons, List.filter_cons]
      split
      · exact List.rel_append hgroup ih
      · next hempty =>
        -- a group without entries is left out, and no page belongs to it
        rw [show (details.filter fun detail => detail.kind == group.2).flatMap (entry refs) = [] by
          simpa using hempty] at hgroup
        rw [List.forall₂_nil_right_iff.1 hgroup]
        exact ih

theorem plain_arrange {items : List (Text × List Block)} (h : ∀ item ∈ items, Plain item.2) :
    Plain (arrange items) := by
  obtain _ | ⟨⟨title, blocks⟩, _ | ⟨second, more⟩⟩ := items
  · exact .nil
  · exact .cons (.heading (by decide) title) (h _ List.mem_cons_self)
  · exact .wrap _ (by decide) (.flatMap fun item hm => .wrap _ (by decide) (h item hm))

theorem plain_sections (refs : ReferenceMap) (details : List PageDetail) :
    ∀ item ∈ sections refs details, Plain item.2 := by
  intro item hm
  rw [sections_eq] at hm
  obtain ⟨group, -, rfl⟩ := List.mem_map.1 (List.mem_filter.1 hm).1
  refine .flatMap fun detail _ => ?_
  obtain ⟨name, body, hentry, htexts⟩ := exists_entry_eq refs detail
  rw [hentry]
  exact .cons (.heading (by decide) name) (.texts htexts)

/-- The finished overview lists the entries that were drafted, their blocks linked and cleaned. -/
theorem listedEntries_finish {ctx : PageContext} {details : List PageDetail}
    {name description : Option Text} {drafted : Document} (refs : ReferenceMap)
    (h : document ctx details name description = .ok drafted) :
    listedEntries ((drafted.link refs.linkTable).repair maxHeadingLevel).blocks =
      (listedEntries (arrange (sections ctx.refs details))).map fun listed =>
        (listed.1, listed.2.filterMap (finishBlock? refs.linkTable)) := by
  unfold document Fragment.frontmatter at h
  obtain ⟨matter, hmatter, h⟩ := bind_eq_ok.1 h
  obtain ⟨x, -, hmatter⟩ := bind_eq_ok.1 hmatter
  cases hmatter
  cases h
  have hplain : Plain ({ kind := .frontmatter, text := x } :: arrange (sections ctx.refs details)) :=
    .cons (.content rfl fun hk => by cases hk) (plain_arrange (plain_sections ctx.refs details))
  rw [Plain.blocks_finish hplain refs, (keepsMarks_finishBlock? refs).listedEntries_filterMap]
  rfl

end Overview

end ApiReference
