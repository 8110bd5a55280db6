import ApiReference.Proofs.FunctionPages
import ApiReference.Proofs.OverviewPages

/-! # What comments leave of an entry

An entry takes its heading, and that of an enum its table, from the finished page.  Headings and
running text in comments are on that page too, before the parts that come from the declaration.

A page has the name of its declaration as its first heading, and only texts that are read bring in
headings above it; so without such a heading the entry has that name
(`cutAtTop?_of_renderPage`).  A text begins with a bar after linking and cleaning only if it did so
before or began with a backtick (`Text.firstSign?_linkText`, `Text.firstSign?_cleanText`); so unless
a linked text of a comment begins with a bar, the first table after the top heading is that of the
members, the last of the content of the page (`firstTable?_of_renderPage`). -/

namespace ApiReference

/-! ### The first sign of a text -/

/-- The first character that shows. -/
def Text.firstSign? (x : Text) : Option Char := x.find? fun c => !isBlank c

namespace Text

theorem firstSign?_eq (x : Text) : x.firstSign? = x.words.flatten.head? := by
  rw [flatten_words, List.head?_filter]
  rfl

theorem startsWith_stripStart_iff {x : Text} {c : Char} :
    x.stripStart.startsWith [c] = true ↔ x.firstSign? = some c := by
  have hhead : x.firstSign? = x.stripStart.head? := by
    rw [firstSign?, List.find?_eq_head?_dropWhile_not]
    simp [stripStart]
  rw [hhead, startsWith, List.isPrefixOf_iff_prefix]
  cases x.stripStart with
  | nil => simp
  | cons d rest => simp [List.cons_prefix_cons, eq_comm]

theorem firstSign?_cleanText (x : Text) : (cleanText x).firstSign? = x.firstSign? := by
  rw [firstSign?_eq, firstSign?_eq, words_cleanText]

theorem isAllBlank_of_firstSign? {x : Text} {c : Char} (h : x.firstSign? = some c) :
    x.isAllBlank = false := by
  rw [Bool.eq_false_iff]
  intro hb
  have hc : isBlank c = false := by simpa using List.find?_some h
  rw [isAllBlank_iff.1 hb c (List.mem_of_find?_eq_some h)] at hc
  cases hc

/-- Linking leaves the first sign alone, unless it is a backtick. -/
theorem firstSign?_linkText (refs : ReferenceMap) {x : Text} (h : x.firstSign? ≠ some '\x60') :
    (linkText refs.linkTable x).firstSign? = x.firstSign? := by
  by_cases hn : NothingToLink refs.href? x
  · rw [linkText_eq_self_iff.2 hn]
  · have hparts := partsAtMark_unlines_linkLines hn
    rw [unlines_lines] at hparts
    obtain ⟨start, rest, gap, c, rest', hx, hy, -⟩ := hparts
    have hmark : ('\x60' :: rest).find? (fun c => !isBlank c) = some '\x60' := rfl
    have hstart : start.find? (fun c => !isBlank c) ≠ none := by
      intro hnone
      rw [firstSign?, hx, List.find?_append, hnone, hmark] at h
      exact h rfl
    obtain ⟨d, hd⟩ := Option.ne_none_iff_exists'.1 hstart
    have hsign (y : Text) : firstSign? (start ++ y) = some d := by
      rw [firstSign?, List.find?_append, hd]
      rfl
    have hlinked : linkText refs.linkTable x = start ++ (gap ++ c :: rest') := hy
    rw [hlinked, hx, hsign, hsign]

end Text

/-! ### Tables among blocks -/

/-- The block is running text that begins with a bar. -/
def Block.isTable (block : Block) : Bool :=
  block.kind == .text && block.text.stripStart.startsWith ['|']

theorem isTable_iff {block : Block} :
    block.isTable = true ↔ block.kind = .text ∧ block.text.firstSign? = some '|' := by
  rw [Block.isTable, Bool.and_eq_true, beq_iff_eq, Text.startsWith_stripStart_iff]

section

variable {refs : ReferenceMap} {block kept : Block}

variable (refs) in
theorem isTable_linkBlock (h : block.isTable = true) :
    (linkBlock refs.linkTable block).isTable = true := by
  obtain ⟨hk, hsign⟩ := isTable_iff.1 h
  rw [isTable_iff, kind_linkBlock, text_linkBlock hk,
    Text.firstSign?_linkText refs (by simp [hsign])]
  exact ⟨hk, hsign⟩

theorem not_isTable_linkBlock (hbar : block.text.firstSign? ≠ some '|')
    (hspan : block.text.firstSign? ≠ some '\x60') :
    (linkBlock refs.linkTable block).isTable = false := by
  rw [Bool.eq_false_iff, Ne, isTable_iff, kind_linkBlock]
  rintro ⟨hk, hsign⟩
  rw [text_linkBlock hk, Text.firstSign?_linkText refs hspan] at hsign
  exact hbar hsign

variable (refs) in
/-- A table is kept, and stays a table. -/
theorem exists_finishBlock?_of_isTable (h : block.isTable = true) :
    ∃ kept, finishBlock? refs.linkTable block = some kept ∧ kept.isTable = true := by
  obtain ⟨hk, hsign⟩ := isTable_iff.1 (isTable_linkBlock refs h)
  have hvisible := Text.isAllBlank_of_firstSign? hsign
  cases hclean : cleanBlock? (linkBlock refs.linkTable block) with
  | none => cases (cleanBlock?_eq_none_iff.1 hclean).2.symm.trans hvisible
  | some kept =>
      obtain ⟨hk', ht, -⟩ := (words_of_cleanBlock? hclean).2 hk
      exact ⟨kept, hclean, isTable_iff.2 ⟨hk', by rw [ht, Text.firstSign?_cleanText, hsign]⟩⟩

/-- A table on a finished page was one when it was linked. -/
theorem isTable_of_settleBlock? (h : settleBlock? refs block = some kept)
    (ht : kept.isTable = true) :
    block.kind = .text ∧ (linkBlock refs.linkTable block).isTable = true := by
  obtain ⟨hk, hsign⟩ := isTable_iff.1 ht
  by_cases hh : block.isHeading = true
  · -- a heading that is too deep begins with stars
    have hb : block.kind = .heading := beq_iff_eq.1 hh
    rw [settleBlock?, linkBlock_of_ne (by simp [hb])] at h
    by_cases hdeep : maxHeadingLevel < block.level
    · rw [demote, if_pos (by simp [hb, hdeep])] at h
      obtain ⟨-, hclean, -⟩ := (words_of_cleanBlock? h).2 rfl
      rw [hclean, Text.firstSign?_cleanText] at hsign
      cases hsign
    · rw [demote, if_neg (by simp [hdeep])] at h
      rw [(words_of_cleanBlock? h).1 (by simp [hb]), hb] at hk
      cases hk
  · rw [settleBlock?_of_not_heading (by simpa using hh)] at h
    have hkind : block.kind = .text := (kind_of_finishBlock? h).symm.trans hk
    refine ⟨hkind, isTable_iff.2 ⟨(kind_linkBlock block).trans hkind, ?_⟩⟩
    obtain ⟨-, hclean, -⟩ := (words_of_cleanBlock? h).2 ((kind_linkBlock block).trans hkind)
    rwa [hclean, Text.firstSign?_cleanText] at hsign

end

/-! ### The content of finished pages -/

section

variable (refs : ReferenceMap)

theorem isContent_linkBlock (block : Block) :
    (linkBlock refs.linkTable block).isContent = block.isContent := by
  by_cases hk : block.kind = .text
  · rw [isContent_of_text hk, isContent_of_text ((kind_linkBlock block).trans hk)]
  · rw [linkBlock_of_ne hk]

/-- The content of a finished document is that of the document, settled block by block. -/
theorem filter_isContent_finish (doc : Document) :
    ((doc.link refs.linkTable).repair maxHeadingLevel).blocks.filter Block.isContent =
      (doc.blocks.filter Block.isContent).filterMap (settleBlock? refs) := by
  have hlinked : (doc.blocks.map (linkBlock refs.linkTable)).filter Block.isContent =
      (doc.blocks.filter Block.isContent).map (linkBlock refs.linkTable) := by
    rw [List.filter_map]
    exact congrArg _ (List.filter_congr fun block _ => isContent_linkBlock refs block)
  rw [Document.repair, filter_isContent_repairBlocks, Document.link, hlinked,
    filterMap_settleBlock?]

theorem filter_isHeading_filterMap_settleBlock? (blocks : List Block) :
    (blocks.filterMap (settleBlock? refs)).filter Block.isHeading =
      blocks.filter fun block => block.isHeading && decide (block.level ≤ maxHeadingLevel) := by
  induction blocks with
  | nil => rfl
  | cons block blocks ih =>
      rw [List.filter_cons]
      have hkept (h : (block.isHeading && decide (block.level ≤ maxHeadingLevel)) = true) :
          block.isHeading = true ∧ settleBlock? refs block = some block := by
        rw [Bool.and_eq_true, decide_eq_true_eq] at h
        exact ⟨h.1, (settleBlock?_eq_some_iff_of_heading h.1).2 ⟨rfl, h.2⟩⟩
      cases hb : settleBlock? refs block with
      | none =>
          rw [List.filterMap_cons_none hb, ih, if_neg]
          intro h
          cases hb.symm.trans (hkept h).2
      | some settled =>
          rw [List.filterMap_cons_some hb, List.filter_cons, ih]
          by_cases hh : settled.isHeading = true
          · obtain ⟨rfl, hl⟩ := (settleBlock?_eq_some_iff_of_heading hh).1 hb
            rw [if_pos hh, if_pos (by simp [hh, hl])]
          · rw [if_neg hh, if_neg]
            intro h
            have hsame : block = settled := Option.some.inj ((hkept h).2.symm.trans hb)
            exact hh (hsame ▸ (hkept h).1)

/-- The headings of a finished document are those that are not too deep. -/
theorem filter_isHeading_finish (doc : Document) :
    ((doc.link refs.linkTable).repair maxHeadingLevel).blocks.filter Block.isHeading =
      doc.blocks.filter fun block => block.isHeading && decide (block.level ≤ maxHeadingLevel) := by
  have hcontent {block : Block} (hh : block.isHeading = true) : block.isContent = true := by
    have hk : block.kind = .heading := beq_iff_eq.1 hh
    simp [Block.isContent, Block.opens, Block.closes, hk]
  have hfilter (blocks : List Block) : blocks.filter Block.isHeading =
      (blocks.filter Block.isContent).filter Block.isHeading := by
    rw [List.filter_filter]
    refine List.filter_congr fun block _ => ?_
    cases hh : block.isHeading with
    | true => simp [hcontent hh]
    | false => simp
  rw [hfilter, filter_isContent_finish, filter_isHeading_filterMap_settleBlock?, List.filter_filter]
  refine List.filter_congr fun block _ => ?_
  cases hh : block.isHeading with
  | true => simp [hcontent hh]
  | false => simp

end

/-! ### The heading of an entry -/

/-- The first of all headings is the top heading if none is above it. -/
theorem IsTopHeading.eq_of_head? {blocks : List Block} {top first : Block}
    (h : IsTopHeading blocks top) (hfirst : (blocks.filter Block.isHeading).head? = some first)
    (hleast : ∀ block ∈ blocks, block.kind = .heading → first.level ≤ block.level) :
    top = first := by
  obtain ⟨before, after, rfl, hk, hbefore, -⟩ := h
  have htop : top.isHeading = true := beq_iff_eq.2 hk
  rw [List.filter_append, List.filter_cons_of_pos htop] at hfirst
  cases hb : before.filter Block.isHeading with
  | nil =>
      rw [hb] at hfirst
      exact Option.some.inj hfirst
  | cons other more =>
      rw [hb] at hfirst
      obtain rfl : other = first := Option.some.inj hfirst
      have hm : other ∈ before.filter Block.isHeading := hb ▸ List.mem_cons_self
      obtain ⟨hm, hh⟩ := List.mem_filter.1 hm
      have hlt := hbefore other hm (beq_iff_eq.1 hh)
      have hle := hleast top (List.mem_append_right _ List.mem_cons_self) hk
      omega

/-- No heading of the text is of the first level. -/
def HoldsNoTitle (x : Text) : Prop :=
  ∀ block ∈ Document.blocksOf x, block.kind = .heading → 2 ≤ block.level

instance (x : Text) : Decidable (HoldsNoTitle x) :=
  inferInstanceAs (Decidable (∀ block ∈ Document.blocksOf x, _ → _))

section

variable {ctx : PageContext} {placed : Placed} {location : Text} {rendered : Document}

/-- A page begins with frontmatter, the link back, and the name as a heading. -/
theorem exists_opening_of_renderPage (h : renderPage ctx placed location = .ok rendered) :
    ∃ matter body, kindBlocks ctx placed.declaration = .ok body ∧
      rendered.blocks = { kind := .frontmatter, text := matter } :: backLink ctx placed.lineage ::
        Block.heading 2 placed.declaration.name ::
          ((if placed.declaration.pageSummary.isEmpty then []
            else Fragment.richText placed.declaration.pageSummary) ++
          commentBlocks? placed.declaration.comment ++ body) := by
  unfold renderPage at h
  obtain ⟨opening, hopening, h⟩ := bind_eq_ok.1 h
  obtain ⟨body, hbody, h⟩ := bind_eq_ok.1 h
  cases h
  have hopening := mapError_eq_ok.1 hopening
  unfold openingBlocks Fragment.frontmatter at hopening
  obtain ⟨first, hfirst, hopening⟩ := bind_eq_ok.1 hopening
  obtain ⟨matter, -, hfirst⟩ := bind_eq_ok.1 hfirst
  cases hfirst
  cases hopening
  exact ⟨matter, body, hbody, by simp⟩

/-- Without a heading of the first level in a text, a page is cut at its name. -/
theorem cutAtTop?_of_renderPage (h : renderPage ctx placed location = .ok rendered)
    {texts : List Text} (htexts : pageTexts ctx placed.declaration = .ok texts)
    (hnone : ∀ x ∈ texts, HoldsNoTitle x) :
    ∃ after, Overview.cutAtTop? ((rendered.link ctx.refs.linkTable).repair maxHeadingLevel).blocks =
      some (Block.heading 2 placed.declaration.name, after) := by
  obtain ⟨top, after, hcut, htop, -⟩ := Site.exists_top_of_rendered ctx.refs h
  obtain ⟨texts', htexts', hcomposed⟩ := composed_renderPage h
  obtain rfl : texts' = texts := Except.ok.inj (htexts'.symm.trans htexts)
  obtain ⟨matter, body, -, hblocks⟩ := exists_opening_of_renderPage h
  have hfirst : (((rendered.link ctx.refs.linkTable).repair maxHeadingLevel).blocks.filter
      Block.isHeading).head? = some (Block.heading 2 placed.declaration.name) := by
    rw [filter_isHeading_finish, hblocks]
    rfl
  have hleast : ∀ block ∈ ((rendered.link ctx.refs.linkTable).repair maxHeadingLevel).blocks,
      block.kind = .heading → 2 ≤ block.level := by
    intro block hm hk
    have hrendered := ((mem_finish_iff_of_heading hk).1 hm).1
    obtain hlevel | ⟨x, hx, hread⟩ := hcomposed.titles block hrendered hk
    · exact hlevel
    · exact hnone x hx block hread hk
  exact ⟨after, htop.eq_of_head? hfirst hleast ▸ hcut⟩

end

/-! ### Running text of comments -/

/-- No running text of the text begins with a bar once it is linked. -/
def HoldsNoTable (refs : ReferenceMap) (x : Text) : Prop :=
  ∀ block ∈ Document.blocksOf x, block.kind = .text →
    (linkBlock refs.linkTable block).isTable = false

instance (refs : ReferenceMap) (x : Text) : Decidable (HoldsNoTable refs x) :=
  inferInstanceAs (Decidable (∀ block ∈ Document.blocksOf x, _ → _))

section

variable {block : Block} (hk : block.kind = .text)

include hk

theorem exists_of_mem_calloutBlocks {sort : Text} {texts : List Text}
    (hm : block ∈ calloutBlocks sort texts) :
    ∃ x ∈ calloutTexts texts, block ∈ Document.blocksOf x := by
  obtain ⟨x, hx, hm⟩ := List.mem_flatMap.1 hm
  rw [Fragment.callout, mem_wrap_iff (not_isContainer_of_text hk)] at hm
  exact ⟨x.strip, List.mem_map_of_mem hx, (List.mem_filter.1 hm).1⟩

/-- Examples are code. -/
theorem not_mem_exampleBlocks (examples : List Example) : block ∉ exampleBlocks examples := by
  have hcode (code language : Text) : block ≠ Block.code code language := by
    rintro rfl
    cases hk
  match examples with
  | [] => exact List.not_mem_nil
  | [only] => simpa [exampleBlocks] using hcode _ _
  | first :: second :: more =>
      show block ∉ Fragment.wrap _ _ _
      rw [mem_wrap_iff (not_isContainer_of_text hk), List.mem_map]
      rintro ⟨sample, -, e⟩
      exact hcode _ _ e.symm

theorem exists_of_mem_commentBlocks? {comment : Option Comment}
    (hm : block ∈ commentBlocks? comment) :
    ∃ x ∈ commentTexts comment, block ∈ Document.blocksOf x := by
  cases comment with
  | none => cases hm
  | some comment =>
      rw [commentBlocks?, commentBlocks, List.mem_append, List.mem_append, List.mem_append] at hm
      simp only [commentTexts, List.mem_append]
      rcases hm with ((hm | hm) | hm) | hm
      · obtain ⟨x, hx, hread⟩ := exists_of_mem_calloutBlocks hk hm
        exact ⟨x, .inl (.inl hx), hread⟩
      · obtain ⟨x, hx, hread⟩ := exists_of_mem_calloutBlocks hk hm
        exact ⟨x, .inl (.inr hx), hread⟩
      · obtain ⟨x, hx, hread⟩ := exists_of_mem_calloutBlocks hk hm
        exact ⟨x, .inr hx, hread⟩
      · exact absurd hm (not_mem_exampleBlocks hk _)

end

theorem exists_of_mem_richText {x : Text} {block : Block}
    (hm : block ∈ if x.isEmpty then [] else Fragment.richText x) :
    ∃ y ∈ readUnlessEmpty x, block ∈ Document.blocksOf y := by
  unfold readUnlessEmpty
  split at hm
  · cases hm
  · next hx =>
    rw [if_neg hx]
    exact ⟨x, List.mem_cons_self, (List.mem_filter.1 hm).1⟩

/-! ### The table of an entry -/

/-- Tables are laid out with a bar as their first sign, tables of contents with another one that is
no backtick. -/
structure Layout.ShowsTables (layout : Layout) : Prop where
  table : ∀ headers rows x, layout.table headers rows = .ok x → x.firstSign? = some '|'
  contents : ∀ items x, layout.contents items = .ok x →
    x.firstSign? ≠ some '|' ∧ x.firstSign? ≠ some '\x60'

theorem showsTables_standard : Layout.standard.ShowsTables where
  table headers rows x h := by
    cases h
    rfl
  contents items x h := by
    cases h
    match items with
    | [] => exact ⟨nofun, nofun⟩
    | item :: more =>
        have hsign : (Layout.standardContents (item :: more)).firstSign? = some '-' := by
          cases more <;> rfl
        rw [hsign]
        exact ⟨by decide, by decide⟩

namespace Layout.ShowsTables

theorem isTable_memberTable {ctx : PageContext} (hlayout : ctx.layout.ShowsTables)
    {members : List Declaration} {table : Block} (h : memberTable ctx members = .ok table) :
    table.isTable = true := by
  unfold memberTable Fragment.table at h
  obtain ⟨x, hx, h⟩ := bind_eq_ok.1 h
  cases h
  exact isTable_iff.2 ⟨rfl, hlayout.table _ _ x hx⟩

theorem not_isTable_of_mem_contents {layout : Layout} (hlayout : layout.ShowsTables)
    {titles : List Text} {blocks : List Block} (h : Fragment.contents layout titles = .ok blocks)
    {block : Block} (hm : block ∈ blocks) (hk : block.kind = .text) {refs : ReferenceMap} :
    (linkBlock refs.linkTable block).isTable = false := by
  unfold Fragment.contents at h
  split at h
  · cases h
    cases hm
  · obtain ⟨links, hlinks, h⟩ := bind_eq_ok.1 h
    cases h
    obtain ⟨hbar, hspan⟩ := hlayout.contents _ _ hlinks
    simp only [List.mem_cons, List.not_mem_nil, or_false] at hm
    rcases hm with rfl | rfl | rfl
    · cases hk
    · exact not_isTable_linkBlock hbar hspan
    · cases hk

end Layout.ShowsTables

namespace Overview

theorem exists_append_of_cutAtLevel {level : Int} {blocks after : List Block} {heading : Block}
    (h : cutAtLevel level blocks = some (heading, after)) :
    heading.kind = .heading ∧ ∃ before, blocks = before ++ heading :: after := by
  induction blocks with
  | nil => cases h
  | cons block blocks ih =>
      rw [cutAtLevel] at h
      split at h
      · next hfirst =>
        cases h
        exact ⟨beq_iff_eq.1 (Bool.and_eq_true_iff.1 hfirst).1, [], rfl⟩
      · obtain ⟨hk, before, rfl⟩ := ih h
        exact ⟨hk, block :: before, rfl⟩

theorem exists_append_of_cutAtTop? {blocks after : List Block} {heading : Block}
    (h : cutAtTop? blocks = some (heading, after)) :
    heading.kind = .heading ∧ ∃ before, blocks = before ++ heading :: after := by
  obtain ⟨level, -, hcut⟩ := Option.bind_eq_some_iff.1 h
  exact exists_append_of_cutAtLevel hcut

/-- A table that is the last of the content, and the only one, is found after every heading. -/
theorem firstTable?_of_last {before after : List Block} {heading table : Block}
    (hk : heading.kind = .heading) (ht : table.isTable = true)
    (hlast : ((before ++ heading :: after).filter Block.isContent).getLast? = some table)
    (honly : ∀ block ∈ before ++ heading :: after, block.isTable = true → block = table) :
    firstTable? after = some table := by
  have hcontent : heading.isContent = true := by
    simp [Block.isContent, Block.opens, Block.closes, hk]
  have hm : table ∈ after := by
    rw [List.filter_append, List.filter_cons_of_pos hcontent] at hlast
    obtain e | ⟨start, last, e⟩ := List.eq_nil_or_concat (after.filter Block.isContent)
    · rw [e, List.getLast?_concat, Option.some_inj] at hlast
      rw [← hlast, isTable_iff, hk] at ht
      cases ht.1
    · rw [List.concat_eq_append] at e
      rw [e, ← List.cons_append, ← List.append_assoc, List.getLast?_concat,
        Option.some_inj] at hlast
      have hmem : last ∈ after.filter Block.isContent := by simp [e]
      exact hlast ▸ (List.mem_filter.1 hmem).1
  have hfound : firstTable? after = after.find? Block.isTable := rfl
  rw [hfound]
  cases e : after.find? Block.isTable with
  | none => exact absurd ht (List.find?_eq_none.1 e table hm)
  | some found =>
      have hmem : found ∈ after := List.mem_of_find?_eq_some e
      rw [honly found (List.mem_append_right _ (List.mem_cons_of_mem _ hmem)) (List.find?_some e)]

end Overview

section

variable {ctx : PageContext} {placed : Placed} {location : Text} {rendered : Document}

/-- What the page of an enum with members shows ends with their table. -/
theorem exists_table_of_enumBlocks {decl : Declaration} {body : List Block}
    (h : enumBlocks ctx decl = .ok body) (hmembers : decl.childrenOf .enumMember ≠ []) :
    ∃ contents table, Fragment.contents ctx.layout ["Members"] = .ok contents ∧
      memberTable ctx (decl.childrenOf .enumMember) = .ok table ∧
      body = contents ++ [Block.heading 3 "Members", table] := by
  unfold enumBlocks at h
  dsimp only at h
  rw [if_neg (by simpa using hmembers)] at h
  obtain ⟨contents, hcontents, h⟩ := bind_eq_ok.1 h
  obtain ⟨table, htable, h⟩ := bind_eq_ok.1 h
  cases h
  exact ⟨contents, table, hcontents, htable, rfl⟩

theorem pageTexts_of_enumeration {decl : Declaration} (hkind : decl.kind = .enumeration) :
    pageTexts ctx decl = .ok (readUnlessEmpty decl.pageSummary ++ commentTexts decl.comment) := by
  unfold pageTexts kindTexts
  rw [hkind]
  exact congrArg Except.ok (List.append_nil _)

/-- The page of an enum with members ends with their table, and no running text before it begins
with a bar once it is linked, unless that of a comment does. -/
theorem exists_table_of_renderPage (hlayout : ctx.layout.ShowsTables)
    (h : renderPage ctx placed location = .ok rendered)
    (hkind : placed.declaration.kind = .enumeration)
    (hmembers : placed.declaration.childrenOf .enumMember ≠ [])
    {texts : List Text} (htexts : pageTexts ctx placed.declaration = .ok texts)
    (hnone : ∀ x ∈ texts, HoldsNoTable ctx.refs x) :
    ∃ front table, rendered.blocks = front ++ [table] ∧
      memberTable ctx (placed.declaration.childrenOf .enumMember) = .ok table ∧
      ∀ block ∈ front, block.kind = .text →
        (linkBlock ctx.refs.linkTable block).isTable = false := by
  obtain ⟨matter, body, hbody, hblocks⟩ := exists_opening_of_renderPage h
  unfold kindBlocks at hbody
  rw [hkind] at hbody
  obtain ⟨contents, table, hcontents, htable, rfl⟩ :=
    exists_table_of_enumBlocks (mapError_eq_ok.1 hbody) hmembers
  obtain rfl := Except.ok.inj ((pageTexts_of_enumeration hkind).symm.trans htexts)
  refine ⟨{ kind := .frontmatter, text := matter } :: backLink ctx placed.lineage ::
    Block.heading 2 placed.declaration.name ::
      ((if placed.declaration.pageSummary.isEmpty then []
        else Fragment.richText placed.declaration.pageSummary) ++
      commentBlocks? placed.declaration.comment ++ contents ++ [Block.heading 3 "Members"]),
    table, by simp [hblocks], htable, fun block hm hk => ?_⟩
  simp only [List.mem_cons, List.mem_append, List.not_mem_nil, or_false] at hm
  rcases hm with rfl | rfl | rfl | ((hm | hm) | hm) | rfl
  · cases hk
  · have hsign : (backLink ctx placed.lineage).text.firstSign? = some '[' := rfl
    exact not_isTable_linkBlock (by simp [hsign]) (by simp [hsign])
  · cases hk
  · obtain ⟨y, hy, hread⟩ := exists_of_mem_richText hm
    exact hnone y (List.mem_append_left _ hy) block hread hk
  · obtain ⟨y, hy, hread⟩ := exists_of_mem_commentBlocks? hk hm
    exact hnone y (List.mem_append_right _ hy) block hread hk
  · exact hlayout.not_isTable_of_mem_contents hcontents hm hk
  · cases hk

/-- The first table after the top heading of such a page is that of the members, linked and
cleaned. -/
theorem firstTable?_of_renderPage (hlayout : ctx.layout.ShowsTables)
    (h : renderPage ctx placed location = .ok rendered)
    (hkind : placed.declaration.kind = .enumeration)
    (hmembers : placed.declaration.childrenOf .enumMember ≠ [])
    {texts : List Text} (htexts : pageTexts ctx placed.declaration = .ok texts)
    (hnone : ∀ x ∈ texts, HoldsNoTable ctx.refs x) {top : Block} {after : List Block}
    (hcut : Overview.cutAtTop? ((rendered.link ctx.refs.linkTable).repair maxHeadingLevel).blocks =
      some (top, after)) :
    ∃ table shown, memberTable ctx (placed.declaration.childrenOf .enumMember) = .ok table ∧
      finishBlock? ctx.refs.linkTable table = some shown ∧ shown.isTable = true ∧
      Overview.firstTable? after = some shown := by
  obtain ⟨front, table, hblocks, htable, hfront⟩ :=
    exists_table_of_renderPage hlayout h hkind hmembers htexts hnone
  have hbar := hlayout.isTable_memberTable htable
  obtain ⟨shown, hshown, hbar'⟩ := exists_finishBlock?_of_isTable ctx.refs hbar
  have hsettled : settleBlock? ctx.refs table = some shown := by
    rw [settleBlock?_of_not_heading, hshown]
    rw [Block.isHeading, (isTable_iff.1 hbar).1]
    rfl
  have hcontents :
      ((rendered.link ctx.refs.linkTable).repair maxHeadingLevel).blocks.filter Block.isContent =
        (front.filter Block.isContent).filterMap (settleBlock? ctx.refs) ++ [shown] := by
    have htext := isContent_of_text (isTable_iff.1 hbar).1
    rw [filter_isContent_finish, hblocks, List.filter_append, List.filterMap_append,
      List.filter_cons_of_pos htext, List.filter_nil, List.filterMap_cons_some hsettled,
      List.filterMap_nil]
  have honly : ∀ block ∈ ((rendered.link ctx.refs.linkTable).repair maxHeadingLevel).blocks,
      block.isTable = true → block = shown := by
    intro block hm ht
    have hmem : block ∈ ((rendered.link ctx.refs.linkTable).repair maxHeadingLevel).blocks.filter
        Block.isContent := List.mem_filter.2 ⟨hm, isContent_of_text (isTable_iff.1 ht).1⟩
    rw [hcontents, List.mem_append, List.mem_singleton] at hmem
    refine hmem.resolve_left fun hmem => ?_
    obtain ⟨source, hsource, hsettled⟩ := List.mem_filterMap.1 hmem
    obtain ⟨hk, hlinked⟩ := isTable_of_settleBlock? hsettled ht
    rw [hfront source (List.mem_filter.1 hsource).1 hk] at hlinked
    cases hlinked
  obtain ⟨hk, before, hsplit⟩ := Overview.exists_append_of_cutAtTop? hcut
  rw [hsplit] at hcontents honly
  exact ⟨table, shown, htable, hshown, hbar', Overview.firstTable?_of_last hk hbar'
    (by rw [hcontents, List.getLast?_concat]) honly⟩

end

/-! ### Sites -/

namespace Site

variable {plan : Plan} {root : Declaration} {site : Site} {log : Log}

/-- What an entry has from the declaration of its page, where `texts` are the texts that are read
for that page. -/
structure OwnEntry (ctx : PageContext) (texts : List Text) (visited : Placed × Document)
    (listed : Block × List Block) : Prop where
  /-- The heading of an entry is the top heading of the page.  The entry of an enum is meant to have
  the name of the enum instead, whatever heads its page, so nothing is said of it here. -/
  heading : visited.1.declaration.kind ≠ .enumeration →
    ∃ top, IsTopHeading visited.2.blocks top ∧ listed.1 = Block.heading 3 top.text
  /-- It is the name of the declaration, unless a text has a heading of the first level. -/
  name : (∀ x ∈ texts, HoldsNoTitle x) →
    listed.1 = Block.heading 3 visited.1.declaration.name
  /-- The entry of an enum with members ends with their table as the page shows it, unless running
  text of a comment begins with a bar. -/
  table : ctx.layout.ShowsTables → visited.1.declaration.kind = .enumeration →
    visited.1.declaration.childrenOf .enumMember ≠ [] → (∀ x ∈ texts, HoldsNoTable ctx.refs x) →
    ∃ table shown again,
      memberTable ctx (visited.1.declaration.childrenOf .enumMember) = .ok table ∧
      finishBlock? ctx.refs.linkTable table = some shown ∧ shown ∈ visited.2.blocks ∧
      finishBlock? ctx.refs.linkTable shown = some again ∧ listed.2.getLast? = some again

/-- The entry of a rendered page, once the overview is finished. -/
theorem ownEntry_of_rendered {ctx : PageContext} {placed : Placed} {location : Text}
    {rendered : Document} (h : renderPage ctx placed location = .ok rendered)
    {listed : Block × List Block}
    (hentry : Overview.entry ctx.refs (detailOf
      (placed, (rendered.link ctx.refs.linkTable).repair maxHeadingLevel)) = listed.1 :: listed.2) :
    ∃ texts, pageTexts ctx placed.declaration = .ok texts ∧
      OwnEntry ctx texts (placed, (rendered.link ctx.refs.linkTable).repair maxHeadingLevel)
        (listed.1, listed.2.filterMap (finishBlock? ctx.refs.linkTable)) := by
  obtain ⟨texts, htexts, -⟩ := composed_renderPage h
  obtain ⟨top, after, hcut, htop, -⟩ := exists_top_of_rendered ctx.refs h
  rw [Overview.entry, List.cons_append, List.cons.injEq] at hentry
  have hheading : listed.1 = Block.heading 3 top.text := by
    rw [← hentry.1]
    simp only [detailOf, hcut]
  refine ⟨texts, htexts, fun _ => ⟨top, htop, hheading⟩, fun hnone => ?_,
    fun hlayout hkind hmembers hnone => ?_⟩
  · obtain ⟨after', hcut'⟩ := cutAtTop?_of_renderPage h htexts hnone
    have htitle : top = Block.heading 2 placed.declaration.name :=
      (Prod.mk.inj (Option.some.inj (hcut.symm.trans hcut'))).1
    rw [hheading, htitle]
    exact congrArg (fun text => { kind := .heading, text, level := 3 : Block }) (Text.strip_strip _)
  · obtain ⟨table, shown, htable, hshown, hbar, hfirst⟩ :=
      firstTable?_of_renderPage hlayout h hkind hmembers htexts hnone hcut
    obtain ⟨again, hagain, -⟩ := exists_finishBlock?_of_isTable ctx.refs hbar
    obtain ⟨-, before, hsplit⟩ := Overview.exists_append_of_cutAtTop? hcut
    have hafter : shown ∈ after := List.mem_of_find?_eq_some hfirst
    have hm : shown ∈ ((rendered.link ctx.refs.linkTable).repair maxHeadingLevel).blocks :=
      hsplit ▸ List.mem_append_right _ (List.mem_cons_of_mem _ hafter)
    have hlast : listed.2.getLast? = some shown := by
      have hkind : placed.declaration.kind = .enumeration := hkind
      rw [← hentry.2]
      simp [detailOf, hcut, hkind, hfirst]
    exact ⟨table, shown, again, htable, hshown, hm, hagain, getLast?_filterMap hlast hagain⟩

theorem forall_ownEntry_of_build (h : build plan root = .ok (site, log)) :
    List.Forall₂ (fun visited listed => ∃ texts,
        pageTexts (contextFor plan root) visited.1.declaration = .ok texts ∧
          OwnEntry (contextFor plan root) texts visited listed)
      (groupedPages root site) (listedEntries site.overview.blocks) := by
  refine (forall_entry_of_build h).imp fun visited listed hlisted => ?_
  obtain ⟨-, rendered, drafted, hrendered, hpage, hentry, rfl⟩ := hlisted
  rw [refs_of_build h] at hpage hentry ⊢
  obtain ⟨placed, page⟩ := visited
  dsimp only at hpage
  subst hpage
  exact ownEntry_of_rendered hrendered hentry

/-- In the overview of every site that is made, an entry has the top heading of its page, which is
the name of the declaration unless a text that is read has a heading of the first level; and the
entry of an enum has the table of the members unless running text that is read begins with a bar.  A
site is made of every tree whose types can be shown. -/
theorem entries_are_own (plan : Plan) (root : Declaration) :
    (∀ site log, build plan root = .ok (site, log) →
      List.Forall₂ (fun visited listed => ∃ texts,
          pageTexts (contextFor plan root) visited.1.declaration = .ok texts ∧
            OwnEntry (contextFor plan root) texts visited listed)
        (groupedPages root site) (listedEntries site.overview.blocks)) ∧
      (plan.layout.LaysOut → root.wellNamed = true → Succeeds (build plan root)) :=
  ⟨fun _ _ h => forall_ownEntry_of_build h, Site.succeeds_build⟩

/-- An enum with one member. -/
def statusEnum (summary : Text) : Declaration where
  name := "Status"
  kind := .enumeration
  comment := some { summary := summary }
  signatures := []
  children := [
    { name := "Active"
      kind := .enumMember
      comment := none
      signatures := []
      children := []
      type := none
      flags := {}
      defaultValue := some "\"ACTIVE\"" }]
  type := none
  flags := {}
  defaultValue := none

/-- A class. -/
def sessionClass (summary : Text) : Declaration where
  name := "Session"
  kind := .classType
  comment := some { summary := summary }
  signatures := []
  children := []
  type := none
  flags := {}
  defaultValue := none

/-- A project with both. -/
def statusProject (session status : Text) : Declaration where
  name := "sdk"
  kind := .project
  comment := none
  signatures := []
  children := [sessionClass session, statusEnum status]
  type := none
  flags := {}
  defaultValue := none

/-- The pages of such a project, group by group. -/
theorem groupedPages_statusProject {session status : Text}
    (h : build plan (statusProject session status) = .ok (site, log)) :
    ∃ first second, groupedPages (statusProject session status) site =
      [(⟨statusEnum status, [(statusProject session status).asAncestor]⟩, second),
        (⟨sessionClass session, [(statusProject session status).asAncestor]⟩, first)] := by
  have hlength : site.pages.length = 2 := (followsWalk_of_build h).pages.length_eq.symm
  obtain ⟨first, second, hpages⟩ := List.length_eq_two.1 hlength
  refine ⟨first, second, ?_⟩
  unfold groupedPages
  rw [hpages]
  rfl

/-- The table of the enum. -/
def activeTable : Block :=
  Block.paragraph ("| Name | Value | Description |\n" ++ ("|------|-------|-------------|\n" ++
    "| \x60Active\x60 | \x60\"ACTIVE\"\x60 | — |"))

/-- A project whose comments have headings of the second level. -/
def sectionsProject : Declaration :=
  statusProject "Opens a session.\n\n## Usage" "## States"

/-- Headings of the second level take nothing from the entries, and the table of the members ends
the entry of the enum. -/
theorem entries_are_own_sections :
    ∃ site log, build {} sectionsProject = .ok (site, log) ∧
      ∃ status session, listedEntries site.overview.blocks = [status, session] ∧
        status.1 = Block.heading 3 "Status" ∧ session.1 = Block.heading 3 "Session" ∧
        status.2.getLast? = some activeTable := by
  obtain ⟨hown, hsucceeds⟩ := entries_are_own {} sectionsProject
  obtain ⟨⟨site, log⟩, h⟩ := hsucceeds laysOut_standard (by decide +kernel)
  have hentries := hown site log h
  obtain ⟨first, second, hgrouped⟩ := groupedPages_statusProject h
  generalize hlisted : listedEntries site.overview.blocks = listed at hentries
  rw [show sectionsProject = statusProject _ _ from rfl, hgrouped] at hentries
  obtain _ | ⟨⟨texts, htexts, hstatus⟩, _ | ⟨⟨texts', htexts', hsession⟩, _ | _⟩⟩ := hentries
  have hread : pageTexts (contextFor {} sectionsProject) (statusEnum "## States") =
      .ok ["## States"] := by
    decide +kernel
  have hread' : pageTexts (contextFor {} sectionsProject)
      (sessionClass "Opens a session.\n\n## Usage") = .ok ["Opens a session.\n\n## Usage"] := by
    decide +kernel
  obtain rfl : texts = ["## States"] := Except.ok.inj (htexts.symm.trans hread)
  obtain rfl : texts' = ["Opens a session.\n\n## Usage"] :=
    Except.ok.inj (htexts'.symm.trans hread')
  have hmembers : (statusEnum "## States").childrenOf .enumMember ≠ [] := by decide
  obtain ⟨table, shown, again, htable, hshown, -, hagain, hlast⟩ :=
    hstatus.table showsTables_standard rfl hmembers (by decide +kernel)
  have hlaidOut : memberTable (contextFor {} sectionsProject)
      ((statusEnum "## States").childrenOf .enumMember) = .ok activeTable := by
    decide +kernel
  obtain rfl : table = activeTable := Except.ok.inj (htable.symm.trans hlaidOut)
  have hkept : finishBlock? (contextFor {} sectionsProject).refs.linkTable activeTable =
      some activeTable := by
    rw [ReferenceMap.linkTable_of_pairwise (by decide +kernel)]
    decide +kernel
  obtain rfl : shown = activeTable := Option.some.inj (hshown.symm.trans hkept)
  obtain rfl : again = activeTable := Option.some.inj (hagain.symm.trans hkept)
  exact ⟨site, log, h, _, _, hlisted, hstatus.name (by decide +kernel),
    hsession.name (by decide +kernel), hlast⟩

/-- A project whose comments have a heading of the first level and a table. -/
def titledProject : Declaration :=
  statusProject "# Usage\n\nOpens a session." "Account states.\n\n| State | Meaning |"

/-- What a page is listed with is read off the page as it is rendered. -/
theorem listed_eq_of_drawn {ctx : PageContext} {table : LinkTable} {placed : Placed}
    {location : Text} {rendered : Document} {drafted listed : Block × List Block}
    (h : renderPage ctx placed location = .ok rendered)
    (hentry : Overview.entry ctx.refs (detailOf (placed,
      (rendered.link table).repair maxHeadingLevel)) = drafted.1 :: drafted.2)
    (hdrawn : ((renderPage ctx placed location).toOption.map fun rendered =>
        let entry := Overview.entry ctx.refs (detailOf (placed,
          (rendered.link table).repair maxHeadingLevel))
        (entry.head?, entry.tail.filterMap (finishBlock? table))) =
      some (some listed.1, listed.2)) :
    (drafted.1, drafted.2.filterMap (finishBlock? table)) = listed := by
  rw [h] at hdrawn
  simp only [Except.toOption, Option.map_some, hentry, List.head?_cons, List.tail_cons,
    Option.some.injEq, Prod.mk.injEq] at hdrawn
  exact Prod.ext hdrawn.1 hdrawn.2

/-- There the entry of the class has the heading of its comment, and that of the enum has the table
of its comment and not that of the members. -/
theorem entries_not_own_titled :
    ∃ site log, build {} titledProject = .ok (site, log) ∧
      (groupedPages titledProject site).map (·.1.declaration.name) = ["Status", "Session"] ∧
      listedEntries site.overview.blocks =
        [(Block.heading 3 "Status",
            [Block.paragraph "Account states.", Block.paragraph "| State | Meaning |"]),
          (Block.heading 3 "Usage", [Block.paragraph "Opens a session.",
            Block.paragraph "[View full documentation →](/api/classes/session)"])] := by
  obtain ⟨⟨site, log⟩, h⟩ := @succeeds_build {} titledProject laysOut_standard (by decide +kernel)
  have hrefs := refs_of_build h
  have hentries := forall_entry_of_build h
  obtain ⟨first, second, hgrouped⟩ := groupedPages_statusProject h
  rw [← show titledProject = statusProject _ _ from rfl] at hgrouped
  refine ⟨site, log, h, by rw [hgrouped]; rfl, ?_⟩
  have htable := ReferenceMap.linkTable_of_pairwise
    (show (contextFor {} titledProject).refs.names.Pairwise _ by decide +kernel)
  generalize listedEntries site.overview.blocks = listed at hentries ⊢
  rw [hgrouped] at hentries
  obtain _ | ⟨⟨hat, rendered, drafted, hrendered, hpage, hentry, rfl⟩,
    _ | ⟨⟨hat', rendered', drafted', hrendered', hpage', hentry', rfl⟩, _ | _⟩⟩ := hentries
  dsimp only at hat hat' hrendered hrendered' hpage hpage'
  rw [hpage, hrefs, htable] at hentry
  rw [hpage', hrefs, htable] at hentry'
  rw [hat] at hrendered
  rw [hat'] at hrendered'
  rw [hrefs, htable]
  exact congrArg₂ (fun status session => [status, session])
    (listed_eq_of_drawn hrendered hentry (by decide +kernel))
    (listed_eq_of_drawn hrendered' hentry' (by decide +kernel))

end Site

end ApiReference
