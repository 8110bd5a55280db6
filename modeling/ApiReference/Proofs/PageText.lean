import ApiReference.Proofs.Marks
import ApiReference.Proofs.RoundTrip
import ApiReference.Proofs.Stages

/-! # The text of a page

A page of a site with the standard layouts is repaired as a list of blocks, but it is read as a
text.  What is read there are the marks that its blocks show, one block after another
(`filter_isMark_blocksOf`): its frontmatter is found again, and neither the separators nor the line
ends of the writing add a mark.  So the text is well formed if and only if these marks are, and it is
where every block stands for itself (`Site.reread_wellFormed_iff`).

The blocks of a comment's text stand for themselves if and only if its fences pair up
(`stands_richText_iff`): code that is left open hides the tags that are written after it. -/

namespace ApiReference

/-! ### Frontmatter stays in front -/

/-- The frontmatter of a title and a description. -/
def standardMatter (title description : Text) : Block :=
  { kind := .frontmatter, text := Layout.standardFrontmatter title description }

/-- Standard frontmatter comes first; its title and its description are on one line each. -/
def BeginsWithMatter (blocks : List Block) : Prop :=
  ∃ title description more, title.IsOneLine ∧ description.IsOneLine ∧
    blocks = standardMatter title description :: more

theorem isOneLine_attributeValue (x : Text) : (Markup.attributeValue x).IsOneLine := by
  have hchar (c d : Char) (h : d ∈ Markup.attributeChar c) : d ≠ '\n' ∧ d ≠ '\r' := by
    unfold Markup.attributeChar at h
    split at h
    · rcases List.mem_cons.1 h with rfl | h
      · decide
      · rw [List.mem_singleton.1 h]
        decide
    · split at h
      · rw [List.mem_singleton.1 h]
        decide
      · split at h
        · cases h
        · next h1 h2 =>
          rw [List.mem_singleton.1 h]
          exact ⟨by simpa using h1, by simpa using h2⟩
  constructor
  · intro hm
    obtain ⟨c, _, h⟩ := List.mem_flatMap.1 hm
    exact (hchar c _ h).1 rfl
  · intro hm
    obtain ⟨c, _, h⟩ := List.mem_flatMap.1 hm
    exact (hchar c _ h).2 rfl

theorem frontmatter_standard (title description : Text) :
    ∃ title' description', title'.IsOneLine ∧ description'.IsOneLine ∧
      Fragment.frontmatter Layout.standard title description =
        .ok (standardMatter title' description') :=
  ⟨_, _, isOneLine_attributeValue title,
    (isOneLine_attributeValue description).mono (Text.strip_subset _), rfl⟩

/-- What is rendered with the standard layouts begins with frontmatter. -/
theorem Site.IsRendered.beginsWithMatter {ctx : PageContext} {doc : Document}
    (hl : ctx.layout = Layout.standard) (h : IsRendered ctx doc) : BeginsWithMatter doc.blocks := by
  rcases h with ⟨placed, location, h⟩ | ⟨details, name, description, h⟩
  · obtain ⟨opening, hopening, h⟩ := bind_eq_ok.1 h
    obtain ⟨body, _, h⟩ := bind_eq_ok.1 h
    cases h
    obtain ⟨matter, hmatter, h⟩ := bind_eq_ok.1 (mapError_eq_ok.1 hopening)
    cases h
    obtain ⟨title, shown, ht, hd, e⟩ :=
      frontmatter_standard placed.declaration.name placed.declaration.describe
    rw [hl, e] at hmatter
    cases hmatter
    exact ⟨title, shown, _, ht, hd, rfl⟩
  · obtain ⟨matter, hmatter, h⟩ := bind_eq_ok.1 h
    cases h
    obtain ⟨title, shown, ht, hd, e⟩ := frontmatter_standard (givenOr name defaultSiteName)
      (givenOr description ("Complete API reference for " ++ givenOr name defaultSiteName ++ ['.']))
    rw [hl, e] at hmatter
    cases hmatter
    exact ⟨title, shown, _, ht, hd, rfl⟩

theorem BeginsWithMatter.link {doc : Document} (h : BeginsWithMatter doc.blocks)
    (table : LinkTable) : BeginsWithMatter (doc.link table).blocks := by
  obtain ⟨title, description, more, ht, hd, e⟩ := h
  refine ⟨title, description, more.map (linkBlock table), ht, hd, ?_⟩
  rw [Document.link, e]
  rfl

namespace Sweep

/-- The block was taken in first, outside every container. -/
def BeginsWith (first : Block) (sweep : Sweep) : Prop := ∃ more, sweep.outer = more ++ [first]

variable {first : Block} {sweep : Sweep}

theorem BeginsWith.add (h : sweep.BeginsWith first) (blocks : List Block) :
    (sweep.add blocks).BeginsWith first := by
  obtain ⟨more, e⟩ := h
  unfold Sweep.add
  split
  · exact ⟨blocks ++ more, by rw [e, List.append_assoc]⟩
  · exact ⟨more, e⟩

theorem beginsWith_closeThrough (closing : Block) {outer more : List Block}
    (e : outer = more ++ [first]) : ∀ (notes : List Text) (loose : List Block) (frames : List Frame),
      (closeThrough closing outer notes loose frames).BeginsWith first
  | notes, loose, [] => ⟨loose ++ more, by rw [closeThrough, e, List.append_assoc]⟩
  | notes, loose, frame :: frames => by
      unfold closeThrough
      split
      · have hrest : BeginsWith first { outer, frames, notes } := ⟨more, e⟩
        exact hrest.add _
      · exact beginsWith_closeThrough closing e _ _ frames

theorem BeginsWith.step (h : sweep.BeginsWith first) (block : Block) :
    (sweep.step block).BeginsWith first := by
  unfold Sweep.step
  split
  · exact h
  · split
    · split
      · obtain ⟨more, e⟩ := h
        exact beginsWith_closeThrough block e _ _ _
      · split
        · exact h.add _
        · exact h
    · exact h.add _

theorem BeginsWith.foldl (h : sweep.BeginsWith first) (blocks : List Block) :
    (blocks.foldl Sweep.step sweep).BeginsWith first := by
  induction blocks generalizing sweep with
  | nil => exact h
  | cons block blocks ih => exact ih (h.step block)

end Sweep

/-- A first block that is no tag stays first when tags are balanced. -/
theorem exists_balance_cons {first : Block} (ho : first.opens = false) (hc : first.closes = false)
    (blocks : List Block) : ∃ more, balance (first :: blocks) = first :: more := by
  have hstep : Sweep.BeginsWith first (Sweep.step {} first) := by
    refine ⟨[], ?_⟩
    simp [Sweep.step, ho, hc, Sweep.add]
  obtain ⟨more, e⟩ := hstep.foldl blocks
  have hrun : balance (first :: blocks) = (Sweep.remaining (blocks.foldl Sweep.step
    (Sweep.step {} first))).reverse := rfl
  rw [hrun, Sweep.remaining, e, ← List.append_assoc, List.reverse_append]
  exact ⟨_, rfl⟩

/-- A first block that opens nothing stays first when closing tags take empty fields away. -/
theorem exists_foldl_addCleaned {first : Block} (ho : first.opens = false) (blocks : List Block) :
    ∀ cleaned : List Block, (∃ more, cleaned = more ++ [first]) →
      ∃ more, blocks.foldl addCleaned cleaned = more ++ [first] := by
  induction blocks with
  | nil => exact fun cleaned h => h
  | cons block blocks ih =>
      rintro _ ⟨more, rfl⟩
      refine ih _ ?_
      cases more with
      | nil =>
          have hw : wouldEmpty block first = false := by simp [wouldEmpty, ho]
          exact ⟨[block], by simp [addCleaned, hw]⟩
      | cons before more =>
          rw [List.cons_append, addCleaned]
          split
          · exact ⟨more, rfl⟩
          · exact ⟨block :: before :: more, rfl⟩

theorem exists_repairBlocks_cons {first : Block} (hk : first.kind = .frontmatter) (maxLevel : Int)
    (blocks : List Block) : ∃ more, repairBlocks maxLevel (first :: blocks) = first :: more := by
  have ho : first.opens = false := by simp [Block.opens, hk]
  have hc : first.closes = false := by simp [Block.closes, hk]
  have hdemote : demote maxLevel first = first := by simp [demote, hk]
  have hclean : cleanBlock? first = some first := by simp [cleanBlock?, hk]
  obtain ⟨more, e⟩ := exists_balance_cons ho hc blocks
  obtain ⟨rest, e'⟩ := exists_foldl_addCleaned ho
    ((more.map (demote maxLevel)).filterMap cleanBlock?) [first] ⟨[], rfl⟩
  refine ⟨rest.reverse, ?_⟩
  rw [repairBlocks, e, List.map_cons, hdemote, clean, List.filterMap_cons_some hclean,
    List.foldl_cons, addCleaned, e', List.reverse_append]
  rfl

theorem BeginsWithMatter.repair {doc : Document} (h : BeginsWithMatter doc.blocks) (maxLevel : Int) :
    BeginsWithMatter (doc.repair maxLevel).blocks := by
  obtain ⟨title, description, more, ht, hd, e⟩ := h
  have hk : (standardMatter title description).kind = .frontmatter := rfl
  obtain ⟨rest, e'⟩ := exists_repairBlocks_cons hk maxLevel more
  exact ⟨title, description, rest, ht, hd, by rw [Document.repair, e, e']⟩

/-! ### Frontmatter is read again -/

/-- A line of frontmatter. -/
def matterLine (key value : Text) : Text := key ++ ": \"" ++ value ++ ['\x22']

/-- The lines of frontmatter. -/
def matterLines (title description : Text) : List Text :=
  [("---" : Text), matterLine "title" title, matterLine "description" description, ("---" : Text)]

theorem standardFrontmatter_eq (title description : Text) :
    Layout.standardFrontmatter title description = Text.unlines (matterLines title description) := by
  have hfirst : ("---\ntitle: \"" : Text) = "---" ++ '\n' :: ("title" ++ ": \"") := by decide
  have hsecond : ("\"\ndescription: \"" : Text) = ['\x22'] ++ '\n' :: ("description" ++ ": \"") := by
    decide
  have hlast : ("\"\n---" : Text) = ['\x22'] ++ '\n' :: Text.unlines [("---" : Text)] := by decide
  unfold Layout.standardFrontmatter matterLines matterLine
  rw [hfirst, hsecond, hlast, Text.unlines_cons (List.cons_ne_nil _ _),
    Text.unlines_cons (List.cons_ne_nil _ _), Text.unlines_cons (List.cons_ne_nil _ _)]
  simp only [List.append_assoc, List.cons_append]

theorem isOneLine_matterLine {key value : Text} (hk : key.IsOneLine) (hv : value.IsOneLine) :
    (matterLine key value).IsOneLine := by
  have hmark : Text.IsOneLine ": \"" := by decide
  have hquote : Text.IsOneLine ['\x22'] := by decide
  exact ((hk.append hmark).append hv).append hquote

theorem shownLines_matterLine (key : Text) {value : Text} (hk : key.IsOneLine)
    (hb : key.isAllBlank = false) (hv : value.IsOneLine) :
    Text.shownLines (matterLine key value) = [matterLine key value] := by
  have hquote : isBlank '\x22' = false := by decide
  refine Text.shownLines_of_isOneLine (isOneLine_matterLine hk hv) ?_ (Text.stripEnd_concat hquote)
  rw [matterLine, List.append_assoc, List.append_assoc, Text.isAllBlank, List.all_append]
  rw [Text.isAllBlank] at hb
  rw [hb, Bool.false_and]

theorem shownLines_standardMatter {title description : Text} (ht : title.IsOneLine)
    (hd : description.IsOneLine) :
    (standardMatter title description).render.shownLines = matterLines title description := by
  have hrule : Text.shownLines "---" = [("---" : Text)] := by decide
  have hlast : Text.unlines [("---" : Text)] = "---" := by decide
  have htitle := shownLines_matterLine "title" (by decide) (by decide) ht
  have hdescription := shownLines_matterLine "description" (by decide) (by decide) hd
  show Text.shownLines (Layout.standardFrontmatter title description) = _
  rw [standardFrontmatter_eq, matterLines, Text.unlines_cons (List.cons_ne_nil _ _),
    Text.unlines_cons (List.cons_ne_nil _ _), Text.unlines_cons (List.cons_ne_nil _ _),
    Text.shownLines_append_newline, Text.shownLines_append_newline,
    Text.shownLines_append_newline, htitle, hdescription, hlast, hrule]
  rfl

/-- Blank lines, and blanks at the ends of lines, do not change where lines are cut. -/
theorem shownOf_of_cutAfterRule? (lines : List Text) :
    (cutAfterRule? (Text.shownOf lines)).map (·.2) =
      (cutAfterRule? lines).map fun cut => Text.shownOf cut.2 := by
  induction lines with
  | nil => rfl
  | cons line lines ih =>
      by_cases hb : line.isAllBlank = true
      · have hr : isRule line = false := by
          by_contra hr
          rw [isAllBlank_of_isRule (by simpa using hr)] at hb
          cases hb
        rw [Text.shownOf_cons_blank hb, ih, cutAfterRule?, hr]
        simp [Function.comp_def]
      · rw [Text.shownOf_cons_visible (by simpa using hb), cutAfterRule?, cutAfterRule?,
          isRule_stripEnd]
        split
        · rfl
        · simpa [Function.comp_def] using ih

theorem plain_matterLine {c : Char} (hb : isBlank c = false) (hc : c ∉ ['\x60', '-', '#', '<'])
    (key value : Text) :
    isFence (matterLine (c :: key) value) = false ∧ isRule (matterLine (c :: key) value) = false ∧
      lineBlock? (matterLine (c :: key) value) = none := by
  have hquote : isBlank '\x22' = false := by decide
  have hstart : Text.stripStart (matterLine (c :: key) value) = matterLine (c :: key) value :=
    Text.stripStart_cons _ hb
  have hstrip : Text.strip (matterLine (c :: key) value) = matterLine (c :: key) value := by
    rw [Text.strip_eq, hstart]
    exact Text.stripEnd_concat hquote
  exact plain_of_strip_eq hstrip hc

/-- The lines of frontmatter are neither marks nor fences. -/
theorem marksOfLines_matterLines (title description : Text) (more : List Text) :
    marksOfLines false (matterLines title description ++ more) = marksOfLines false more := by
  have hrule : isRule ("---" : Text) = true := by decide
  have hfence : isFence ("---" : Text) = false := by decide
  obtain ⟨hf, _, hm⟩ := plain_matterLine (c := 't') (by decide) (by decide) "itle" title
  obtain ⟨hf', _, hm'⟩ :=
    plain_matterLine (c := 'd') (by decide) (by decide) "escription" description
  have htitle : ("title" : Text) = 't' :: "itle" := rfl
  have hdescription : ("description" : Text) = 'd' :: "escription" := rfl
  simp only [matterLines, htitle, hdescription, List.cons_append, List.nil_append, marksOfLines,
    lineBlock?_of_isRule hrule, hfence, hm, hf, hm', hf', Bool.xor_false, Option.toList,
    if_neg Bool.false_ne_true]

/-- The frontmatter ends at the second rule. -/
theorem cutAfterRule?_matterLines (title description : Text) (more : List Text) :
    cutAfterRule? ((matterLines title description).tail ++ more) =
      some ((matterLines title description).tail, more) := by
  have hrule : isRule ("---" : Text) = true := by decide
  obtain ⟨_, hr, _⟩ := plain_matterLine (c := 't') (by decide) (by decide) "itle" title
  obtain ⟨_, hr', _⟩ :=
    plain_matterLine (c := 'd') (by decide) (by decide) "escription" description
  have htitle : ("title" : Text) = 't' :: "itle" := rfl
  have hdescription : ("description" : Text) = 'd' :: "escription" := rfl
  simp only [matterLines, htitle, hdescription, List.tail_cons, List.cons_append, List.nil_append,
    cutAfterRule?, hr, hr', hrule, if_true, if_neg Bool.false_ne_true, Option.map_some]

theorem exists_renderAll_cons {first : Block} {c : Char} {rest : Text}
    (h : first.render = c :: rest) (hc : isBlank c = false) (more : List Block) :
    ∃ x, Block.renderAll (first :: more) = c :: x := by
  obtain ⟨x, e⟩ := Text.exists_stripEnd_cons hc (rest ++ Block.renderAfter first more)
  exact ⟨x ++ ['\n'], by rw [Block.renderAll, h, List.cons_append, e, List.cons_append]⟩

/-- Frontmatter is found again in front, and what comes after it is read line by line. -/
theorem filter_isMark_blocksOf {blocks : List Block} (h : BeginsWithMatter blocks) :
    (Document.blocksOf (Block.renderAll blocks)).filter Block.isMark =
      marksOfLines false (shownLinesOf blocks) := by
  obtain ⟨title, description, more, ht, hd, rfl⟩ := h
  have hdash : isBlank '-' = false := by decide
  have hshown := shownLines_renderAll (standardMatter title description :: more)
  obtain ⟨x, hx⟩ : ∃ x, Block.renderAll (standardMatter title description :: more) = '-' :: x :=
    exists_renderAll_cons rfl hdash more
  obtain ⟨first, rest, hlines⟩ := Text.lines_cons (c := '-') (by decide) (Text.unifyLineEnds x)
  rw [shownLinesOf_cons, shownLines_standardMatter ht hd] at hshown ⊢
  rw [Text.shownLines, hx, Text.unifyLineEnds_cons hdash, hlines,
    Text.shownOf_cons_visible (by simp [Text.isAllBlank, hdash])] at hshown
  obtain ⟨hfirst, hrest⟩ := List.cons.inj hshown
  have hrule : isRule ('-' :: first) = true := by
    rw [← isRule_stripEnd, hfirst]
    decide
  have hcut : (cutAfterRule? rest).map (fun cut => Text.shownOf cut.2) =
      some (shownLinesOf more) := by
    rw [← shownOf_of_cutAfterRule?, hrest]
    exact congrArg (Option.map Prod.snd) (cutAfterRule?_matterLines title description _)
  obtain ⟨⟨matter, after⟩, hc, hafter⟩ := Option.map_eq_some_iff.1 hcut
  rw [Document.blocksOf, hx, Text.unifyLineEnds_cons hdash, hlines, blocksOfAll, if_pos hrule, hc,
    marksOfLines_matterLines, ← hafter, marksOfLines_shownOf]
  exact filter_isMark_blocksOfLines (.paragraph []) after

/-! ### Texts of comments -/

/-- The lines of a text that come after its frontmatter, or all of them. -/
def linesAfterMatter : List Text → List Text
  | [] => []
  | first :: more =>
    match if isRule first then cutAfterRule? more else none with
    | some (_, rest) => rest
    | none => first :: more

theorem linesAfterMatter_subset (lines : List Text) : linesAfterMatter lines ⊆ lines := by
  intro line h
  cases lines with
  | nil => exact h
  | cons first more =>
      rw [linesAfterMatter] at h
      split at h
      · next matter rest hm =>
        split at hm
        · obtain ⟨rfl, _⟩ := cutAfterRule?_eq_some hm
          exact List.mem_cons_of_mem _ (List.mem_append_right _ h)
        · cases hm
      · exact h

/-- Frontmatter is made of first lines only. -/
theorem kind_of_mem_blocksOfLines {held : Pending} {lines : List Text} {block : Block}
    (h : block ∈ blocksOfLines held lines) : block.kind ≠ .frontmatter := by
  intro e
  rcases mem_blocksOfLines h with hk | hk | ⟨line, hm⟩
  · cases hk.symm.trans e
  · cases hk.symm.trans e
  · rcases kind_of_lineBlock? hm with hk | hk
    · cases hk.symm.trans e
    · rw [Block.isContainer, e] at hk
      cases hk

theorem richText_eq (x : Text) :
    Fragment.richText x =
      blocksOfLines (.paragraph []) (linesAfterMatter (Text.lines x.unifyLineEnds)) := by
  have hall (lines : List Text) : (blocksOfLines (.paragraph []) lines).filter
      (fun block => block.kind != .frontmatter) = blocksOfLines (.paragraph []) lines := by
    rw [List.filter_eq_self]
    exact fun block h => by simpa using kind_of_mem_blocksOfLines h
  unfold Fragment.richText Document.blocksOf
  cases Text.lines x.unifyLineEnds with
  | nil => rfl
  | cons first more =>
      rw [blocksOfAll, linesAfterMatter]
      cases if isRule first then cutAfterRule? more else none with
      | none => exact hall _
      | some cut => exact hall _

/-- The blocks of a comment's text all stand for themselves if and only if its fences pair up. -/
theorem stands_richText_iff (x : Text) :
    (∀ block ∈ Fragment.richText x, Stands block) ↔
      inFenceAfter false (linesAfterMatter (Text.lines x.unifyLineEnds)) = false := by
  rw [richText_eq]
  refine stands_blocksOfLines_iff _ (.paragraph []) (by simp [Pending.Kept]) fun line h => ?_
  exact Text.isOneLine_of_mem_lines (Text.not_mem_unifyLineEnds x) (linesAfterMatter_subset _ h)

/-! ### Pages -/

/-- The headings and tags that the lines of a document's blocks show. -/
def Document.shownMarks (doc : Document) : List Block := marksOfLines false (shownLinesOf doc.blocks)

namespace Site

theorem beginsWithMatter_of_mem {plan : Plan} {root : Declaration} {site : Site} {log : Log}
    (hl : plan.layout = Layout.standard) (h : build plan root = .ok (site, log)) {page : Document}
    (hp : page ∈ site.pages ++ [site.overview]) : BeginsWithMatter page.blocks := by
  obtain ⟨rendered, hr, rfl⟩ := exists_rendered_of_mem h hp
  exact ((hr.beginsWithMatter hl).link _).repair _

/-- The text of a page is well formed if and only if the headings and tags that its blocks show are;
where every block stands for itself, these are the headings and tags of the page. -/
theorem reread_wellFormed_iff {plan : Plan} {root : Declaration} {site : Site} {log : Log}
    (hl : plan.layout = Layout.standard) (h : build plan root = .ok (site, log)) {page : Document}
    (hp : page ∈ site.pages ++ [site.overview]) (location title : Text) :
    let reread := (Document.parse page.toText location title).blocks
    (Nested reread ∧ Shallow maxHeadingLevel reread ↔
        Nested page.shownMarks ∧ Shallow maxHeadingLevel page.shownMarks) ∧
      ((∀ block ∈ page.blocks, Stands block) →
        reread.filter Block.isMark = page.blocks.filter Block.isMark ∧
          Nested reread ∧ Shallow maxHeadingLevel reread) := by
  intro reread
  have hmarks : reread.filter Block.isMark = page.shownMarks :=
    filter_isMark_blocksOf (beginsWithMatter_of_mem hl h hp)
  have hiff : Nested reread ∧ Shallow maxHeadingLevel reread ↔
      Nested page.shownMarks ∧ Shallow maxHeadingLevel page.shownMarks := by
    rw [← hmarks, nested_filter_isMark, shallow_filter_isMark]
  refine ⟨hiff, fun hstands => ?_⟩
  have hown : page.shownMarks = page.blocks.filter Block.isMark := marksOfLines_of_stands hstands
  refine ⟨hmarks.trans hown, hiff.2 ?_⟩
  obtain ⟨rendered, _, rfl⟩ := exists_rendered_of_mem h hp
  rw [hown, nested_filter_isMark, shallow_filter_isMark]
  exact ⟨nested_repairBlocks _ _, shallow_repairBlocks _ _⟩

/-- A function with a parameter whose summary begins code and does not end it. -/
def openCodeFunction : Declaration where
  name := "run"
  kind := .function
  comment := none
  signatures := [
    { name := "run"
      parameters := [
        { name := "script"
          type := some (.intrinsic "string")
          flags := {}
          comment := some { summary := "Such as:\n\n\x60\x60\x60\nnpm test" } }]
      type := none
      comment := none }]
  children := []
  type := none
  flags := {}
  defaultValue := none

/-- The code hides the closing tags after it, so the page is not well formed when it is read. -/
theorem reread_not_nested_openCode :
    ∃ site log page, build {} openCodeFunction = .ok (site, log) ∧
      page ∈ site.pages ++ [site.overview] ∧
      ¬ (Nested (Document.parse page.toText [] []).blocks ∧
        Shallow maxHeadingLevel (Document.parse page.toText [] []).blocks) := by
  have hpage : ((build {} openCodeFunction).toOption.any fun built =>
      built.1.pages.any fun page => !decide (Nested page.shownMarks)) = true := by
    decide +kernel
  obtain ⟨⟨site, log⟩, h, hpage⟩ := exists_ok_of_any hpage
  obtain ⟨page, hp, hnot⟩ := List.any_eq_true.1 hpage
  have hmem : page ∈ site.pages ++ [site.overview] := List.mem_append_left _ hp
  refine ⟨site, log, page, h, hmem, fun hread => ?_⟩
  have hnested := ((reread_wellFormed_iff rfl h hmem [] []).1.1 hread).1
  simp [hnested] at hnot

end Site

end ApiReference
