import ApiReference.Proofs.Fields
import ApiReference.Proofs.WellNamed

/-! # Tags of rendered pages

A page is assembled from the texts that it shows.  So what is nested in each text is nested on the
page, and a stray closing tag on the page is one in a text (`tags_of_renderPage`).  Linking and
repairing such a page then drop no tag but those of fields whose content is all gone once the blocks of
the linked page are tidied (`fieldsDropped_of_nested`). -/

namespace ApiReference

/-! ### Tags of assembled blocks -/

theorem filter_isContainer_richText (x : Text) :
    (Fragment.richText x).filter Block.isContainer =
      (Document.blocksOf x).filter Block.isContainer := by
  rw [Fragment.richText, List.filter_filter]
  congr 1
  funext block
  cases hk : block.kind <;> simp [Block.isContainer, hk]

theorem filter_isContainer_punctuate (blocks : List Block) :
    (Fragment.punctuate blocks).filter Block.isContainer = blocks.filter Block.isContainer := by
  fun_induction Fragment.punctuate blocks with
  | case1 => rfl
  | case2 last ht =>
      have hk : last.kind = .text := by simpa using ht
      simp [Block.paragraph, Block.isContainer, hk]
  | case3 last ht => rfl
  | case4 block more hne ih => rw [List.filter_cons, List.filter_cons, ih]

theorem filter_isContainer_prose (x : Text) :
    (Fragment.prose x).filter Block.isContainer =
      (Document.blocksOf x).filter Block.isContainer :=
  (filter_isContainer_punctuate _).trans (filter_isContainer_richText x)

/-- How the blocks of a nested text are read inside containers. -/
theorem read_of_nested {blocks read : List Block} (hn : Nested blocks)
    (hsame : read.filter Block.isContainer = blocks.filter Block.isContainer) {opened : List Text}
    (hfree : ∀ name ∈ opened, isKeptWhenStray name = false) :
    openedAfter? opened read = some opened ∧ strayNames opened read = strayNames [] blocks := by
  have hread : openedAfter? [] read = some [] := by
    rw [← openedAfter?_filter_isContainer, hsame, openedAfter?_filter_isContainer]
    exact hn
  have hstray : strayNames [] read = strayNames [] blocks := by
    rw [← strayNames_filter, hsame, strayNames_filter]
  rw [← hstray]
  exact openedAfter?_append_opened hfree hread

theorem read_wrap {name : Text} (attributes : Text) {content : List Block} {opened : List Text}
    (h : openedAfter? (name :: opened) content = some (name :: opened)) :
    openedAfter? opened (Fragment.wrap name content attributes) = some opened ∧
      strayNames opened (Fragment.wrap name content attributes) =
        strayNames (name :: opened) content := by
  have ho : (Block.openTag name attributes false).opens = true := rfl
  have hc : (Block.closeTag name).closes = true := rfl
  have hopen : nextOpened? opened (Block.openTag name attributes false) = some (name :: opened) :=
    nextOpened?_opens opened ho
  have hclose : nextOpened? (name :: opened) (Block.closeTag name) = some opened :=
    nextOpened?_closes opened hc
  have hstray : isStray (name :: opened) (Block.closeTag name) = false := by
    simp [isStray, Block.closeTag]
  unfold Fragment.wrap
  rw [List.cons_append, openedAfter?, hopen, Option.bind_some, openedAfter?_append, h,
    Option.bind_some, strayNames, openedBy_of_nextOpened? hopen, strayNames_append,
    openedBlocks_of_openedAfter? h]
  refine ⟨by rw [openedAfter?, hclose, Option.bind_some, openedAfter?], ?_⟩
  have hopened : isStray opened (Block.openTag name attributes false) = false :=
    isStray_content opened rfl
  simp [strayNames, hstray, hopened]

/-- Where the texts are nested, the blocks put together from them leave open what was open, and
their stray closing tags are those of the texts. -/
theorem Assembled.read {texts : List Text} {blocks : List Block} (h : Assembled texts blocks)
    (hn : ∀ x ∈ texts, Nested (Document.blocksOf x)) {opened : List Text}
    (hfree : texts = [] ∨ ∀ name ∈ opened, isKeptWhenStray name = false) :
    openedAfter? opened blocks = some opened ∧
      strayNames opened blocks = texts.flatMap fun x => strayNames [] (Document.blocksOf x) := by
  induction h generalizing opened with
  | nil => exact ⟨rfl, rfl⟩
  | @content block hb =>
      have hc := closes_of_not_isContainer hb
      have hnext := nextOpened?_content opened (opens_of_not_isContainer hb) hc
      simp [openedAfter?, hnext, strayNames, isStray_content opened hc]
  | richText x =>
      have hopened := hfree.resolve_left (List.cons_ne_nil _ _)
      rw [List.flatMap_cons, List.flatMap_nil, List.append_nil]
      exact read_of_nested (hn x List.mem_cons_self) (filter_isContainer_richText x) hopened
  | prose x =>
      have hopened := hfree.resolve_left (List.cons_ne_nil _ _)
      rw [List.flatMap_cons, List.flatMap_nil, List.append_nil]
      exact read_of_nested (hn x List.mem_cons_self) (filter_isContainer_prose x) hopened
  | append ha hb iha ihb =>
      obtain ⟨hreadA, hstrayA⟩ := iha (fun x hx => hn x (List.mem_append_left _ hx))
        (hfree.imp_left fun e => (List.append_eq_nil_iff.1 e).1)
      obtain ⟨hreadB, hstrayB⟩ := ihb (fun x hx => hn x (List.mem_append_right _ hx))
        (hfree.imp_left fun e => (List.append_eq_nil_iff.1 e).2)
      rw [openedAfter?_append, hreadA, Option.bind_some, strayNames_append,
        openedBlocks_of_openedAfter? hreadA, hstrayA, hstrayB, List.flatMap_append]
      exact ⟨hreadB, rfl⟩
  | @wrap texts content name attributes hname hc ih =>
      have hinner : texts = [] ∨ ∀ other ∈ name :: opened, isKeptWhenStray other = false := by
        refine hfree.elim .inl fun hopened => ?_
        by_cases hkept : isKeptWhenStray name = true
        · exact .inl (hname hkept)
        · exact .inr (List.forall_mem_cons.2 ⟨by simpa using hkept, hopened⟩)
      obtain ⟨hread, hstray⟩ := ih hn hinner
      obtain ⟨hread', hstray'⟩ := read_wrap attributes hread
      exact ⟨hread', hstray'.trans hstray⟩

/-! ### Linking and repairing -/

theorem leavesTags_linkBlock (table : LinkTable) : LeavesTags (linkBlock table) := by
  intro block
  unfold linkBlock
  split
  · next hk =>
    have htext := not_isContainer_of_text (by simpa using hk : block.kind = .text)
    dsimp only
    split
    · exact .inl rfl
    · exact .inr ⟨htext, rfl⟩
  · exact .inl rfl

/-- Tidying the blocks of a linked document keeps its tags. -/
theorem filter_isContainer_tidied_link (doc : Document) (table : LinkTable) (maxLevel : Int) :
    (tidied maxLevel (doc.link table).blocks).filter Block.isContainer =
      doc.blocks.filter Block.isContainer := by
  rw [tidied, filter_isContainer_filterMap_cleanBlock?, (leavesTags_demote maxLevel).filter_map]
  exact (leavesTags_linkBlock table).filter_map doc.blocks

/-- Repairing a nested document after linking it drops nothing of its tidied blocks but the tags of
fields without content. -/
theorem fieldsDropped_of_nested {doc : Document} (h : Nested doc.blocks) (table : LinkTable)
    (maxLevel : Int) :
    FieldsDropped (tidied maxLevel (doc.link table).blocks)
      ((doc.link table).repair maxLevel).blocks := by
  have hlinked : Nested (doc.link table).blocks := by
    unfold Nested Document.link
    rw [← openedAfter?_filter_isContainer, (leavesTags_linkBlock table).filter_map,
      openedAfter?_filter_isContainer]
    exact h
  have hdropped : FieldsDropped (tidied maxLevel (balance (doc.link table).blocks))
      ((doc.link table).repair maxLevel).blocks := fieldsDropped_clean _
  rwa [balance_of_nested hlinked] at hdropped

/-- A page is assembled from texts; where each of them is nested, so is the page, and its stray
closing tags are those of the texts.  Linking the page and tidying its blocks then keep its tags, and
repairing the linked page drops nothing of these blocks but fields without content.  A page is rendered
for every declaration whose types can be shown. -/
theorem tags_of_renderPage (ctx : PageContext) (placed : Placed) (location : Text) :
    (∀ doc, renderPage ctx placed location = .ok doc →
      ∃ texts, pageTexts ctx placed.declaration = .ok texts ∧ Assembled texts doc.blocks ∧
        ((∀ x ∈ texts, Nested (Document.blocksOf x)) →
          Nested doc.blocks ∧
            strayNames [] doc.blocks =
              texts.flatMap (fun x => strayNames [] (Document.blocksOf x)) ∧
            ∀ table maxLevel,
              (tidied maxLevel (doc.link table).blocks).filter Block.isContainer =
                  doc.blocks.filter Block.isContainer ∧
                FieldsDropped (tidied maxLevel (doc.link table).blocks)
                  ((doc.link table).repair maxLevel).blocks)) ∧
      (ctx.layout.LaysOut → placed.declaration.wellNamed = true →
        Succeeds (renderPage ctx placed location)) := by
  refine ⟨fun doc h => ?_, fun hlays hnamed => succeeds_renderPage hlays hnamed location⟩
  obtain ⟨texts, htexts, hassembled, -⟩ := composed_renderPage h
  refine ⟨texts, htexts, hassembled, fun hn => ?_⟩
  have hfree : ∀ name ∈ ([] : List Text), isKeptWhenStray name = false := fun _ hm => by cases hm
  obtain ⟨hnested, hstray⟩ := hassembled.read hn (.inr hfree)
  exact ⟨hnested, hstray, fun table maxLevel =>
    ⟨filter_isContainer_tidied_link doc table maxLevel,
      fieldsDropped_of_nested hnested table maxLevel⟩⟩

/-- A function with a container and a field without content in its remarks, and a stray closing tag in
what is said about its parameter. -/
def markedFunction : Declaration where
  name := "run"
  kind := .function
  comment := some {
    remarks := ["<Tip>\n\nIt is quick.\n\n</Tip>\n\n<ParamField path=\"shell\">\n\n</ParamField>"] }
  signatures := [
    { name := "run"
      parameters := [
        { name := "script"
          type := some (.intrinsic "string")
          flags := {}
          comment := some { summary := "The script.\n\n</CodeGroup>" } }]
      type := none
      comment := none }]
  children := []
  type := none
  flags := {}
  defaultValue := none

/-- The texts that are read for its page. -/
def markedTexts : List Text :=
  ["<Tip>\n\nIt is quick.\n\n</Tip>\n\n<ParamField path=\"shell\">\n\n</ParamField>",
    "The script.\n\n</CodeGroup>"]

/-- The names of the tags among blocks. -/
def tagNames (blocks : List Block) : List Text := (blocks.filter Block.isContainer).map (·.name)

/-- What is nested in the texts is nested on the page, and the stray closing tag is the one in the
text.  Of the two fields on the page, only the one with content is left once it is repaired. -/
theorem tags_of_renderPage_marked :
    let ctx := Site.contextFor {} markedFunction
    (∀ x ∈ markedTexts, Nested (Document.blocksOf x)) ∧
      ∃ doc, renderPage ctx ⟨markedFunction, []⟩ [] = .ok doc ∧
        pageTexts ctx markedFunction = .ok markedTexts ∧ Nested doc.blocks ∧
        strayNames [] doc.blocks = ["CodeGroup"] ∧
        FieldsDropped (tidied maxHeadingLevel (doc.link ctx.refs.linkTable).blocks)
          ((doc.link ctx.refs.linkTable).repair maxHeadingLevel).blocks ∧
        tagNames (tidied maxHeadingLevel (doc.link ctx.refs.linkTable).blocks) =
          ["Info", "Tip", "Tip", "ParamField", "ParamField", "Info", "Expandable", "ParamField",
            "CodeGroup", "ParamField", "Expandable"] ∧
        tagNames ((doc.link ctx.refs.linkTable).repair maxHeadingLevel).blocks =
          ["Info", "Tip", "Tip", "Info", "Expandable", "ParamField", "CodeGroup", "ParamField",
            "Expandable"] := by
  intro ctx
  have hn : ∀ x ∈ markedTexts, Nested (Document.blocksOf x) := by
    decide +kernel
  have htexts : pageTexts ctx markedFunction = .ok markedTexts := by
    decide +kernel
  obtain ⟨hpage, hsucceeds⟩ := tags_of_renderPage ctx ⟨markedFunction, []⟩ []
  obtain ⟨doc, hdoc⟩ := hsucceeds laysOut_standard (by decide +kernel)
  obtain ⟨texts, hread, -, hnested⟩ := hpage doc hdoc
  obtain rfl : texts = markedTexts := Except.ok.inj (hread.symm.trans htexts)
  obtain ⟨hwell, hstray, hrepaired⟩ := hnested hn
  obtain ⟨htags, hdropped⟩ := hrepaired ctx.refs.linkTable maxHeadingLevel
  have hnames : (renderPage ctx ⟨markedFunction, []⟩ []).toOption.all fun doc =>
      tagNames doc.blocks == ["Info", "Tip", "Tip", "ParamField", "ParamField", "Info", "Expandable",
          "ParamField", "CodeGroup", "ParamField", "Expandable"] &&
        tagNames ((doc.link ctx.refs.linkTable).repair maxHeadingLevel).blocks ==
          ["Info", "Tip", "Tip", "Info", "Expandable", "ParamField", "CodeGroup", "ParamField",
            "Expandable"] := by
    decide +kernel
  have hnames := of_all_toOption hnames hdoc
  obtain ⟨hbefore, hafter⟩ := Bool.and_eq_true_iff.1 hnames
  refine ⟨hn, doc, hdoc, htexts, hwell, ?_, hdropped, ?_, eq_of_beq hafter⟩
  · rw [hstray]
    decide +kernel
  · rw [tagNames, htags]
    exact eq_of_beq hbefore

end ApiReference
