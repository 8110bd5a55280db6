import ApiReference.Proofs.CallLines
import ApiReference.Proofs.DescribedBlocks
import ApiReference.Proofs.Fields

/-! # Pages of functions

The page of a function without comments shows a call line for each signature and, folded, the
fields of its parameters and of its result (`exists_of_signatureBlocks`).  Where the texts of the
fields are nested, the page is linked and repaired block by block, fields without content apart
(`blocks_finish_of_nested`), and folded fields hide everything but their headings
(`FoldedFields.hidesTexts`). -/

namespace ApiReference

/-! ### Settled blocks -/

/-- A block of a page, linked, demoted and cleaned, unless nothing is left of it. -/
def settleBlock? (refs : ReferenceMap) (block : Block) : Option Block :=
  cleanBlock? (demote maxHeadingLevel (linkBlock refs.linkTable block))

section

variable {refs : ReferenceMap} {block settled : Block}

theorem settleBlock?_of_not_heading (h : block.isHeading = false) :
    settleBlock? refs block = finishBlock? refs.linkTable block := by
  have hkind : ((linkBlock refs.linkTable block).kind == .heading) = false := by
    rw [kind_linkBlock]
    exact h
  rw [settleBlock?, demote, hkind]
  rfl

theorem settleBlock?_of_isContainer (h : block.isContainer = true) :
    settleBlock? refs block = some block := by
  rw [settleBlock?_of_not_heading (Overview.isHeading_of_isContainer h)]
  exact (keepsMarks_finishBlock? refs).marks block (by rw [Block.isMark, h, Bool.or_true])

/-- The headings that are left are those that are not too deep. -/
theorem settleBlock?_eq_some_iff_of_heading (h : settled.isHeading = true) :
    settleBlock? refs block = some settled ↔ block = settled ∧ settled.level ≤ maxHeadingLevel := by
  have hkind : settled.kind = .heading := beq_iff_eq.1 h
  by_cases hb : block.kind = .heading
  · rw [settleBlock?, linkBlock_of_ne (by simp [hb])]
    by_cases hdeep : maxHeadingLevel < block.level
    · rw [demote, if_pos (by simp [hb, hdeep])]
      constructor
      · intro hcleaned
        obtain ⟨hk, -⟩ | ⟨-, hk, -⟩ := cleanBlock?_eq_some hcleaned
        · exact absurd rfl hk
        · cases hk.symm.trans hkind
      · rintro ⟨rfl, hle⟩
        omega
    · rw [demote, if_neg (by simp [hdeep]), cleanBlock?, if_neg (by simp [hb]), Option.some_inj]
      refine ⟨?_, And.left⟩
      rintro rfl
      exact ⟨rfl, by omega⟩
  · have hnot : block.isHeading = false := by simpa [Block.isHeading] using hb
    constructor
    · intro hsettled
      rw [settleBlock?_of_not_heading hnot] at hsettled
      exact absurd ((kind_of_finishBlock? hsettled).symm.trans hkind) hb
    · rintro ⟨rfl, -⟩
      exact absurd hkind hb

theorem mem_filterMap_settleBlock?_iff (h : settled.isHeading = true) {blocks : List Block} :
    settled ∈ blocks.filterMap (settleBlock? refs) ↔
      settled ∈ blocks ∧ settled.level ≤ maxHeadingLevel := by
  rw [List.mem_filterMap]
  simp only [settleBlock?_eq_some_iff_of_heading h]
  constructor
  · rintro ⟨block, hm, rfl, hlevel⟩
    exact ⟨hm, hlevel⟩
  · exact fun hm => ⟨settled, hm.1, rfl, hm.2⟩

end

section

variable (refs : ReferenceMap)

theorem filterMap_settleBlock? (blocks : List Block) :
    blocks.filterMap (settleBlock? refs) =
      ((blocks.map (linkBlock refs.linkTable)).map (demote maxHeadingLevel)).filterMap
        cleanBlock? := by
  rw [List.filterMap_map, List.filterMap_map]
  rfl

/-- Tags of containers are left as they are. -/
theorem filter_isContainer_filterMap_settleBlock? (blocks : List Block) :
    (blocks.filterMap (settleBlock? refs)).filter Block.isContainer =
      blocks.filter Block.isContainer := by
  rw [filterMap_settleBlock?, filter_isContainer_filterMap_cleanBlock?,
    (leavesTags_demote maxHeadingLevel).filter_map,
    (leavesTags_linkBlock refs.linkTable).filter_map]

theorem openedAfter?_filterMap_settleBlock? (opened : List Text) (blocks : List Block) :
    openedAfter? opened (blocks.filterMap (settleBlock? refs)) = openedAfter? opened blocks := by
  rw [← openedAfter?_filter_isContainer, filter_isContainer_filterMap_settleBlock?,
    openedAfter?_filter_isContainer]

theorem strayNames_filterMap_settleBlock? (opened : List Text) (blocks : List Block) :
    strayNames opened (blocks.filterMap (settleBlock? refs)) = strayNames opened blocks := by
  rw [← strayNames_filter, filter_isContainer_filterMap_settleBlock?, strayNames_filter]

theorem filterMap_settleBlock?_wrap (name : Text) (content : List Block) (attributes : Text) :
    (Fragment.wrap name content attributes).filterMap (settleBlock? refs) =
      Fragment.wrap name (content.filterMap (settleBlock? refs)) attributes := by
  rw [Fragment.wrap, List.cons_append,
    List.filterMap_cons_some (settleBlock?_of_isContainer (by rfl)), List.filterMap_append,
    List.filterMap_cons_some (settleBlock?_of_isContainer (by rfl))]
  rfl

/-- A nested document is linked and repaired block by block, but for fields without content. -/
theorem blocks_finish_of_nested {doc : Document} (h : Nested doc.blocks) :
    ((doc.link refs.linkTable).repair maxHeadingLevel).blocks =
      ((doc.blocks.filterMap (settleBlock? refs)).foldl addCleaned []).reverse := by
  have hlinked : Nested (doc.blocks.map (linkBlock refs.linkTable)) := by
    unfold Nested
    rw [← openedAfter?_filter_isContainer, (leavesTags_linkBlock _).filter_map,
      openedAfter?_filter_isContainer]
    exact h
  change clean ((balance (doc.blocks.map (linkBlock refs.linkTable))).map
    (demote maxHeadingLevel)) = _
  rw [balance_of_nested hlinked, clean, filterMap_settleBlock?]

/-- A nested document is linked and repaired before and after each heading that is not too deep. -/
theorem blocks_finish_of_nested_of_heading {doc : Document} {before after : List Block}
    {heading : Block} (h : Nested doc.blocks) (hblocks : doc.blocks = before ++ heading :: after)
    (hh : heading.isHeading = true) (hlevel : heading.level ≤ maxHeadingLevel) :
    ((doc.link refs.linkTable).repair maxHeadingLevel).blocks =
      ((before.filterMap (settleBlock? refs)).foldl addCleaned []).reverse ++
        heading :: ((after.filterMap (settleBlock? refs)).foldl addCleaned []).reverse := by
  have hsettled : settleBlock? refs heading = some heading :=
    (settleBlock?_eq_some_iff_of_heading hh).2 ⟨rfl, hlevel⟩
  have hkind : heading.kind = .heading := beq_iff_eq.1 hh
  have hopens : heading.opens = false := by
    rw [Block.opens, hkind]
    rfl
  have hcloses : heading.closes = false := by
    rw [Block.closes, hkind]
    rfl
  have hafter := foldl_addCleaned_append_of_not_opens hopens
    ((before.filterMap (settleBlock? refs)).foldl addCleaned [])
    (after.filterMap (settleBlock? refs)) []
  rw [List.nil_append] at hafter
  rw [blocks_finish_of_nested refs h, hblocks, List.filterMap_append,
    List.filterMap_cons_some hsettled, List.foldl_append, List.foldl_cons,
    addCleaned_of_not_closes hcloses, hafter, List.reverse_append, List.reverse_cons,
    List.append_assoc, List.singleton_append]

end

/-! ### Headings of fields -/

/-- A container has its tags and its content. -/
theorem mem_wrap_iff {block : Block} (h : block.isContainer = false) (name : Text)
    (content : List Block) (attributes : Text) :
    block ∈ Fragment.wrap name content attributes ↔ block ∈ content := by
  have hopen : block ≠ Block.openTag name attributes false := by
    rintro rfl
    cases h
  have hclose : block ≠ Block.closeTag name := by
    rintro rfl
    cases h
  simp [Fragment.wrap, hopen, hclose]

section

variable {block : Block} (hh : block.isHeading = true)

include hh

theorem mem_prose_iff_of_heading (x : Text) :
    block ∈ Fragment.prose x ↔ block ∈ Document.blocksOf x := by
  have hkind : (block.kind != .frontmatter) = true := by
    rw [beq_iff_eq.1 hh]
    rfl
  rw [Fragment.prose, mem_punctuate_iff_of_heading (beq_iff_eq.1 hh), Fragment.richText,
    List.mem_filter, and_iff_left hkind]

theorem mem_wrap_iff_of_heading (name : Text) (content : List Block) (attributes : Text) :
    block ∈ Fragment.wrap name content attributes ↔ block ∈ content :=
  mem_wrap_iff (by simp [Block.isContainer, beq_iff_eq.1 hh]) name content attributes

/-- The headings of folded fields are those of the texts. -/
theorem FoldedFields.mem_iff_of_heading {texts : List Text} {blocks : List Block}
    (h : FoldedFields texts blocks) :
    block ∈ blocks ↔ ∃ x ∈ texts, block ∈ Document.blocksOf x := by
  cases h with
  | nil => simp
  | fold title h =>
      rw [Fragment.expandable, mem_wrap_iff_of_heading hh]
      induction h with
      | nil => simp
      | @cons x field texts fields hfield _ ih =>
          cases hfield with
          | wrap hname attributes =>
              rw [List.flatten_cons, List.mem_append, mem_wrap_iff_of_heading hh,
                mem_prose_iff_of_heading hh, ih]
              simp

end

/-! ### Folded fields -/

/-- A text whose tags are nested without stray ones and whose headings are below those of pages. -/
structure IsOrderly (x : Text) : Prop where
  nested : Nested (Document.blocksOf x)
  noStray : strayNames [] (Document.blocksOf x) = []
  below : ∀ block ∈ Document.blocksOf x, block.isHeading = true → 2 ≤ block.level

instance (x : Text) : Decidable (IsOrderly x) :=
  decidable_of_iff (_ ∧ _ ∧ _)
    ⟨fun h => ⟨h.1, h.2.1, h.2.2⟩, fun h => ⟨h.nested, h.noStray, h.below⟩⟩

/-- Some text holds a heading that is not too deep. -/
def HoldHeading (texts : List Text) : Prop :=
  ∃ x ∈ texts, ∃ block ∈ Document.blocksOf x,
    block.isHeading = true ∧ block.level ≤ maxHeadingLevel

instance (texts : List Text) : Decidable (HoldHeading texts) :=
  inferInstanceAs (Decidable (∃ x ∈ texts, ∃ block ∈ _, _))

/-- Blocks that show texts: their headings are those of the texts, and everything else is hidden
where the texts are orderly, also once the blocks are settled. -/
structure HidesTexts (refs : ReferenceMap) (texts : List Text) (blocks : List Block) : Prop where
  headings : ∀ block : Block, block.isHeading = true →
    (block ∈ blocks ↔ ∃ x ∈ texts, block ∈ Document.blocksOf x)
  hides : (∀ x ∈ texts, IsOrderly x) → Overview.Hides (blocks.filterMap (settleBlock? refs))

theorem FoldedFields.hidesTexts {texts : List Text} {blocks : List Block} (refs : ReferenceMap)
    (h : FoldedFields texts blocks) : HidesTexts refs texts blocks := by
  refine ⟨fun block hh => h.mem_iff_of_heading hh, fun horderly => ?_⟩
  cases h with
  | nil => exact Overview.hides_nil
  | @fold _ fields title h =>
      have hnested (x : Text) (hx : x ∈ texts) : Nested (Document.blocksOf x) :=
        (horderly x hx).nested
      obtain ⟨hread, hstray⟩ := (composed_fields h).assembled.read hnested
        (.inr (List.forall_mem_nil _))
      rw [Fragment.expandable, filterMap_settleBlock?_wrap]
      refine Overview.hides_wrap ?_ ?_ _ _
      · exact (openedAfter?_filterMap_settleBlock? refs [] _).trans hread
      · rw [strayNames_filterMap_settleBlock?, hstray, List.flatMap_eq_nil_iff]
        exact fun x hx => (horderly x hx).noStray

namespace HidesTexts

variable {refs : ReferenceMap} {texts more : List Text} {a b : List Block}

theorem append (ha : HidesTexts refs texts a) (hb : HidesTexts refs more b) :
    HidesTexts refs (texts ++ more) (a ++ b) where
  headings block hh := by
    rw [List.mem_append, ha.headings block hh, hb.headings block hh]
    simp only [List.mem_append, or_and_right, exists_or]
  hides horderly := by
    rw [List.forall_mem_append] at horderly
    rw [List.filterMap_append]
    exact (ha.hides horderly.1).append (hb.hides horderly.2)

theorem any_isHeading_iff (h : HidesTexts refs texts a) :
    (a.filterMap (settleBlock? refs)).any Block.isHeading = true ↔ HoldHeading texts := by
  rw [List.any_eq_true]
  constructor
  · rintro ⟨block, hm, hh⟩
    obtain ⟨hm, hlevel⟩ := (mem_filterMap_settleBlock?_iff hh).1 hm
    obtain ⟨x, hx, hm⟩ := (h.headings block hh).1 hm
    exact ⟨x, hx, block, hm, hh, hlevel⟩
  · rintro ⟨x, hx, block, hm, hh, hlevel⟩
    have hm' : block ∈ a := (h.headings block hh).2 ⟨x, hx, hm⟩
    exact ⟨block, (mem_filterMap_settleBlock?_iff hh).2 ⟨hm', hlevel⟩, hh⟩

end HidesTexts

/-- Without a comment, a signature is shown by its call line and by fields that hide its texts. -/
theorem exists_of_signatureBlocks {refs : ReferenceMap} {name : Text} {signature : Signature}
    {blocks : List Block} (hcomment : signature.comment = none)
    (h : signatureBlocks refs {} name signature = .ok blocks) :
    ∃ form texts fields, signature.callForm name = .ok form ∧
      signatureTexts refs {} signature = .ok texts ∧ HidesTexts refs texts fields ∧
      blocks = Block.paragraph (inSpan form) :: fields := by
  rw [signatureBlocks_eq, hcomment] at h
  obtain ⟨call, hcall, h⟩ := bind_eq_ok.1 h
  obtain ⟨parameters, hparameters, h⟩ := bind_eq_ok.1 h
  obtain ⟨result, hresult, h⟩ := bind_eq_ok.1 h
  cases h
  obtain ⟨form, hform, hcall⟩ := bind_eq_ok.1 hcall
  cases hcall
  obtain ⟨texts, htexts, hfolded⟩ := foldedFields_parameterSection hparameters
  obtain ⟨more, hmore, hfolded'⟩ := foldedFields_returnSection hresult
  refine ⟨form, texts ++ more, parameters ++ result, hform, ?_,
    (hfolded.hidesTexts refs).append (hfolded'.hidesTexts refs), rfl⟩
  refine bind_eq_ok.2 ⟨texts, htexts, bind_eq_ok.2 ⟨more, hmore, ?_⟩⟩
  rw [hcomment]
  rfl

end ApiReference
