import ApiReference.Proofs.LinkTwice
import ApiReference.Proofs.RepairTwice
import ApiReference.Proofs.Stages

/-! # Finished pages

Linking and repairing a finished page again changes nothing if and only if nothing is left to link
and no gap is kept in the running text that was repaired, bold text for deep headings included
(`Site.finished_fixed_iff`).

The two passes do not get in each other's way: linking leaves blocks well formed (`WellFormed.link`),
blanks do not matter for what there is to link (`nothingToLink_cleanText`), and since a link shows,
cleaning cannot take it back (`linkText_of_cleanText`). -/

namespace ApiReference

/-! ### Blanks do not matter for linking -/

theorem Text.stripEnd_append_cons {c : Char} (h : isBlank c = false) (x y : Text) :
    stripEnd (x ++ c :: y) = x ++ c :: y.stripEnd :=
  dropEndWhile_append_cons h x y

namespace SpanLine

/-- Only the tail of a line is trimmed. -/
theorem ofText_stripEnd (line : Text) :
    ofText line.stripEnd = ⟨(ofText line).spans, (ofText line).tail.stripEnd⟩ := by
  have hrender (tail : Text) (spans : List Span) :
      render (fun span _ => literal span.inner) tail.stripEnd spans =
        (render (fun span _ => literal span.inner) tail spans).stripEnd := by
    induction spans with
    | nil => rfl
    | cons span more ih =>
        have e (line : Text) : span.before ++ literal span.inner ++ line =
            span.before ++ '\x60' :: span.inner ++ '\x60' :: line := by simp [literal]
        rw [render_cons, render_cons, ih, e, e, Text.stripEnd_append_cons (by decide)]
  obtain ⟨hwritten, hspans, htail⟩ := reads_ofText line
  have hcount := (Text.isPrefix_stripEnd (ofText line).tail).sublist.count_le '\x60'
  have hreads : Reads line.stripEnd ⟨(ofText line).spans, (ofText line).tail.stripEnd⟩ :=
    ⟨by rw [hrender, hwritten], hspans, hcount.trans htail⟩
  exact (reads_iff.1 hreads).symm

end SpanLine

theorem freeAfter_stripEnd (after : Text) : FreeAfter after.stripEnd ↔ FreeAfter after := by
  refine ⟨fun h => ?_, fun h => h.of_isPrefix (Text.isPrefix_stripEnd after)⟩
  cases after with
  | nil => exact .inl rfl
  | cons c rest =>
      by_cases hc : isBlank c = true
      · exact .inr ⟨c, rest, .inl hc, rfl⟩
      · obtain ⟨y, hy⟩ := Text.exists_stripEnd_cons (by simpa using hc) rest
        rw [hy] at h
        rcases h with h | ⟨d, _, hd, e⟩
        · cases h
        · exact .inr ⟨c, rest, (List.cons.inj e).1 ▸ hd, rfl⟩

section texts

variable {href? : Text → Option Text}

theorem noneQualifies_stripEnd (line : Text) :
    NoneQualifies href? (SpanLine.placedOf line.stripEnd) ↔
      NoneQualifies href? (SpanLine.placedOf line) := by
  have hplaced (tail : Text) (spans : List Span) :
      NoneQualifies href? (SpanLine.placed tail.stripEnd spans) ↔
        NoneQualifies href? (SpanLine.placed tail spans) := by
    induction spans with
    | nil => rfl
    | cons span more ih =>
        have hafter : FreeAfter (SpanLine.textAfter tail.stripEnd more) ↔
            FreeAfter (SpanLine.textAfter tail more) := by
          cases more with
          | nil => exact freeAfter_stripEnd tail
          | cons next more => rfl
        rw [SpanLine.placed, SpanLine.placed, noneQualifies_cons, noneQualifies_cons, ih]
        simp only [Qualifies, hafter]
  rw [SpanLine.placedOf, SpanLine.placedOf, SpanLine.ofText_stripEnd]
  exact hplaced _ _

/-- A blank line holds no spans. -/
theorem noneQualifies_of_isAllBlank {line : Text} (h : line.isAllBlank = true) :
    NoneQualifies href? (SpanLine.placedOf line) := by
  rw [← noneQualifies_stripEnd, Text.stripEnd_eq_nil_iff.2 h]
  exact fun place hp => by cases hp

/-- What there is to link goes by the lines that show. -/
theorem forall_proseLines_shownOf_iff (inFence : Bool) (lines : List Text) :
    (∀ line ∈ proseLines inFence (Text.shownOf lines),
        NoneQualifies href? (SpanLine.placedOf line)) ↔
      ∀ line ∈ proseLines inFence lines, NoneQualifies href? (SpanLine.placedOf line) := by
  induction lines generalizing inFence with
  | nil => rfl
  | cons line more ih =>
      by_cases hb : line.isAllBlank = true
      · rw [Text.shownOf_cons_blank hb, ih, proseLines, isFence_of_isAllBlank hb]
        cases inFence with
        | true => rfl
        | false => simp [noneQualifies_of_isAllBlank hb]
      · rw [Text.shownOf_cons_visible (by simpa using hb), proseLines, proseLines, isFence_stripEnd]
        split
        · exact ih _
        · cases inFence with
          | true => exact ih _
          | false => simp [ih, noneQualifies_stripEnd]

theorem nothingToLink_iff_shownOf (x : Text) :
    NothingToLink href? x ↔ ∀ line ∈ proseLines false (Text.shownOf (Text.lines x)),
      NoneQualifies href? (SpanLine.placedOf line) :=
  (forall_proseLines_shownOf_iff false (Text.lines x)).symm

/-- Cleaning neither brings in nor takes away anything to link. -/
theorem nothingToLink_cleanText (x : Text) :
    NothingToLink href? (cleanText x) ↔ NothingToLink href? x := by
  rw [nothingToLink_iff_shownOf, shownOf_lines_cleanText, ← nothingToLink_iff_shownOf]

theorem nothingToLink_of_isAllBlank {x : Text} (h : x.isAllBlank = true) :
    NothingToLink href? x := by
  rw [nothingToLink_iff_shownOf, (Text.isAllBlank_iff_shownOf x).1 h]
  exact fun line hl => by cases hl

end texts

/-! ### Linking and repairing -/

section blocks

variable {refs : ReferenceMap} {maxLevel : Int}

/-- A text changes its words or not at all. -/
theorem linkText_eq_or_words_ne (x : Text) :
    linkText refs.linkTable x = x ∨ (linkText refs.linkTable x).words ≠ x.words := by
  by_cases h : NothingToLink refs.href? x
  · exact .inl (linkText_eq_self_iff.2 h)
  · have hparts := partsAtMark_unlines_linkLines h
    rw [Text.unlines_lines] at hparts
    exact .inr hparts.words_ne.symm

/-- Cleaning does not take links back. -/
theorem linkText_of_cleanText {x : Text} (h : cleanText (linkText refs.linkTable x) = x) :
    linkText refs.linkTable x = x := by
  refine (linkText_eq_or_words_ne x).resolve_right fun hne => hne ?_
  rw [← words_cleanText, h]

theorem isAllBlank_linkText {x : Text} (h : x.isAllBlank = false) :
    (linkText refs.linkTable x).isAllBlank = false := by
  by_cases hn : NothingToLink refs.href? x
  · rw [linkText_eq_self_iff.2 hn, h]
  · exact (partsAtMark_unlines_linkLines hn).isAllBlank_eq_false.2

theorem changesTextOnly_linkBlock (refs : ReferenceMap) :
    ChangesTextOnly (linkBlock refs.linkTable) := by
  intro block
  by_cases hk : block.kind = .text
  · exact .inr ⟨hk, (kind_linkBlock block).trans hk⟩
  · exact .inl (linkBlock_of_ne hk)

/-- Linking leaves blocks well formed. -/
theorem WellFormed.link {blocks : List Block} (h : WellFormed maxLevel blocks) :
    WellFormed maxLevel (blocks.map (linkBlock refs.linkTable)) := by
  refine h.map (changesTextOnly_linkBlock refs) fun block hk hb => ?_
  rw [text_linkBlock hk]
  exact isAllBlank_linkText hb

/-- A block that shows stays as it is if and only if its text has nothing to link and is clean. -/
theorem tidy_linkBlock_eq_self_iff {block : Block}
    (hb : block.kind = .text → block.text.isAllBlank = false) :
    tidy (linkBlock refs.linkTable block) = block ↔ (block.kind = .text →
      NothingToLink refs.href? block.text ∧ cleanText block.text = block.text) := by
  constructor
  · intro h hk
    have hlinked : (linkBlock refs.linkTable block).kind = .text := (kind_linkBlock block).trans hk
    have htext : cleanText (linkText refs.linkTable block.text) = block.text := by
      have ht := text_tidy hlinked (by rw [text_linkBlock hk]; exact isAllBlank_linkText (hb hk))
      rwa [h, text_linkBlock hk, eq_comm] at ht
    have hsame := linkText_of_cleanText htext
    rw [hsame] at htext
    exact ⟨linkText_eq_self_iff.1 hsame, htext⟩
  · intro h
    rw [linkBlock_eq_self_iff.2 fun hk => (h hk).1]
    exact (tidy_eq_self_iff hb).2 fun hk => (h hk).2

/-- A well-formed document stays as it is if and only if its texts do. -/
theorem Document.repair_link_eq_self_iff {doc : Document} (h : WellFormed maxLevel doc.blocks) :
    (doc.link refs.linkTable).repair maxLevel = doc ↔
      ∀ block ∈ doc.blocks, block.kind = .text →
        NothingToLink refs.href? block.text ∧ cleanText block.text = block.text := by
  have hblocks : (doc.link refs.linkTable).repair maxLevel = doc ↔
      doc.blocks.map (fun block => tidy (linkBlock refs.linkTable block)) = doc.blocks.map id := by
    have hrepair : repairBlocks maxLevel (doc.blocks.map (linkBlock refs.linkTable)) =
        (doc.blocks.map (linkBlock refs.linkTable)).map tidy := repairBlocks_of_wellFormed h.link
    rw [List.map_map] at hrepair
    obtain ⟨location, title, blocks⟩ := doc
    rw [List.map_id, Document.link, Document.repair, mk.injEq]
    simp only [true_and]
    rw [hrepair]
    rfl
  rw [hblocks, List.map_inj_left]
  exact forall₂_congr fun block hm => tidy_linkBlock_eq_self_iff (h.visible block hm)

/-- A document that was linked and repaired stays as it is if and only if the text that was repaired
has nothing left to link and keeps no gap. -/
theorem Document.finished_eq_self_iff (refs : ReferenceMap) (maxLevel : Int) (doc : Document) :
    (((doc.link refs.linkTable).repair maxLevel).link refs.linkTable).repair maxLevel =
        (doc.link refs.linkTable).repair maxLevel ↔
      ∀ block ∈ (doc.link refs.linkTable).blocks, (demote maxLevel block).kind = .text →
        NothingToLink refs.href? (demote maxLevel block).text ∧
          ¬ KeepsGap (demote maxLevel block).text := by
  rw [Document.repair_link_eq_self_iff (wellFormed_repairBlocks maxLevel _)]
  refine (forall_text_repairBlocks_iff
    (P := fun x => NothingToLink refs.href? x ∧ cleanText x = x) fun x hb => ?_).trans ?_
  · rw [nothingToLink_cleanText, cleanText_cleanText_iff]
    exact ⟨nothingToLink_of_isAllBlank hb, not_keepsGap_of_isAllBlank hb⟩
  · simp only [nothingToLink_cleanText, cleanText_cleanText_iff]

end blocks

/-! ### Pages -/

namespace Site

/-- A finished page stays as it is if and only if the text that was repaired, bold text for deep
headings included, has nothing left to link and keeps no gap. -/
theorem finished_fixed_iff {plan : Plan} {root : Declaration} {site : Site} {log : Log}
    (h : build plan root = .ok (site, log)) {page : Document}
    (hp : page ∈ site.pages ++ [site.overview]) :
    ∃ rendered, IsRendered (contextFor plan root) rendered ∧
      page = (rendered.link site.refs.linkTable).repair maxHeadingLevel ∧
      ((page.link site.refs.linkTable).repair maxHeadingLevel = page ↔
        ∀ block ∈ (rendered.link site.refs.linkTable).blocks,
          (demote maxHeadingLevel block).kind = .text →
            NothingToLink site.refs.href? (demote maxHeadingLevel block).text ∧
              ¬ KeepsGap (demote maxHeadingLevel block).text) := by
  obtain ⟨rendered, hrendered, hpage⟩ := exists_rendered_of_mem h hp
  rw [← refs_of_build h] at hpage
  subst hpage
  exact ⟨rendered, hrendered, rfl, Document.finished_eq_self_iff site.refs maxHeadingLevel rendered⟩

/-- An interface whose comment has a heading that is too deep. -/
def deepHeadingInterface : Declaration :=
  { userInterface with comment := some { summary := "A person.\n\n##### The \x60User\x60 type" } }

/-- Headings are not linked, but the bold text that takes the place of one is. -/
theorem finished_not_fixed_deepHeading :
    ∃ site log page, build {} deepHeadingInterface = .ok (site, log) ∧
      page ∈ site.pages ++ [site.overview] ∧
      (page.link site.refs.linkTable).repair maxHeadingLevel ≠ page ∧
      ∃ rendered : Document, page = (rendered.link site.refs.linkTable).repair maxHeadingLevel ∧
        ∃ block ∈ (rendered.link site.refs.linkTable).blocks,
          (demote maxHeadingLevel block).kind = .text ∧
            ¬ (NothingToLink site.refs.href? (demote maxHeadingLevel block).text ∧
              ¬ KeepsGap (demote maxHeadingLevel block).text) := by
  have hpage : ((build {} deepHeadingInterface).toOption.any fun built =>
      built.1.pages.any fun page =>
        !decide ((page.link built.1.refs.linkTable).repair maxHeadingLevel = page)) = true := by
    decide +kernel
  obtain ⟨⟨site, log⟩, h, hpage⟩ := exists_ok_of_any hpage
  obtain ⟨page, hp, hnot⟩ := List.any_eq_true.1 hpage
  have hmem : page ∈ site.pages ++ [site.overview] := List.mem_append_left _ hp
  have hnot : (page.link site.refs.linkTable).repair maxHeadingLevel ≠ page := by
    simpa using hnot
  obtain ⟨rendered, -, hrendered, hfixed⟩ := finished_fixed_iff h hmem
  refine ⟨site, log, page, h, hmem, hnot, rendered, hrendered, ?_⟩
  by_contra hno
  exact hnot (hfixed.2 fun block hm hk => by_contra fun hb => hno ⟨block, hm, hk, hb⟩)

end Site

end ApiReference
