import ApiReference.Proofs.Kept

/-! # Repairing twice

Blocks that are well formed lose nothing when they are repaired: only blanks in their texts can
change (`repairBlocks_of_wellFormed`).  So repairing again what was repaired changes nothing but the
gaps that cleaning kept, and it does change those (`Document.repair_repair_iff`). -/

namespace ApiReference

/-! ### Repairing well-formed blocks -/

/-- A block with its text cleaned, even if nothing is left of it. -/
def tidy (block : Block) : Block := (cleanBlock? block).getD block

theorem filterMap_cleanBlock?_of_visible {blocks : List Block}
    (h : ∀ block ∈ blocks, block.kind = .text → block.text.isAllBlank = false) :
    blocks.filterMap cleanBlock? = blocks.map tidy := by
  rw [← List.filterMap_eq_map]
  refine List.filterMap_congr fun block hm => ?_
  cases hc : cleanBlock? block with
  | none =>
      obtain ⟨hk, hb⟩ := cleanBlock?_eq_none_iff.1 hc
      rw [h block hm hk] at hb
      cases hb
  | some cleaned => simp [tidy, hc]

theorem map_demote_of_shallow {maxLevel : Int} {blocks : List Block}
    (h : Shallow maxLevel blocks) : blocks.map (demote maxLevel) = blocks := by
  refine (List.map_congr_left fun block hm => ?_).trans (List.map_id _)
  unfold demote
  split
  · next hd =>
    rw [Bool.and_eq_true, beq_iff_eq, decide_eq_true_eq] at hd
    have := h block hm hd.1
    omega
  · rfl

/-- Where no field is empty, no tag is taken out. -/
theorem foldl_addCleaned_of_isChain {cleaned blocks : List Block}
    (h : (cleaned.reverse ++ blocks).IsChain fun before after => ¬ IsEmptyField before after) :
    blocks.foldl addCleaned cleaned = blocks.reverse ++ cleaned := by
  induction blocks generalizing cleaned with
  | nil => rfl
  | cons block blocks ih =>
      have hadd : addCleaned cleaned block = block :: cleaned := by
        cases cleaned with
        | nil => rfl
        | cons before more =>
            have hfilled : ¬ IsEmptyField before block := by
              rw [List.reverse_cons, List.append_assoc] at h
              exact (List.isChain_cons_cons.1 h.right_of_append).1
            rw [addCleaned, if_neg (wouldEmpty_iff.not.2 hfilled)]
      rw [List.foldl_cons, hadd, ih (by simpa using h), List.reverse_cons, List.append_assoc,
        List.singleton_append]

/-- Only running text is changed, and it stays running text. -/
def ChangesTextOnly (f : Block → Block) : Prop :=
  ∀ block, f block = block ∨ block.kind = .text ∧ (f block).kind = .text

theorem changesTextOnly_tidy : ChangesTextOnly tidy := by
  intro block
  unfold tidy
  cases hc : cleanBlock? block with
  | none => exact .inl rfl
  | some cleaned =>
      obtain ⟨_, rfl⟩ | ⟨hk, hk', _⟩ := cleanBlock?_eq_some hc
      · exact .inl rfl
      · exact .inr ⟨hk, hk'⟩

/-- Where only running text is changed, no field becomes empty. -/
theorem ChangesTextOnly.isEmptyField_iff {f : Block → Block} (hf : ChangesTextOnly f)
    {before after : Block} : IsEmptyField (f before) (f after) ↔ IsEmptyField before after := by
  have hopening {block after : Block} (h : block.kind = .text) : ¬ IsEmptyField block after :=
    fun he => by
      have hcontent := isContent_of_text h
      rw [isContent_of_opens he.1] at hcontent
      cases hcontent
  have hclosing {before block : Block} (h : block.kind = .text) : ¬ IsEmptyField before block :=
    fun he => by
      have hcontent := isContent_of_text h
      rw [isContent_of_closes he.2.1] at hcontent
      cases hcontent
  rcases hf before with hb | ⟨hb, hb'⟩
  · rcases hf after with ha | ⟨ha, ha'⟩
    · rw [hb, ha]
    · exact iff_of_false (hclosing ha') (hclosing ha)
  · exact iff_of_false (hopening hb') (hopening hb)

theorem ChangesTextOnly.filled_map {f : Block → Block} (hf : ChangesTextOnly f)
    {blocks : List Block} (h : blocks.IsChain fun before after => ¬ IsEmptyField before after) :
    (blocks.map f).IsChain fun before after => ¬ IsEmptyField before after := by
  rw [List.isChain_map]
  simpa only [hf.isEmptyField_iff] using h

theorem ChangesTextOnly.openedAfter?_map {f : Block → Block} (hf : ChangesTextOnly f)
    (opened : List Text) (blocks : List Block) :
    openedAfter? opened (blocks.map f) = openedAfter? opened blocks := by
  induction blocks generalizing opened with
  | nil => rfl
  | cons block blocks ih =>
      have hnext : nextOpened? opened (f block) = nextOpened? opened block := by
        rcases hf block with h | ⟨hk, hk'⟩
        · rw [h]
        · rw [nextOpened?_text opened hk, nextOpened?_text opened hk']
      simp only [List.map_cons, openedAfter?, hnext, ih]

/-- Blocks stay well formed where only running text is changed and none of it becomes blank. -/
theorem WellFormed.map {maxLevel : Int} {blocks : List Block} (h : WellFormed maxLevel blocks)
    {f : Block → Block} (hf : ChangesTextOnly f)
    (hv : ∀ block, block.kind = .text → block.text.isAllBlank = false →
      (f block).text.isAllBlank = false) : WellFormed maxLevel (blocks.map f) where
  nested := (hf.openedAfter?_map [] blocks).trans h.nested
  shallow := by
    rw [Shallow, List.forall_mem_map]
    intro block hm hk
    rcases hf block with e | ⟨_, hk'⟩
    · rw [e] at hk ⊢
      exact h.shallow block hm hk
    · cases hk.symm.trans hk'
  filled := hf.filled_map h.filled
  visible := by
    rw [List.forall_mem_map]
    intro block hm hk
    rcases hf block with e | ⟨hk', _⟩
    · rw [e] at hk ⊢
      exact h.visible block hm hk
    · exact hv block hk' (h.visible block hm hk')

/-- Of well-formed blocks nothing is dropped, and nothing but blanks changes. -/
theorem repairBlocks_of_wellFormed {maxLevel : Int} {blocks : List Block}
    (h : WellFormed maxLevel blocks) : repairBlocks maxLevel blocks = blocks.map tidy := by
  have hfilled := changesTextOnly_tidy.filled_map h.filled
  rw [repairBlocks, balance_of_nested h.nested, map_demote_of_shallow h.shallow, clean,
    filterMap_cleanBlock?_of_visible h.visible, foldl_addCleaned_of_isChain hfilled,
    List.append_nil, List.reverse_reverse]

theorem text_tidy {block : Block} (hk : block.kind = .text) (hb : block.text.isAllBlank = false) :
    (tidy block).text = cleanText block.text := by
  unfold tidy
  cases hc : cleanBlock? block with
  | none =>
      rw [(cleanBlock?_eq_none_iff.1 hc).2] at hb
      cases hb
  | some cleaned => exact ((words_of_cleanBlock? hc).2 hk).2.1

theorem tidy_eq_self_iff {block : Block} (hb : block.kind = .text → block.text.isAllBlank = false) :
    tidy block = block ↔ (block.kind = .text → cleanText block.text = block.text) := by
  unfold tidy
  cases hc : cleanBlock? block with
  | none =>
      obtain ⟨hk, hblank⟩ := cleanBlock?_eq_none_iff.1 hc
      rw [hb hk] at hblank
      cases hblank
  | some cleaned =>
      obtain ⟨hne, htext⟩ := words_of_cleanBlock? hc
      rw [Option.getD_some]
      constructor
      · rintro rfl hk
        exact (htext hk).2.1.symm
      · intro h
        by_cases hk : block.kind = .text
        · simpa [cleanBlock?, hk, h hk, hb hk] using hc.symm
        · exact hne hk

/-- Well-formed blocks stay as they are if and only if their texts are clean. -/
theorem repairBlocks_eq_self_iff {maxLevel : Int} {blocks : List Block}
    (h : WellFormed maxLevel blocks) :
    repairBlocks maxLevel blocks = blocks ↔
      ∀ block ∈ blocks, block.kind = .text → cleanText block.text = block.text := by
  rw [repairBlocks_of_wellFormed h]
  nth_rewrite 2 [← List.map_id blocks]
  rw [List.map_inj_left]
  exact forall₂_congr fun block hm => tidy_eq_self_iff (h.visible block hm)

theorem Document.repair_eq_self_iff {maxLevel : Int} {doc : Document}
    (h : WellFormed maxLevel doc.blocks) :
    doc.repair maxLevel = doc ↔
      ∀ block ∈ doc.blocks, block.kind = .text → cleanText block.text = block.text := by
  rw [← repairBlocks_eq_self_iff h]
  obtain ⟨location, title, blocks⟩ := doc
  simp only [repair, mk.injEq, true_and]

/-! ### Repairing again -/

/-- The running text of repaired blocks is the cleaned text of those before, bold text for deep
headings included; what holds of blank text once it is cleaned need not be asked of it. -/
theorem forall_text_repairBlocks_iff {maxLevel : Int} {blocks : List Block} {P : Text → Prop}
    (hblank : ∀ x : Text, x.isAllBlank = true → P (cleanText x)) :
    (∀ block ∈ repairBlocks maxLevel blocks, block.kind = .text → P block.text) ↔
      ∀ block ∈ blocks, (demote maxLevel block).kind = .text →
        P (cleanText (demote maxLevel block).text) := by
  have hmem {block : Block} (hk : block.kind = .text) :
      block ∈ repairBlocks maxLevel blocks ↔
        ∃ source ∈ blocks, cleanBlock? (demote maxLevel source) = some block := by
    have hcontent : block ∈ repairBlocks maxLevel blocks ↔
        block ∈ (repairBlocks maxLevel blocks).filter Block.isContent := by
      rw [List.mem_filter, isContent_of_text hk, and_iff_left rfl]
    rw [hcontent, filter_isContent_repairBlocks, List.mem_filterMap]
    constructor
    · rintro ⟨demoted, hm, hc⟩
      obtain ⟨source, hs, rfl⟩ := List.mem_map.1 hm
      exact ⟨source, (List.mem_filter.1 hs).1, hc⟩
    · rintro ⟨source, hs, hc⟩
      refine ⟨_, List.mem_map_of_mem (List.mem_filter.2 ⟨hs, ?_⟩), hc⟩
      rw [← isContent_demote maxLevel, ← isContent_of_cleanBlock? hc]
      exact isContent_of_text hk
  constructor
  · intro h source hs hk
    cases hc : cleanBlock? (demote maxLevel source) with
    | none => exact hblank _ (cleanBlock?_eq_none_iff.1 hc).2
    | some cleaned =>
        obtain ⟨hk', ht, -⟩ := (words_of_cleanBlock? hc).2 hk
        rw [← ht]
        exact h cleaned ((hmem hk').2 ⟨source, hs, hc⟩) hk'
  · intro h block hm hk
    obtain ⟨source, hs, hc⟩ := (hmem hk).1 hm
    have hk' : (demote maxLevel source).kind = .text := by
      by_contra hne
      rw [← (words_of_cleanBlock? hc).1 hne] at hne
      exact hne hk
    rw [((words_of_cleanBlock? hc).2 hk').2.1]
    exact h source hs hk'

theorem not_keepsGap_of_isAllBlank {x : Text} (h : x.isAllBlank = true) : ¬ KeepsGap x := by
  rw [← hasGap_lines_cleanText]
  rintro ⟨start, above, gap, below, rest, e, ha, -⟩
  have hshown : Text.shownOf (Text.lines (cleanText x)) = [] := by
    rwa [← Text.isAllBlank_iff_shownOf, isAllBlank_cleanText]
  rw [Text.shownOf_eq_nil_iff.1 hshown above (by rw [e]; simp)] at ha
  cases ha

/-- Repairing again changes nothing if and only if no text, bold text for deep headings included,
keeps a gap.  Repairing a third time never changes anything. -/
theorem Document.repair_repair_iff (maxLevel : Int) (doc : Document) :
    ((doc.repair maxLevel).repair maxLevel = doc.repair maxLevel ↔
        ∀ block ∈ doc.blocks, (demote maxLevel block).kind = .text →
          ¬ KeepsGap (demote maxLevel block).text) ∧
      ((doc.repair maxLevel).repair maxLevel).repair maxLevel =
        (doc.repair maxLevel).repair maxLevel := by
  have hagain (doc : Document) : (doc.repair maxLevel).repair maxLevel = doc.repair maxLevel ↔
      ∀ block ∈ doc.blocks, (demote maxLevel block).kind = .text →
        ¬ KeepsGap (demote maxLevel block).text := by
    rw [Document.repair_eq_self_iff (wellFormed_repairBlocks maxLevel doc.blocks)]
    simp only [← cleanText_cleanText_iff]
    exact forall_text_repairBlocks_iff (P := fun x => cleanText x = x) fun x hb =>
      cleanText_cleanText_iff.2 (not_keepsGap_of_isAllBlank hb)
  refine ⟨hagain doc, (hagain _).2 ?_⟩
  have hmap : (doc.repair maxLevel).blocks.map (demote maxLevel) = (doc.repair maxLevel).blocks :=
    map_demote_of_shallow (shallow_repairBlocks maxLevel doc.blocks)
  have hclean : ∀ block ∈ (doc.repair maxLevel).blocks, block.kind = .text →
      ¬ KeepsGap block.text :=
    (forall_text_repairBlocks_iff (P := fun x => ¬ KeepsGap x) fun x _ =>
      not_keepsGap_cleanText x).2 fun _ _ _ => not_keepsGap_cleanText _
  rwa [← hmap, List.forall_mem_map] at hclean

/-- The carriage returns of a foreign text stand in the way of shortening, and are trimmed then. -/
theorem Document.repair_repair_ne_carriageReturns :
    (Document.repair 4 (Document.repair 4
        { blocks := [Block.paragraph "first\r\n\r\n\r\n\r\n\r\nsecond"] })) ≠
      Document.repair 4 { blocks := [Block.paragraph "first\r\n\r\n\r\n\r\n\r\nsecond"] } := by
  have hgap : KeepsGap "first\r\n\r\n\r\n\r\n\r\nsecond" :=
    ⟨[], "first\r", ["\r", "\r", "\r", "\r"], "second", [], by decide +kernel⟩
  rw [Ne, (Document.repair_repair_iff 4 _).1]
  exact fun h => h _ List.mem_cons_self rfl hgap

end ApiReference
