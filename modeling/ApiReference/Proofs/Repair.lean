import ApiReference.Proofs.Nesting
import Mathlib.Data.List.Chain

/-! # Repaired blocks

What repairing makes of any list of blocks: its containers are nested, no heading is too deep, no
field is left without content, and no text is blank (`Document.wellFormed_repair`).  Balancing nests
the containers; demoting and cleaning do not change how they are read, although cleaning drops
blocks and, with them, whole pairs of tags. -/

namespace ApiReference

/-- The two blocks are the tags of one field with nothing between them. -/
def IsEmptyField (opening closing : Block) : Prop :=
  opening.opens = true ∧ closing.closes = true ∧ Block.isFieldName opening.name = true ∧
    opening.name = closing.name

/-- No heading is above the greatest level. -/
def Shallow (maxLevel : Int) (blocks : List Block) : Prop :=
  ∀ block ∈ blocks, block.kind = .heading → block.level ≤ maxLevel

/-- What holds of blocks that are fit to be shown. -/
structure WellFormed (maxLevel : Int) (blocks : List Block) : Prop where
  nested : Nested blocks
  shallow : Shallow maxLevel blocks
  /-- No field is empty. -/
  filled : blocks.IsChain fun before after => ¬ IsEmptyField before after
  /-- No text is blank. -/
  visible : ∀ block ∈ blocks, block.kind = .text → block.text.isAllBlank = false

theorem wouldEmpty_iff {closing before : Block} :
    wouldEmpty closing before = true ↔ IsEmptyField before closing := by
  simp only [wouldEmpty, IsEmptyField, Bool.and_eq_true, beq_iff_eq]
  constructor
  · rintro ⟨⟨⟨hc, hf⟩, ho⟩, hn⟩
    exact ⟨ho, hc, hn ▸ hf, hn⟩
  · rintro ⟨ho, hc, hf, hn⟩
    exact ⟨⟨⟨hc, hn ▸ hf⟩, ho⟩, hn⟩

/-! ### Demoting -/

theorem nextOpened?_demote (maxLevel : Int) (opened : List Text) (block : Block) :
    nextOpened? opened (demote maxLevel block) = nextOpened? opened block := by
  unfold demote
  split
  · next h =>
    have hk : block.kind = .heading := by
      simp only [Bool.and_eq_true, beq_iff_eq] at h
      exact h.1
    rw [nextOpened?_content opened (by rfl) (by rfl),
      nextOpened?_content opened (by simp [Block.opens, hk]) (by simp [Block.closes, hk])]
  · rfl

theorem openedAfter?_map_demote (maxLevel : Int) (opened : List Text) (blocks : List Block) :
    openedAfter? opened (blocks.map (demote maxLevel)) = openedAfter? opened blocks := by
  induction blocks generalizing opened with
  | nil => rfl
  | cons block blocks ih => simp only [List.map_cons, openedAfter?, nextOpened?_demote, ih]

theorem level_demote_le {maxLevel : Int} {block : Block}
    (h : (demote maxLevel block).kind = .heading) : (demote maxLevel block).level ≤ maxLevel := by
  unfold demote at h ⊢
  split
  · next hd => simp [hd, Block.paragraph] at h
  · next hd =>
    rw [if_neg hd] at h
    simp only [h, beq_self_eq_true, Bool.true_and, decide_eq_true_eq] at hd
    omega

/-! ### Cleaning -/

/-- What cleaning can make of one block: only the text of running text changes, and what is left of
it is not blank. -/
theorem cleanBlock?_eq_some {block cleaned : Block} (h : cleanBlock? block = some cleaned) :
    (block.kind ≠ .text ∧ cleaned = block) ∨
      (block.kind = .text ∧ cleaned.kind = .text ∧ cleaned.text = cleanText block.text ∧
        cleaned.text.isAllBlank = false) := by
  unfold cleanBlock? at h
  split at h
  · next hk =>
    have hk : block.kind = .text := by simpa using hk
    dsimp only at h
    split at h
    · cases h
    · next hb =>
      have hb : (cleanText block.text).isAllBlank = false := by simpa using hb
      have e := Option.some.inj h
      split at e
      · next ht =>
        have ht : cleanText block.text = block.text := by simpa using ht
        subst e
        exact .inr ⟨hk, hk, ht.symm, ht ▸ hb⟩
      · subst e
        exact .inr ⟨hk, rfl, rfl, hb⟩
  · next hk => exact .inl ⟨by simpa using hk, (Option.some.inj h).symm⟩

theorem kind_of_cleanBlock?_none {block : Block} (h : cleanBlock? block = none) :
    block.kind = .text := by
  unfold cleanBlock? at h
  split at h
  · next hk => simpa using hk
  · cases h

theorem nextOpened?_text (opened : List Text) {block : Block} (h : block.kind = .text) :
    nextOpened? opened block = some opened :=
  nextOpened?_content opened (by simp [Block.opens, h]) (by simp [Block.closes, h])

theorem openedAfter?_filterMap_cleanBlock? (opened : List Text) (blocks : List Block) :
    openedAfter? opened (blocks.filterMap cleanBlock?) = openedAfter? opened blocks := by
  induction blocks generalizing opened with
  | nil => rfl
  | cons block blocks ih =>
      cases hc : cleanBlock? block with
      | none =>
          rw [List.filterMap_cons_none hc, openedAfter?,
            nextOpened?_text opened (kind_of_cleanBlock?_none hc), Option.bind_some, ih]
      | some cleaned =>
          rw [List.filterMap_cons_some hc, openedAfter?, openedAfter?]
          have hnext : nextOpened? opened cleaned = nextOpened? opened block := by
            obtain ⟨_, rfl⟩ | ⟨hk, hk', _⟩ := cleanBlock?_eq_some hc
            · rfl
            · rw [nextOpened?_text opened hk, nextOpened?_text opened hk']
          simp only [hnext, ih]

/-- The blocks of an empty field are read as if they were not there. -/
theorem openedAfter?_emptyField (opened : List Text) {opening closing : Block}
    (h : IsEmptyField opening closing) : openedAfter? opened [opening, closing] = some opened := by
  obtain ⟨ho, hc, _, hn⟩ := h
  simp [openedAfter?, nextOpened?_opens opened ho, hn, nextOpened?_closes opened hc]

theorem openedAfter?_addCleaned (opened : List Text) (cleaned : List Block) (block : Block) :
    openedAfter? opened (addCleaned cleaned block).reverse =
      openedAfter? opened (cleaned.reverse ++ [block]) := by
  cases cleaned with
  | nil => rfl
  | cons before more =>
      simp only [addCleaned]
      split
      · next h =>
        rw [List.reverse_cons, List.append_assoc, openedAfter?_append opened more.reverse]
        cases openedAfter? opened more.reverse with
        | none => rfl
        | some next => exact (openedAfter?_emptyField next (wouldEmpty_iff.1 h)).symm
      · rw [List.reverse_cons]

theorem openedAfter?_foldl_addCleaned (opened : List Text) (cleaned blocks : List Block) :
    openedAfter? opened (blocks.foldl addCleaned cleaned).reverse =
      openedAfter? opened (cleaned.reverse ++ blocks) := by
  induction blocks generalizing cleaned with
  | nil => rw [List.foldl_nil, List.append_nil]
  | cons block blocks ih =>
      rw [List.foldl_cons, ih, openedAfter?_append, openedAfter?_addCleaned,
        ← openedAfter?_append, List.append_assoc, List.singleton_append]

theorem openedAfter?_clean (opened : List Text) (blocks : List Block) :
    openedAfter? opened (clean blocks) = openedAfter? opened blocks := by
  unfold clean
  rw [openedAfter?_foldl_addCleaned, List.reverse_nil, List.nil_append,
    openedAfter?_filterMap_cleanBlock?]

theorem isChain_addCleaned {cleaned : List Block} (block : Block)
    (h : cleaned.IsChain fun after before => ¬ IsEmptyField before after) :
    (addCleaned cleaned block).IsChain fun after before => ¬ IsEmptyField before after := by
  cases cleaned with
  | nil => exact List.isChain_singleton block
  | cons before more =>
      simp only [addCleaned]
      split
      · exact h.of_cons
      · next hw => exact List.isChain_cons_cons.2 ⟨fun he => hw (wouldEmpty_iff.2 he), h⟩

theorem isChain_clean (blocks : List Block) :
    (clean blocks).IsChain fun before after => ¬ IsEmptyField before after := by
  have key : ∀ (blocks cleaned : List Block),
      (cleaned.IsChain fun after before => ¬ IsEmptyField before after) →
      (blocks.foldl addCleaned cleaned).IsChain fun after before => ¬ IsEmptyField before after := by
    intro blocks
    induction blocks with
    | nil => exact fun _ h => h
    | cons block blocks ih => exact fun cleaned h => ih _ (isChain_addCleaned block h)
  exact List.isChain_reverse.2 (key _ [] List.isChain_nil)

theorem mem_addCleaned {cleaned : List Block} {block other : Block}
    (h : other ∈ addCleaned cleaned block) : other ∈ cleaned ∨ other = block := by
  cases cleaned with
  | nil => exact .inr (List.mem_singleton.1 h)
  | cons before more =>
      simp only [addCleaned] at h
      split at h
      · exact .inl (List.mem_cons_of_mem _ h)
      · exact (List.mem_cons.1 h).symm

theorem mem_foldl_addCleaned {cleaned blocks : List Block} {block : Block}
    (h : block ∈ blocks.foldl addCleaned cleaned) : block ∈ cleaned ∨ block ∈ blocks := by
  induction blocks generalizing cleaned with
  | nil => exact .inl h
  | cons first blocks ih =>
      rcases ih h with h | h
      · rcases mem_addCleaned h with h | rfl
        · exact .inl h
        · exact .inr List.mem_cons_self
      · exact .inr (List.mem_cons_of_mem _ h)

/-- Every cleaned block comes from a block. -/
theorem exists_of_mem_clean {block : Block} {blocks : List Block} (h : block ∈ clean blocks) :
    ∃ source ∈ blocks, cleanBlock? source = some block := by
  rcases mem_foldl_addCleaned (List.mem_reverse.1 h) with h | h
  · cases h
  · exact List.mem_filterMap.1 h

/-! ### Repairing -/

theorem nested_repairBlocks (maxLevel : Int) (blocks : List Block) :
    Nested (repairBlocks maxLevel blocks) := by
  unfold Nested repairBlocks
  rw [openedAfter?_clean, openedAfter?_map_demote]
  exact nested_balance blocks

theorem shallow_repairBlocks (maxLevel : Int) (blocks : List Block) :
    Shallow maxLevel (repairBlocks maxLevel blocks) := by
  intro block hm hk
  obtain ⟨source, hs, hc⟩ := exists_of_mem_clean hm
  obtain ⟨origin, _, rfl⟩ := List.mem_map.1 hs
  obtain ⟨_, rfl⟩ | ⟨_, hk', _⟩ := cleanBlock?_eq_some hc
  · exact level_demote_le hk
  · cases hk.symm.trans hk'

theorem visible_clean (blocks : List Block) :
    ∀ block ∈ clean blocks, block.kind = .text → block.text.isAllBlank = false := by
  intro block hm hk
  obtain ⟨source, _, hc⟩ := exists_of_mem_clean hm
  obtain ⟨hk', rfl⟩ | ⟨_, _, _, hb⟩ := cleanBlock?_eq_some hc
  · exact absurd hk hk'
  · exact hb

theorem wellFormed_repairBlocks (maxLevel : Int) (blocks : List Block) :
    WellFormed maxLevel (repairBlocks maxLevel blocks) where
  nested := nested_repairBlocks maxLevel blocks
  shallow := shallow_repairBlocks maxLevel blocks
  filled := isChain_clean _
  visible := visible_clean _

/-- Repairing makes every list of blocks well formed. -/
theorem Document.wellFormed_repair (maxLevel : Int) (doc : Document) :
    WellFormed maxLevel (doc.repair maxLevel).blocks :=
  wellFormed_repairBlocks maxLevel doc.blocks

end ApiReference
