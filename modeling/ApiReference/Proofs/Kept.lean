import ApiReference.Proofs.CleanText

/-! # What repairing keeps

Repairing never loses, doubles or moves content.  Balancing drops tags of containers only
(`losesTags_balance`), and none if the containers are nested already (`balance_of_nested`); cleaning
drops text that is blank, and the tags of fields that nothing is left of (`fieldsDropped_clean`).

The invariant of balancing is about all blocks that a sweep holds: those set free, those inside open
containers, and the opening tags that wait (`Sweep.held`). -/

namespace ApiReference

/-! ### Content -/

/-- The block is neither an opening tag that waits for a closing one nor a closing tag. -/
def Block.isContent (block : Block) : Bool := !block.opens && !block.closes

theorem isContent_of_opens {block : Block} (h : block.opens = true) : block.isContent = false := by
  simp [Block.isContent, h]

theorem isContent_of_closes {block : Block} (h : block.closes = true) : block.isContent = false := by
  simp [Block.isContent, h]

theorem isContent_of_text {block : Block} (h : block.kind = .text) : block.isContent = true := by
  simp [Block.isContent, Block.opens, Block.closes, h]

/-- Some of the blocks are kept, in their order, and what is missing are tags of containers. -/
structure LosesTags (kept blocks : List Block) : Prop where
  sublist : kept.Sublist blocks
  content : kept.filter Block.isContent = blocks.filter Block.isContent

namespace LosesTags

variable {a b c : List Block}

theorem refl (blocks : List Block) : LosesTags blocks blocks := ⟨List.Sublist.refl _, rfl⟩

theorem trans (hab : LosesTags a b) (hbc : LosesTags b c) : LosesTags a c :=
  ⟨hab.sublist.trans hbc.sublist, hab.content.trans hbc.content⟩

theorem append {a' b' : List Block} (h : LosesTags a b) (h' : LosesTags a' b') :
    LosesTags (a ++ a') (b ++ b') := by
  refine ⟨h.sublist.append h'.sublist, ?_⟩
  rw [List.filter_append, List.filter_append, h.content, h'.content]

theorem drop {tag : Block} (h : tag.isContent = false) (blocks : List Block) :
    LosesTags blocks (tag :: blocks) := by
  refine ⟨List.sublist_cons_self _ _, ?_⟩
  rw [List.filter_cons_of_neg (by simp [h])]

theorem reverse (h : LosesTags a b) : LosesTags a.reverse b.reverse := by
  refine ⟨h.sublist.reverse, ?_⟩
  rw [List.filter_reverse, List.filter_reverse, h.content]

end LosesTags

/-! ### Balancing drops tags only -/

/-- Blocks of open containers with the tags that open them, the last one first. -/
def heldIn (frames : List Frame) : List Block :=
  frames.flatMap fun frame => frame.inner ++ [frame.opening]

theorem heldIn_cons (frame : Frame) (more : List Frame) :
    heldIn (frame :: more) = frame.inner ++ frame.opening :: heldIn more := by
  rw [heldIn, List.flatMap_cons, List.append_assoc]
  rfl

namespace Sweep

/-- Every frame waits with a tag that opens a container. -/
def Waits (frames : List Frame) : Prop := ∀ frame ∈ frames, frame.opening.opens = true

theorem waits_add (sweep : Sweep) (h : Waits sweep.frames) (blocks : List Block) :
    Waits (sweep.add blocks).frames := by
  obtain ⟨outer, frames, notes⟩ := sweep
  cases frames with
  | nil => exact h
  | cons frame more => exact List.forall_mem_cons.2 (List.forall_mem_cons.1 h)

theorem waits_closeThrough (closing : Block) (outer : List Block) :
    ∀ (frames : List Frame) (notes : List Text) (loose : List Block), Waits frames →
      Waits (closeThrough closing outer notes loose frames).frames
  | [], _, _, h => h
  | frame :: more, notes, loose, h => by
      have hmore : Waits more := (List.forall_mem_cons.1 h).2
      unfold closeThrough
      split
      · exact waits_add { outer, frames := more, notes } hmore _
      · exact waits_closeThrough closing outer more _ _ hmore

theorem waits_step {sweep : Sweep} (h : Waits sweep.frames) (block : Block) :
    Waits (sweep.step block).frames := by
  unfold step
  split
  · next ho => exact List.forall_mem_cons.2 ⟨ho, h⟩
  · split
    · split
      · exact waits_closeThrough block sweep.outer sweep.frames sweep.notes [] h
      · split
        · exact waits_add sweep h _
        · exact h
    · exact waits_add sweep h _

theorem waits_foldl {sweep : Sweep} (h : Waits sweep.frames) (blocks : List Block) :
    Waits (blocks.foldl step sweep).frames := by
  induction blocks generalizing sweep with
  | nil => exact h
  | cons block blocks ih => exact ih (waits_step h block)

/-- All blocks that were taken in and not dropped so far, the last one first. -/
def held (sweep : Sweep) : List Block := heldIn sweep.frames ++ sweep.outer

theorem held_add (blocks : List Block) (sweep : Sweep) :
    (sweep.add blocks).held = blocks ++ sweep.held := by
  obtain ⟨outer, frames, notes⟩ := sweep
  cases frames with
  | nil => rfl
  | cons frame more => simp [add, held, heldIn_cons]

/-- Closing a container drops the tags of those inside it, or the closing tag if there is none. -/
theorem losesTags_closeThrough {closing : Block} (hc : closing.closes = true) (outer : List Block) :
    ∀ (frames : List Frame) (notes : List Text) (loose : List Block), Waits frames →
      LosesTags (closeThrough closing outer notes loose frames).held
        (closing :: (loose ++ (heldIn frames ++ outer)))
  | [], notes, loose, _ => LosesTags.drop (isContent_of_closes hc) _
  | frame :: more, notes, loose, h => by
      obtain ⟨ho, hmore⟩ := List.forall_mem_cons.1 h
      unfold closeThrough
      split
      · rw [held_add, heldIn_cons]
        simpa [held] using LosesTags.refl _
      · refine (losesTags_closeThrough hc outer more _ _ hmore).trans ?_
        have hopening : LosesTags (frame.inner ++ heldIn more) (heldIn (frame :: more)) := by
          rw [heldIn_cons]
          exact (LosesTags.refl _).append (LosesTags.drop (isContent_of_opens ho) _)
        rw [List.append_assoc loose, ← List.append_assoc frame.inner]
        exact (LosesTags.refl [closing]).append
          ((LosesTags.refl loose).append (hopening.append (LosesTags.refl outer)))

theorem losesTags_step {sweep : Sweep} (h : Waits sweep.frames) (block : Block) :
    LosesTags (sweep.step block).held (block :: sweep.held) := by
  unfold step
  split
  · exact LosesTags.refl _
  · split
    · next hc =>
      split
      · exact losesTags_closeThrough hc sweep.outer sweep.frames sweep.notes [] h
      · split
        · rw [held_add]
          exact LosesTags.refl _
        · exact LosesTags.drop (isContent_of_closes hc) _
    · rw [held_add]
      exact LosesTags.refl _

theorem losesTags_foldl {sweep : Sweep} (h : Waits sweep.frames) (blocks : List Block) :
    LosesTags (blocks.foldl step sweep).held (blocks.reverse ++ sweep.held) := by
  induction blocks generalizing sweep with
  | nil => exact LosesTags.refl _
  | cons block blocks ih =>
      rw [List.foldl_cons, List.reverse_cons, List.append_assoc]
      exact (ih (waits_step h block)).trans ((LosesTags.refl _).append (losesTags_step h block))

/-- What remains in the end are the blocks held, without the opening tags that still wait. -/
theorem losesTags_remaining {sweep : Sweep} (h : Waits sweep.frames) :
    LosesTags sweep.remaining sweep.held := by
  have hinner : ∀ {frames : List Frame}, Waits frames →
      LosesTags (frames.flatMap (·.inner)) (heldIn frames) := by
    intro frames hf
    induction frames with
    | nil => exact LosesTags.refl _
    | cons frame more ih =>
        obtain ⟨ho, hmore⟩ := List.forall_mem_cons.1 hf
        rw [List.flatMap_cons, heldIn_cons]
        exact (LosesTags.refl _).append
          ((ih hmore).trans (LosesTags.drop (isContent_of_opens ho) _))
  exact (hinner h).append (LosesTags.refl _)

end Sweep

theorem losesTags_balance (blocks : List Block) : LosesTags (balance blocks) blocks := by
  have hstart : Sweep.Waits ({} : Sweep).frames := fun _ h => by cases h
  have hheld := Sweep.losesTags_foldl hstart blocks
  have hremaining := Sweep.losesTags_remaining (Sweep.waits_foldl hstart blocks)
  have h := (hremaining.trans hheld).reverse
  rwa [List.reverse_append, List.reverse_reverse] at h

/-! ### Nested containers lose no tag -/

namespace Sweep

theorem frameNames_add (blocks : List Block) (sweep : Sweep) :
    frameNames (sweep.add blocks).frames = frameNames sweep.frames := by
  obtain ⟨outer, frames, notes⟩ := sweep
  cases frames <;> rfl

theorem hasOpen_iff {name : Text} {sweep : Sweep} :
    sweep.hasOpen name = true ↔ name ∈ frameNames sweep.frames := by
  simp [hasOpen, frameNames]

/-- A block that is read in place is kept, and the containers that are open are those of the
reading. -/
theorem held_step {sweep : Sweep} {block : Block} {next : List Text}
    (h : nextOpened? (frameNames sweep.frames) block = some next) :
    (sweep.step block).held = block :: sweep.held ∧ frameNames (sweep.step block).frames = next := by
  unfold nextOpened? at h
  unfold step
  split at h
  · next ho =>
    rw [if_pos ho]
    cases h
    exact ⟨rfl, rfl⟩
  · next ho =>
    rw [if_neg ho]
    split at h
    · next hc =>
      rw [if_pos hc]
      split at h
      · next hhead =>
        obtain ⟨outer, frames, notes⟩ := sweep
        cases frames with
        | nil => cases hhead
        | cons frame more =>
            have hname : frame.opening.name = block.name := Option.some.inj hhead
            cases h
            rw [if_pos (hasOpen_iff.2 (by simp [frameNames, hname])), closeThrough,
              if_pos (by simp [hname]), held_add, frameNames_add]
            exact ⟨by simp [held, heldIn_cons], rfl⟩
      · split at h
        · next hstray =>
          obtain ⟨hk, hfree⟩ := Bool.and_eq_true_iff.1 hstray
          cases h
          have hopen : ¬ sweep.hasOpen block.name = true := by
            rw [hasOpen_iff]
            simpa using hfree
          rw [if_neg hopen, if_pos hk]
          exact ⟨held_add _ _, frameNames_add _ _⟩
        · cases h
    · next hc =>
      cases h
      rw [if_neg hc]
      exact ⟨held_add _ _, frameNames_add _ _⟩

theorem held_foldl {sweep : Sweep} {blocks : List Block} {final : List Text}
    (h : openedAfter? (frameNames sweep.frames) blocks = some final) :
    (blocks.foldl step sweep).held = blocks.reverse ++ sweep.held ∧
      frameNames (blocks.foldl step sweep).frames = final := by
  induction blocks generalizing sweep with
  | nil => exact ⟨rfl, Option.some.inj h⟩
  | cons block blocks ih =>
      rw [openedAfter?, Option.bind_eq_some_iff] at h
      obtain ⟨next, hnext, hmore⟩ := h
      obtain ⟨hheld, hnames⟩ := held_step hnext
      obtain ⟨hall, hfinal⟩ := ih (hnames ▸ hmore)
      refine ⟨?_, hfinal⟩
      rw [List.foldl_cons, hall, hheld, List.reverse_cons, List.append_assoc, List.singleton_append]

end Sweep

theorem balance_of_nested {blocks : List Block} (h : Nested blocks) : balance blocks = blocks := by
  have hopened : openedAfter? (frameNames ({} : Sweep).frames) blocks = some [] := h
  obtain ⟨hheld, hnames⟩ := Sweep.held_foldl hopened
  have hframes : (Sweep.run blocks).frames = [] := List.map_eq_nil_iff.1 hnames
  have hremaining : (Sweep.run blocks).remaining = (Sweep.run blocks).held := by
    rw [Sweep.remaining, Sweep.held, hframes]
    rfl
  have hall : (Sweep.run blocks).held = blocks.reverse := hheld.trans (List.append_nil _)
  rw [balance, hremaining, hall, List.reverse_reverse]

/-! ### Demoting and cleaning keep content -/

theorem isContent_demote (maxLevel : Int) (block : Block) :
    (demote maxLevel block).isContent = block.isContent := by
  unfold demote
  split
  · next h =>
    have hk : block.kind = .heading := by
      simp only [Bool.and_eq_true, beq_iff_eq] at h
      exact h.1
    rw [isContent_of_text (by rfl)]
    simp [Block.isContent, Block.opens, Block.closes, hk]
  · rfl

theorem filter_isContent_map_demote (maxLevel : Int) (blocks : List Block) :
    (blocks.map (demote maxLevel)).filter Block.isContent =
      (blocks.filter Block.isContent).map (demote maxLevel) := by
  rw [List.filter_map]
  congr 2
  funext block
  exact isContent_demote maxLevel block

/-- Running text is dropped if it is blank, and nothing else is. -/
theorem cleanBlock?_eq_none_iff {block : Block} :
    cleanBlock? block = none ↔ block.kind = .text ∧ block.text.isAllBlank = true := by
  unfold cleanBlock?
  rw [← isAllBlank_cleanText]
  split
  · next hk => simp [(by simpa using hk : block.kind = .text)]
  · next hk => simp [(by simpa using hk : ¬ block.kind = .text)]

/-- What is kept of a block: everything but the blanks around the words of running text. -/
theorem words_of_cleanBlock? {block cleaned : Block} (h : cleanBlock? block = some cleaned) :
    (block.kind ≠ .text → cleaned = block) ∧
      (block.kind = .text → cleaned.kind = .text ∧ cleaned.text = cleanText block.text ∧
        cleaned.text.words = block.text.words) := by
  obtain ⟨hk, rfl⟩ | ⟨hk, hk', ht, _⟩ := cleanBlock?_eq_some h
  · exact ⟨fun _ => rfl, fun e => absurd e hk⟩
  · exact ⟨fun hne => absurd hk hne, fun _ => ⟨hk', ht, by rw [ht, words_cleanText]⟩⟩

theorem isContent_of_cleanBlock? {block cleaned : Block} (h : cleanBlock? block = some cleaned) :
    cleaned.isContent = block.isContent := by
  obtain ⟨_, rfl⟩ | ⟨hk, hk', _⟩ := cleanBlock?_eq_some h
  · rfl
  · rw [isContent_of_text hk, isContent_of_text hk']

theorem filter_isContent_filterMap_cleanBlock? (blocks : List Block) :
    (blocks.filterMap cleanBlock?).filter Block.isContent =
      (blocks.filter Block.isContent).filterMap cleanBlock? := by
  induction blocks with
  | nil => rfl
  | cons block blocks ih =>
      cases hc : cleanBlock? block with
      | none =>
          have hcontent := isContent_of_text (cleanBlock?_eq_none_iff.1 hc).1
          rw [List.filterMap_cons_none hc, List.filter_cons_of_pos hcontent,
            List.filterMap_cons_none hc, ih]
      | some cleaned =>
          have hsame := isContent_of_cleanBlock? hc
          rw [List.filterMap_cons_some hc, List.filter_cons, List.filter_cons, hsame]
          split
          · rw [List.filterMap_cons_some hc, ih]
          · exact ih

/-! ### Empty fields -/

/-- Fields without content are taken out, one after another. -/
inductive FieldsDropped : List Block → List Block → Prop
  | refl (blocks : List Block) : FieldsDropped blocks blocks
  | drop {before after kept : List Block} {opening closing : Block} :
      IsEmptyField opening closing → FieldsDropped (before ++ after) kept →
      FieldsDropped (before ++ opening :: closing :: after) kept

theorem FieldsDropped.losesTags {blocks kept : List Block} (h : FieldsDropped blocks kept) :
    LosesTags kept blocks := by
  induction h with
  | refl blocks => exact LosesTags.refl blocks
  | @drop before after kept opening closing he _ ih =>
      obtain ⟨ho, hc, _⟩ := he
      exact ih.trans ((LosesTags.refl before).append
        ((LosesTags.drop (isContent_of_closes hc) after).trans
          (LosesTags.drop (isContent_of_opens ho) _)))

theorem fieldsDropped_foldl_addCleaned (cleaned blocks : List Block) :
    FieldsDropped (cleaned.reverse ++ blocks) (blocks.foldl addCleaned cleaned).reverse := by
  induction blocks generalizing cleaned with
  | nil =>
      rw [List.append_nil]
      exact .refl _
  | cons block blocks ih =>
      rw [List.foldl_cons]
      cases cleaned with
      | nil => exact ih [block]
      | cons before more =>
          rw [addCleaned]
          split
          · next hw =>
            rw [List.reverse_cons, List.append_assoc, List.singleton_append]
            exact .drop (wouldEmpty_iff.1 hw) (ih more)
          · have h := ih (block :: before :: more)
            rwa [List.reverse_cons, List.append_assoc, List.singleton_append] at h

/-- Cleaning drops blank text and then fields without content. -/
theorem fieldsDropped_clean (blocks : List Block) :
    FieldsDropped (blocks.filterMap cleanBlock?) (clean blocks) :=
  fieldsDropped_foldl_addCleaned [] _

/-! ### Repairing -/

theorem filter_isContent_repairBlocks (maxLevel : Int) (blocks : List Block) :
    (repairBlocks maxLevel blocks).filter Block.isContent =
      ((blocks.filter Block.isContent).map (demote maxLevel)).filterMap cleanBlock? := by
  rw [repairBlocks, (fieldsDropped_clean _).losesTags.content,
    filter_isContent_filterMap_cleanBlock?, filter_isContent_map_demote,
    (losesTags_balance blocks).content]

/-- Repairing keeps all content in its order, once demoted and cleaned: only running text that is
blank is dropped.  Balancing keeps blocks in their order, and all of them if the containers are
nested; then no tag is missing but those of fields that nothing is left of. -/
theorem Document.repair_keeps_content (maxLevel : Int) (doc : Document) :
    (doc.repair maxLevel).blocks.filter Block.isContent =
        ((doc.blocks.filter Block.isContent).map (demote maxLevel)).filterMap cleanBlock? ∧
      (∀ block, cleanBlock? block = none ↔ block.kind = .text ∧ block.text.isAllBlank = true) ∧
      (∀ block cleaned, cleanBlock? block = some cleaned →
        (block.kind ≠ .text → cleaned = block) ∧
          (block.kind = .text → cleaned.kind = .text ∧ cleaned.text = cleanText block.text ∧
            cleaned.text.words = block.text.words)) ∧
      (balance doc.blocks).Sublist doc.blocks ∧
      (Nested doc.blocks → balance doc.blocks = doc.blocks ∧
        FieldsDropped ((doc.blocks.map (demote maxLevel)).filterMap cleanBlock?)
          (doc.repair maxLevel).blocks) := by
  refine ⟨filter_isContent_repairBlocks maxLevel doc.blocks, fun _ => cleanBlock?_eq_none_iff,
    fun _ _ h => words_of_cleanBlock? h, (losesTags_balance doc.blocks).sublist, fun h => ?_⟩
  have hbalance := balance_of_nested h
  refine ⟨hbalance, ?_⟩
  have hdropped : FieldsDropped (((balance doc.blocks).map (demote maxLevel)).filterMap cleanBlock?)
      (doc.repair maxLevel).blocks := fieldsDropped_clean _
  rwa [hbalance] at hdropped

example : repairBlocks 4 [Block.openTag "ParamField" [] false, Block.paragraph " ",
      Block.closeTag "ParamField", Block.paragraph "kept "] = [Block.paragraph "kept"] := by
  decide +kernel

end ApiReference
