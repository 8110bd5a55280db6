import ApiReference.Proofs.Kept

/-! # Open containers and stray closing tags

Which containers are open after a block, when a closing tag closes the innermost container of its
name together with all inside it (`openedBy`), and which closing tags are stray because they name no
open container (`strayNames`).  This reading goes through for all blocks; where they are nested it is
the one that `Nested` is about (`openedBy_of_nextOpened?`), and balancing reads in the same way
(`Sweep.frameNames_step`).

Main statements: only container tags count (`strayNames_filter`, `openedAfter?_filter_isContainer`),
and blocks that are nested by themselves are read in the same way inside other containers, as long as
none of these has a name whose stray closing tags are kept (`openedAfter?_append_opened`). -/

namespace ApiReference

/-! ### Reading on -/

/-- The open containers after one more block, the innermost one first.  A closing tag closes the
innermost container of its name and all inside it, or nothing if there is none of its name. -/
def openedBy (opened : List Text) (block : Block) : List Text :=
  if block.opens then block.name :: opened
  else if block.closes && opened.contains block.name then
    (opened.dropWhile fun name => name != block.name).tail
  else opened

/-- The open containers after blocks. -/
def openedBlocks (opened : List Text) (blocks : List Block) : List Text :=
  blocks.foldl openedBy opened

/-- The block is a closing tag that names no open container. -/
def isStray (opened : List Text) (block : Block) : Bool :=
  block.closes && !opened.contains block.name

/-- The names of the stray closing tags among blocks. -/
def strayNames (opened : List Text) : List Block → List Text
  | [] => []
  | block :: more =>
    (if isStray opened block then [block.name] else []) ++
      strayNames (openedBy opened block) more

theorem closes_of_opens {block : Block} (h : block.opens = true) : block.closes = false := by
  by_contra hc
  rw [opens_of_closes (by simpa using hc)] at h
  cases h

theorem openedBy_content (opened : List Text) {block : Block} (ho : block.opens = false)
    (hc : block.closes = false) : openedBy opened block = opened := by
  simp [openedBy, ho, hc]

theorem isStray_content (opened : List Text) {block : Block} (hc : block.closes = false) :
    isStray opened block = false := by
  simp [isStray, hc]

theorem openedBlocks_cons (opened : List Text) (block : Block) (more : List Block) :
    openedBlocks opened (block :: more) = openedBlocks (openedBy opened block) more := rfl

theorem strayNames_append (opened : List Text) (a b : List Block) :
    strayNames opened (a ++ b) = strayNames opened a ++ strayNames (openedBlocks opened a) b := by
  induction a generalizing opened with
  | nil => rfl
  | cons block a ih =>
      rw [List.cons_append, strayNames, strayNames, openedBlocks_cons, ih, List.append_assoc]

/-! ### Only tags count -/

theorem opens_of_not_isContainer {block : Block} (h : block.isContainer = false) :
    block.opens = false := by
  have hk : (block.kind == .opening) = false := (Bool.or_eq_false_iff.1 h).1
  rw [Block.opens, hk, Bool.false_and]

theorem closes_of_not_isContainer {block : Block} (h : block.isContainer = false) :
    block.closes = false := (Bool.or_eq_false_iff.1 h).2

theorem isContainer_of_opens {block : Block} (h : block.opens = true) : block.isContainer = true := by
  rw [Block.isContainer, (Bool.and_eq_true_iff.1 h).1, Bool.true_or]

theorem isContainer_of_closes {block : Block} (h : block.closes = true) :
    block.isContainer = true := by
  have hk : (block.kind == .closing) = true := h
  rw [Block.isContainer, hk, Bool.or_true]

theorem strayNames_filter (opened : List Text) (blocks : List Block) :
    strayNames opened (blocks.filter Block.isContainer) = strayNames opened blocks := by
  induction blocks generalizing opened with
  | nil => rfl
  | cons block blocks ih =>
      by_cases hb : block.isContainer = true
      · rw [List.filter_cons_of_pos hb, strayNames, strayNames, ih]
      · have hb' : block.isContainer = false := by simpa using hb
        have hc := closes_of_not_isContainer hb'
        rw [List.filter_cons_of_neg hb, strayNames, ih,
          openedBy_content opened (opens_of_not_isContainer hb') hc, isStray_content opened hc]
        rfl

theorem openedAfter?_filter_isContainer (opened : List Text) (blocks : List Block) :
    openedAfter? opened (blocks.filter Block.isContainer) = openedAfter? opened blocks := by
  induction blocks generalizing opened with
  | nil => rfl
  | cons block blocks ih =>
      by_cases hb : block.isContainer = true
      · rw [List.filter_cons_of_pos hb, openedAfter?, openedAfter?]
        simp only [ih]
      · have hb' : block.isContainer = false := by simpa using hb
        rw [List.filter_cons_of_neg hb, openedAfter?, ih,
          nextOpened?_content opened (opens_of_not_isContainer hb') (closes_of_not_isContainer hb')]
        rfl

/-- The tags of containers are left as they are, and nothing else is made one. -/
def LeavesTags (f : Block → Block) : Prop :=
  ∀ block, f block = block ∨ block.isContainer = false ∧ (f block).isContainer = false

theorem LeavesTags.filter_map {f : Block → Block} (hf : LeavesTags f) (blocks : List Block) :
    (blocks.map f).filter Block.isContainer = blocks.filter Block.isContainer := by
  induction blocks with
  | nil => rfl
  | cons block blocks ih =>
      rw [List.map_cons, List.filter_cons, List.filter_cons, ih]
      rcases hf block with h | ⟨h, h'⟩
      · rw [h]
      · rw [h, h']
        rfl

theorem leavesTags_demote (maxLevel : Int) : LeavesTags (demote maxLevel) := by
  intro block
  unfold demote
  split
  · next h =>
    have hk : block.kind = .heading := by
      simp only [Bool.and_eq_true, beq_iff_eq] at h
      exact h.1
    exact .inr ⟨by simp [Block.isContainer, hk], rfl⟩
  · exact .inl rfl

theorem not_isContainer_of_text {block : Block} (h : block.kind = .text) :
    block.isContainer = false := by
  simp [Block.isContainer, h]

theorem filter_isContainer_filterMap_cleanBlock? (blocks : List Block) :
    (blocks.filterMap cleanBlock?).filter Block.isContainer = blocks.filter Block.isContainer := by
  induction blocks with
  | nil => rfl
  | cons block blocks ih =>
      cases hc : cleanBlock? block with
      | none =>
          have htext := not_isContainer_of_text (kind_of_cleanBlock?_none hc)
          rw [List.filterMap_cons_none hc, ih, List.filter_cons_of_neg (by simp [htext])]
      | some cleaned =>
          rw [List.filterMap_cons_some hc, List.filter_cons, List.filter_cons, ih]
          obtain ⟨_, rfl⟩ | ⟨hk, hk', _⟩ := cleanBlock?_eq_some hc
          · rfl
          · rw [not_isContainer_of_text hk, not_isContainer_of_text hk']
            rfl

/-! ### Nested blocks -/

/-- Where a closing tag is in place, it closes the innermost container or is stray. -/
theorem openedBy_of_nextOpened? {opened next : List Text} {block : Block}
    (h : nextOpened? opened block = some next) : openedBy opened block = next := by
  unfold nextOpened? at h
  unfold openedBy
  split at h
  · next ho =>
    rw [if_pos ho]
    exact Option.some.inj h
  · next ho =>
    rw [if_neg ho]
    split at h
    · next hc =>
      split at h
      · next hhead =>
        cases opened with
        | nil => cases hhead
        | cons name opened =>
            have hname : name = block.name := Option.some.inj hhead
            subst hname
            cases h
            simp [hc]
      · split at h
        · next hstray =>
          have hfree : opened.contains block.name = false := by
            simpa using (Bool.and_eq_true_iff.1 hstray).2
          cases h
          rw [hfree, Bool.and_false, if_neg Bool.false_ne_true]
        · cases h
    · next hc =>
      cases h
      simp [hc]

/-- A block that is read in place is read in the same way where further containers are open around,
as long as its stray closing tags find none of their name there. -/
theorem nextOpened?_append_opened {opened next around : List Text} {block : Block}
    (h : nextOpened? opened block = some next)
    (hfree : ∀ name ∈ around, isKeptWhenStray name = false) :
    nextOpened? (opened ++ around) block = some (next ++ around) ∧
      isStray (opened ++ around) block = isStray opened block := by
  unfold nextOpened? at h
  split at h
  · next ho =>
    cases h
    have hc : block.closes = false := closes_of_opens ho
    rw [nextOpened?_opens _ ho, isStray_content _ hc, isStray_content _ hc]
    exact ⟨rfl, rfl⟩
  · next ho =>
    have ho : block.opens = false := by simpa using ho
    split at h
    · next hc =>
      split at h
      · next hhead =>
        cases opened with
        | nil => cases hhead
        | cons name opened =>
            have hname : name = block.name := Option.some.inj hhead
            subst hname
            cases h
            refine ⟨nextOpened?_closes _ hc, ?_⟩
            simp [isStray]
      · split at h
        · next hstray =>
          obtain ⟨hk, hn⟩ := Bool.and_eq_true_iff.1 hstray
          cases h
          have hn : block.name ∉ opened := by simpa using hn
          have ha : block.name ∉ around := fun hm => by
            rw [hfree _ hm] at hk
            cases hk
          have hall : block.name ∉ opened ++ around := by simp [hn, ha]
          refine ⟨nextOpened?_stray ho hk hall, ?_⟩
          simp [isStray, hn, ha]
        · cases h
    · next hc =>
      have hc : block.closes = false := by simpa using hc
      cases h
      rw [nextOpened?_content _ ho hc, isStray_content _ hc, isStray_content _ hc]
      exact ⟨rfl, rfl⟩

/-- Blocks whose closing tags are in place are read in the same way inside other containers. -/
theorem openedAfter?_append_opened {around : List Text}
    (hfree : ∀ name ∈ around, isKeptWhenStray name = false) {blocks : List Block}
    {opened final : List Text} (h : openedAfter? opened blocks = some final) :
    openedAfter? (opened ++ around) blocks = some (final ++ around) ∧
      strayNames (opened ++ around) blocks = strayNames opened blocks := by
  induction blocks generalizing opened with
  | nil =>
      cases h
      exact ⟨rfl, rfl⟩
  | cons block blocks ih =>
      rw [openedAfter?, Option.bind_eq_some_iff] at h
      obtain ⟨next, hnext, hmore⟩ := h
      obtain ⟨hboth, hstray⟩ := nextOpened?_append_opened hnext hfree
      obtain ⟨hread, hstrays⟩ := ih hmore
      rw [openedAfter?, hboth, strayNames, strayNames, hstray, openedBy_of_nextOpened? hboth,
        openedBy_of_nextOpened? hnext, hstrays]
      exact ⟨hread, rfl⟩

theorem openedBlocks_of_openedAfter? {blocks : List Block} {opened final : List Text}
    (h : openedAfter? opened blocks = some final) : openedBlocks opened blocks = final := by
  induction blocks generalizing opened with
  | nil => exact Option.some.inj h
  | cons block blocks ih =>
      rw [openedAfter?, Option.bind_eq_some_iff] at h
      obtain ⟨next, hnext, hmore⟩ := h
      rw [openedBlocks_cons, openedBy_of_nextOpened? hnext]
      exact ih hmore

end ApiReference
