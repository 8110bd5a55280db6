import ApiReference.Proofs.Locality

/-! # One field among other blocks

What repairing makes of a field, whatever comes before and after its opening tag.  The field is kept
if some tag closes it and repairing leaves something of its content (`KeepsField`); then it stays
whole, with its content repaired by itself (`repairBlocks_of_keepsField`).  Otherwise its opening tag
is gone, and everything else is repaired without it (`repairedFrom_of_not_keepsField`).

Balancing one container is the subject of `balance_of_closed`.  What is left is cleaning, which drops
a field when its tags meet: blocks that are read in place never reach below those cleaned before
(`foldl_addCleaned_append_of_opened`). -/

namespace ApiReference

/-! ### Cleaning one part after another -/

/-- A block that is read in place where nothing is open does not close a field. -/
theorem wouldEmpty_of_nextOpened? {block : Block} {next : List Text}
    (h : nextOpened? [] block = some next) (before : Block) : wouldEmpty block before = false := by
  by_contra hw
  obtain ⟨_, hc, hf, hn⟩ := wouldEmpty_iff.1 (by simpa using hw : wouldEmpty block before = true)
  have hkept : isKeptWhenStray block.name = true := by
    by_contra hk
    simp [nextOpened?, hc, opens_of_closes hc, hk] at h
  have hname : block.name = ("CodeGroup" : Text) := by simpa [isKeptWhenStray] using hkept
  rw [hn, hname] at hf
  exact absurd hf (by decide)

theorem addCleaned_append {top base : List Block} {block : Block} {opened next : List Text}
    (htop : openedAfter? [] top.reverse = some opened) (h : nextOpened? opened block = some next) :
    addCleaned (top ++ base) block = addCleaned top block ++ base := by
  cases top with
  | nil =>
      cases htop
      cases base with
      | nil => rfl
      | cons before base => simp [addCleaned, wouldEmpty_of_nextOpened? h before]
  | cons before top =>
      simp only [List.cons_append, addCleaned]
      split <;> rfl

theorem addCleaned_of_not_closes {block : Block} (hc : block.closes = false) (cleaned : List Block) :
    addCleaned cleaned block = block :: cleaned := by
  cases cleaned <;> simp [addCleaned, wouldEmpty, hc]

/-- Blocks that are read in place do not reach below what was cleaned before. -/
theorem foldl_addCleaned_append_of_opened {blocks top : List Block} {opened final : List Text}
    (htop : openedAfter? [] top.reverse = some opened)
    (h : openedAfter? opened blocks = some final) (base : List Block) :
    blocks.foldl addCleaned (top ++ base) = blocks.foldl addCleaned top ++ base := by
  induction blocks generalizing top opened with
  | nil => rfl
  | cons block blocks ih =>
      rw [openedAfter?, Option.bind_eq_some_iff] at h
      obtain ⟨next, hnext, hmore⟩ := h
      rw [List.foldl_cons, List.foldl_cons, addCleaned_append htop hnext]
      refine ih ?_ hmore
      rw [openedAfter?_addCleaned, openedAfter?_append, htop]
      simp [openedAfter?, hnext]

/-- No block reaches below one that opens nothing. -/
theorem foldl_addCleaned_append_of_not_opens {bottom : Block} (hb : bottom.opens = false)
    (base : List Block) (blocks top : List Block) :
    blocks.foldl addCleaned (top ++ bottom :: base) =
      blocks.foldl addCleaned top ++ bottom :: base := by
  induction blocks generalizing top with
  | nil => rfl
  | cons block blocks ih =>
      have hstep : addCleaned (top ++ bottom :: base) block =
          addCleaned top block ++ bottom :: base := by
        cases top with
        | nil => simp [addCleaned, wouldEmpty, hb]
        | cons before top =>
            simp only [List.cons_append, addCleaned]
            split <;> rfl
      rw [List.foldl_cons, List.foldl_cons, hstep, ih]

/-- Nothing is open after nested blocks, so the last one opens nothing. -/
theorem opens_of_nested_reverse_cons {last : Block} {more : List Block}
    (h : Nested (last :: more).reverse) : last.opens = false := by
  by_contra ho
  have ho : last.opens = true := by simpa using ho
  unfold Nested at h
  rw [List.reverse_cons, openedAfter?_append, Option.bind_eq_some_iff] at h
  obtain ⟨next, _, hnext⟩ := h
  simp [openedAfter?, nextOpened?_opens next ho] at hnext

/-! ### Demoting and cleaning block by block -/

/-- The blocks demoted and cleaned one by one. -/
def tidied (maxLevel : Int) (blocks : List Block) : List Block :=
  (blocks.map (demote maxLevel)).filterMap cleanBlock?

theorem clean_map_demote (maxLevel : Int) (blocks : List Block) :
    clean (blocks.map (demote maxLevel)) = ((tidied maxLevel blocks).foldl addCleaned []).reverse :=
  rfl

theorem tidied_append (maxLevel : Int) (a b : List Block) :
    tidied maxLevel (a ++ b) = tidied maxLevel a ++ tidied maxLevel b := by
  rw [tidied, List.map_append, List.filterMap_append]
  rfl

/-- Tags of containers stay as they are. -/
theorem tidied_cons_of_isContainer (maxLevel : Int) {tag : Block} (h : tag.isContainer = true)
    (blocks : List Block) : tidied maxLevel (tag :: blocks) = tag :: tidied maxLevel blocks := by
  have hheading : (tag.kind == .heading) = false := by
    cases hk : tag.kind <;> simp [Block.isContainer, hk] at h ⊢
  have htext : (tag.kind == .text) = false := by
    cases hk : tag.kind <;> simp [Block.isContainer, hk] at h ⊢
  simp [tidied, demote, cleanBlock?, hheading, htext]

theorem openedAfter?_tidied (maxLevel : Int) (opened : List Text) (blocks : List Block) :
    openedAfter? opened (tidied maxLevel blocks) = openedAfter? opened blocks := by
  rw [tidied, openedAfter?_filterMap_cleanBlock?, openedAfter?_map_demote]

/-- Balanced blocks are cleaned over any others as they are by themselves. -/
theorem foldl_addCleaned_balance (maxLevel : Int) (content base : List Block) :
    (tidied maxLevel (balance content)).foldl addCleaned base =
      (repairBlocks maxLevel content).reverse ++ base := by
  have hread : openedAfter? [] (tidied maxLevel (balance content)) = some [] :=
    (openedAfter?_tidied maxLevel [] _).trans (nested_balance content)
  have hnone : openedAfter? [] ([] : List Block).reverse = some [] := rfl
  have h := foldl_addCleaned_append_of_opened hnone hread base
  rw [List.nil_append] at h
  rw [h, repairBlocks, clean_map_demote, List.reverse_reverse]

/-! ### Fields that are kept -/

/-- What repairing leaves of blocks, some tags of containers apart. -/
def RepairedFrom (maxLevel : Int) (blocks repaired : List Block) : Prop :=
  ∃ kept, LosesTags kept blocks ∧ repaired = clean (kept.map (demote maxLevel))

/-- The field that a tag opens after blocks is kept: a tag closes it after content, and repairing
leaves something of the content. -/
structure KeepsField (maxLevel : Int) (before : List Block) (tag : Block) (content : List Block)
    (closing : Block) : Prop where
  closed : ClosesAfter tag.name (openedBlocks [] before) content closing
  filled : repairBlocks maxLevel content ≠ []

/-- A field whose content neither leaves a container of its name open nor closes one around it is
closed by its own closing tag. -/
theorem closesAfter_own {tag closing : Block} {before content : List Block}
    (hc : closing.closes = true) (hname : closing.name = tag.name)
    (hopen : tag.name ∉ openedBlocks [] content)
    (hstray : ∀ name ∈ strayNames [] content, name ∉ tag.name :: openedBlocks [] before) :
    ClosesAfter tag.name (openedBlocks [] before) content closing where
  closes := by simp [isStray, hc, hname, hopen]
  name := hname
  inner := hstray

section

variable {maxLevel : Int} {before content : List Block} {tag closing : Block}

/-- Cleaning arrives at the closing tag of a field with the repaired content on top of its opening
tag. -/
theorem repairBlocks_of_closesAfter (maxLevel : Int) (rest : List Block) (ho : tag.opens = true)
    (h : ClosesAfter tag.name (openedBlocks [] before) content closing) :
    ∃ b a, LosesTags b before ∧ LosesTags a rest ∧
      repairBlocks maxLevel (before ++ tag :: (content ++ closing :: rest)) =
        ((tidied maxLevel a).foldl addCleaned (addCleaned ((repairBlocks maxLevel content).reverse ++
          tag :: (tidied maxLevel b).foldl addCleaned []) closing)).reverse := by
  obtain ⟨b, a, hb, ha, hbalance⟩ := balance_of_closed rest ho h
  have hclosing : closing.isContainer = true :=
    isContainer_of_closes (Bool.and_eq_true_iff.1 h.closes).1
  refine ⟨b, a, hb, ha, ?_⟩
  rw [repairBlocks, hbalance, clean_map_demote, tidied_append,
    tidied_cons_of_isContainer _ (isContainer_of_opens ho), tidied_append,
    tidied_cons_of_isContainer _ hclosing, List.foldl_append, List.foldl_cons,
    addCleaned_of_not_closes (closes_of_opens ho), List.foldl_append, foldl_addCleaned_balance,
    List.foldl_cons]

/-- A field that is kept stays whole, with its content repaired by itself. -/
theorem repairBlocks_of_keepsField (rest : List Block) (ho : tag.opens = true)
    (h : KeepsField maxLevel before tag content closing) :
    ∃ front back, RepairedFrom maxLevel before front ∧ RepairedFrom maxLevel rest back ∧
      repairBlocks maxLevel (before ++ tag :: (content ++ closing :: rest)) =
        front ++ tag :: (repairBlocks maxLevel content ++ closing :: back) := by
  obtain ⟨b, a, hb, ha, hrepaired⟩ :=
    repairBlocks_of_closesAfter maxLevel rest ho h.closed
  refine ⟨_, _, ⟨b, hb, rfl⟩, ⟨a, ha, rfl⟩, ?_⟩
  have hclosing : closing.closes = true := (Bool.and_eq_true_iff.1 h.closed.closes).1
  -- The last block of the content is not the opening tag of a field, so the closing tag stays.
  have hkept : addCleaned ((repairBlocks maxLevel content).reverse ++
        tag :: (tidied maxLevel b).foldl addCleaned []) closing =
      closing :: ((repairBlocks maxLevel content).reverse ++
        tag :: (tidied maxLevel b).foldl addCleaned []) := by
    cases hr : (repairBlocks maxLevel content).reverse with
    | nil => exact absurd (List.reverse_eq_nil_iff.1 hr) h.filled
    | cons last more =>
        have hlast : last.opens = false := by
          have hnested : Nested (last :: more).reverse := by
            rw [← hr, List.reverse_reverse]
            exact nested_repairBlocks maxLevel content
          exact opens_of_nested_reverse_cons hnested
        simp [addCleaned, wouldEmpty, hlast]
  have hback := foldl_addCleaned_append_of_not_opens (opens_of_closes hclosing)
    ((repairBlocks maxLevel content).reverse ++ tag :: (tidied maxLevel b).foldl addCleaned [])
    (tidied maxLevel a) []
  rw [List.nil_append] at hback
  rw [hrepaired, hkept, hback]
  simp [clean_map_demote]

/-- A field that is closed but left without content goes with its tags. -/
theorem repairedFrom_of_empty (rest : List Block) (ho : tag.opens = true)
    (hf : Block.isFieldName tag.name = true)
    (h : ClosesAfter tag.name (openedBlocks [] before) content closing)
    (hempty : repairBlocks maxLevel content = []) :
    RepairedFrom maxLevel (before ++ (content ++ closing :: rest))
      (repairBlocks maxLevel (before ++ tag :: (content ++ closing :: rest))) := by
  obtain ⟨b, a, hb, ha, hrepaired⟩ :=
    repairBlocks_of_closesAfter maxLevel rest ho h
  have hclosing : closing.closes = true := (Bool.and_eq_true_iff.1 h.closes).1
  refine ⟨b ++ (balance content ++ a), ?_, ?_⟩
  · exact hb.append ((losesTags_balance content).append
      (ha.trans (LosesTags.drop (isContent_of_closes hclosing) rest)))
  · have hdropped : addCleaned (tag :: (tidied maxLevel b).foldl addCleaned []) closing =
        (tidied maxLevel b).foldl addCleaned [] := by
      have hw : wouldEmpty closing tag = true :=
        wouldEmpty_iff.2 ⟨ho, hclosing, hf, h.name.symm⟩
      simp [addCleaned, hw]
    rw [hrepaired, clean_map_demote, tidied_append, tidied_append, List.foldl_append,
      List.foldl_append, foldl_addCleaned_balance, hempty, List.reverse_nil, List.nil_append,
      List.nil_append, hdropped]

/-- The opening tag of a field that is not kept is gone; all else is repaired without it. -/
theorem repairedFrom_of_not_keepsField {after : List Block} (ho : tag.opens = true)
    (hf : Block.isFieldName tag.name = true)
    (h : ∀ content closing rest, after = content ++ closing :: rest →
      ¬ KeepsField maxLevel before tag content closing) :
    RepairedFrom maxLevel (before ++ after) (repairBlocks maxLevel (before ++ tag :: after)) := by
  by_cases hclosed : ∃ content closing rest, after = content ++ closing :: rest ∧
      ClosesAfter tag.name (openedBlocks [] before) content closing
  · obtain ⟨content, closing, rest, rfl, hclosed⟩ := hclosed
    refine repairedFrom_of_empty rest ho hf hclosed ?_
    by_contra hfilled
    exact h content closing rest rfl ⟨hclosed, hfilled⟩
  · exact ⟨_, balance_of_not_closed ho fun content closing rest e hc =>
      hclosed ⟨content, closing, rest, e, hc⟩, rfl⟩

end

/-- A tag of a container after repairing was there before. -/
theorem RepairedFrom.mem_of_isContainer {maxLevel : Int} {blocks repaired : List Block}
    (h : RepairedFrom maxLevel blocks repaired) {tag : Block} (ht : tag.isContainer = true)
    (hm : tag ∈ repaired) : tag ∈ blocks := by
  obtain ⟨kept, hkept, rfl⟩ := h
  obtain ⟨source, hsource, hclean⟩ := exists_of_mem_clean hm
  obtain ⟨origin, horigin, rfl⟩ := List.mem_map.1 hsource
  have hsame : demote maxLevel origin = tag := by
    obtain ⟨_, e⟩ | ⟨_, hk, _⟩ := cleanBlock?_eq_some hclean
    · exact e.symm
    · rw [not_isContainer_of_text hk] at ht
      cases ht
  rcases leavesTags_demote maxLevel origin with e | ⟨_, hno⟩
  · rw [e] at hsame
    exact hsame ▸ hkept.sublist.subset horigin
  · rw [hsame, ht] at hno
    cases hno

example : repairBlocks 4 [Block.openTag "Expandable" [] false, Block.openTag "ParamField" [] false,
      Block.paragraph "Pixels.", Block.closeTag "Expandable", Block.closeTag "ParamField",
      Block.closeTag "Expandable"] =
    [Block.openTag "Expandable" [] false, Block.paragraph "Pixels.",
      Block.closeTag "Expandable"] := by
  decide +kernel

end ApiReference
