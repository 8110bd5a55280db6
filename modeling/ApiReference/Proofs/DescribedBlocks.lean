import ApiReference.Proofs.OverviewEntries

/-! # Where a description is looked for

The overview takes the first line that can serve as a description, outside all containers and
before the next heading (`Overview.described`).  Fields without content do not matter for it, so it
can be read off before they are dropped (`Overview.described_foldl_addCleaned`), and nested blocks
hide what they hold from it inside a container, except that a heading ends the search
(`Overview.hides_wrap`). -/

namespace ApiReference

/-- The block is a heading. -/
def Block.isHeading (block : Block) : Bool := block.kind == .heading

namespace Overview

/-- The description that is found among blocks, before the next heading; `depth` is the number of
open containers. -/
def described (depth : Nat) (blocks : List Block) : Option Text :=
  firstDescription depth (untilHeading blocks)

section

variable {block : Block} (depth : Nat) (more : List Block)

theorem described_heading (h : block.isHeading = true) :
    described depth (block :: more) = none := by
  have hkind : block.kind = .heading := beq_iff_eq.1 h
  simp [described, untilHeading, hkind, firstDescription]

/-- What is not a heading is read on its own. -/
theorem described_cons (h : block.isHeading = false) : described depth (block :: more) =
    if block.opens then described (depth + 1) more
    else if block.closes then described (depth - 1) more
    else if block.kind == .text && depth == 0 then
      (descriptionLine? (Text.lines block.text)).or (described depth more)
    else described depth more := by
  have hkind : (block.kind != .heading) = true := by
    rw [Block.isHeading] at h
    rw [bne, h]
    rfl
  rw [described, untilHeading, List.takeWhile_cons, if_pos hkind, firstDescription]
  repeat' split
  all_goals simp_all [described, untilHeading]

theorem isHeading_of_isContainer (h : block.isContainer = true) : block.isHeading = false := by
  cases hk : block.kind <;> simp [Block.isContainer, Block.isHeading, hk] at h ⊢

theorem described_opens (h : block.opens = true) :
    described depth (block :: more) = described (depth + 1) more := by
  rw [described_cons depth more (isHeading_of_isContainer (isContainer_of_opens h)), if_pos h]

theorem described_closes (h : block.closes = true) :
    described depth (block :: more) = described (depth - 1) more := by
  rw [described_cons depth more (isHeading_of_isContainer (isContainer_of_closes h)),
    opens_of_closes h, if_neg Bool.false_ne_true, if_pos h]

/-- Inside a container, what is no tag is passed over. -/
theorem described_inside (hh : block.isHeading = false) (ho : block.opens = false)
    (hc : block.closes = false) :
    described (depth + 1) (block :: more) = described (depth + 1) more := by
  rw [described_cons _ more hh, ho, hc]
  simp

end

/-- Outside containers, a paragraph is searched for a line that can serve. -/
theorem described_paragraph (x : Text) (more : List Block) :
    described 0 (Block.paragraph x :: more) =
      (descriptionLine? (Text.lines x)).or (described 0 more) :=
  described_cons 0 more rfl

/-! ### Fields without content -/

/-- The tags of an empty container do not matter. -/
theorem described_append_tags {opening closing : Block} (ho : opening.opens = true)
    (hc : closing.closes = true) (depth : Nat) (a b : List Block) :
    described depth (a ++ opening :: closing :: b) = described depth (a ++ b) := by
  induction a generalizing depth with
  | nil =>
      rw [List.nil_append, List.nil_append, described_opens depth _ ho, described_closes _ _ hc,
        Nat.add_sub_cancel]
  | cons block a ih =>
      rw [List.cons_append, List.cons_append]
      cases hh : block.isHeading with
      | true => rw [described_heading depth _ hh, described_heading depth _ hh]
      | false => rw [described_cons depth _ hh, described_cons depth _ hh, ih, ih, ih]

/-- Dropping fields without content does not change the description. -/
theorem described_foldl_addCleaned (depth : Nat) (cleaned blocks : List Block) :
    described depth (blocks.foldl addCleaned cleaned).reverse =
      described depth (cleaned.reverse ++ blocks) := by
  induction blocks generalizing cleaned with
  | nil => rw [List.foldl_nil, List.append_nil]
  | cons block blocks ih =>
      rw [List.foldl_cons, ih]
      cases cleaned with
      | nil => rfl
      | cons before cleaned =>
          rw [addCleaned]
          split
          · next hempty =>
            obtain ⟨ho, hc, -, -⟩ := wouldEmpty_iff.1 hempty
            rw [List.reverse_cons, List.append_assoc, List.singleton_append,
              described_append_tags ho hc]
          · rw [List.reverse_cons, List.append_assoc, List.singleton_append]

/-! ### Blocks inside containers -/

/-- A closing tag in place that is not stray closes the innermost container. -/
theorem eq_cons_of_not_stray {block : Block} {opened next : List Text}
    (h : nextOpened? opened block = some next) (hc : block.closes = true)
    (hstray : isStray opened block = false) : opened = block.name :: next := by
  rw [nextOpened?, opens_of_closes hc, if_neg Bool.false_ne_true, if_pos hc] at h
  split at h
  · next hhead =>
    obtain ⟨rest, rfl⟩ := List.head?_eq_some_iff.1 hhead
    exact congrArg _ (Option.some.inj h)
  · rw [isStray, hc, Bool.true_and] at hstray
    rw [hstray, Bool.and_false, if_neg Bool.false_ne_true] at h
    cases h

/-- Inside a container, nested blocks without stray closing tags are passed over, unless a heading
among them ends the search.  The induction carries the containers that are open. -/
theorem described_append_of_read {blocks : List Block} {opened final : List Text}
    (hread : openedAfter? opened blocks = some final) (hstray : strayNames opened blocks = [])
    (more : List Block) : described (opened.length + 1) (blocks ++ more) =
      if blocks.any Block.isHeading then none else described (final.length + 1) more := by
  induction blocks generalizing opened with
  | nil =>
      cases hread
      rfl
  | cons block blocks ih =>
      rw [openedAfter?, Option.bind_eq_some_iff] at hread
      obtain ⟨next, hnext, hread⟩ := hread
      rw [strayNames, openedBy_of_nextOpened? hnext, List.append_eq_nil_iff] at hstray
      have hmore := ih hread hstray.2
      rw [List.cons_append, List.any_cons]
      cases hh : block.isHeading with
      | true => rw [described_heading _ _ hh, Bool.true_or, if_pos rfl]
      | false =>
          rw [Bool.false_or, ← hmore]
          cases ho : block.opens with
          | true =>
              rw [nextOpened?_opens opened ho] at hnext
              obtain rfl := Option.some.inj hnext
              exact described_opens _ _ ho
          | false =>
              cases hc : block.closes with
              | true =>
                  obtain rfl := eq_cons_of_not_stray hnext hc (by simpa using hstray.1)
                  exact described_closes _ _ hc
              | false =>
                  rw [nextOpened?_content opened ho hc] at hnext
                  obtain rfl := Option.some.inj hnext
                  exact described_inside _ _ hh ho hc

/-- Blocks in which a description is not found: none of them is outside a container, and only a
heading ends the search. -/
def Hides (blocks : List Block) : Prop :=
  ∀ more, described 0 (blocks ++ more) =
    if blocks.any Block.isHeading then none else described 0 more

theorem hides_nil : Hides [] := fun _ => rfl

theorem Hides.append {a b : List Block} (ha : Hides a) (hb : Hides b) : Hides (a ++ b) := by
  intro more
  rw [List.append_assoc, ha, hb, List.any_append]
  cases a.any Block.isHeading <;> rfl

/-- A container hides nested blocks. -/
theorem hides_wrap {content : List Block} (hnested : Nested content)
    (hstray : strayNames [] content = []) (name attributes : Text) :
    Hides (Fragment.wrap name content attributes) := by
  intro more
  have hinside : described 1 (content ++ Block.closeTag name :: more) =
      if content.any Block.isHeading then none else described 1 (Block.closeTag name :: more) :=
    described_append_of_read hnested hstray _
  rw [Fragment.wrap, List.cons_append, List.cons_append, List.append_assoc, List.singleton_append,
    described_opens _ _ (by rfl), hinside, described_closes _ _ (by rfl), List.any_cons,
    List.any_append]
  simp [Block.isHeading, Block.openTag, Block.closeTag]

/-! ### Cutting at a heading -/

theorem cutAtLevel_append {before after : List Block} {heading : Block}
    (hbefore : ∀ block ∈ before, block.isHeading = false) (hh : heading.isHeading = true) :
    cutAtLevel heading.level (before ++ heading :: after) = some (heading, after) := by
  induction before with
  | nil =>
      have hfirst : (heading.kind == .heading && heading.level == heading.level) = true := by
        rw [beq_self_eq_true, Bool.and_true]
        exact hh
      rw [List.nil_append, cutAtLevel, if_pos hfirst]
  | cons block before ih =>
      rw [List.forall_mem_cons] at hbefore
      have hnot : (block.kind == .heading) = false := hbefore.1
      rw [List.cons_append, cutAtLevel, hnot, Bool.false_and, if_neg Bool.false_ne_true]
      exact ih hbefore.2

/-- Blocks are cut at a heading if none comes before it and none of those after it is above it. -/
theorem cutAtTop?_append {before after : List Block} {heading : Block}
    (hbefore : ∀ block ∈ before, block.isHeading = false) (hh : heading.isHeading = true)
    (hafter : ∀ block ∈ after, block.isHeading = true → heading.level ≤ block.level) :
    cutAtTop? (before ++ heading :: after) = some (heading, after) := by
  have htop : topLevel? (before ++ heading :: after) = some heading.level := by
    rw [topLevel?, List.min?_eq_some_iff]
    refine ⟨List.mem_map_of_mem (List.mem_filter.2 ⟨by simp, hh⟩), fun level hlevel => ?_⟩
    obtain ⟨block, hfiltered, rfl⟩ := List.mem_map.1 hlevel
    obtain ⟨hm, hblock⟩ := List.mem_filter.1 hfiltered
    rcases List.mem_append.1 hm with hm | hm
    · cases (hbefore block hm).symm.trans hblock
    · rcases List.mem_cons.1 hm with rfl | hm
      · exact Int.le_refl _
      · exact hafter block hm hblock
  rw [cutAtTop?, htop, Option.bind_some, cutAtLevel_append hbefore hh]

end Overview

end ApiReference
