import ApiReference.Proofs.PageText

/-! # Lines inside fences

What stands between two fences makes the text of one code block and nothing else
(`Document.blocks_parse_fenced`).

Lines make blocks and leave one unfinished, and neither depends on the lines after them
(`exists_blocksOfLines_append`).  A fence finishes a paragraph and the next fence the code, so the
lines after the code are read with nothing unfinished before them, whatever the code is
(`blocksOfLines_fenced`).  Frontmatter is looked for without regard to fences; the code has no part
in it if the frontmatter that the first line begins ends before the code (`MatterEnds`). -/

namespace ApiReference

/-- Lines from a fence to the next one as a code block. -/
def Block.fenced (lines : List Text) : Block :=
  { kind := .code, text := Text.unlines (lines.map Text.stripEnd) }

/-- If the first line is a rule, and so begins frontmatter, another line ends it. -/
def MatterEnds : List Text → Prop
  | [] => True
  | first :: more => isRule first = true → ∃ line ∈ more, isRule line = true

instance : (lines : List Text) → Decidable (MatterEnds lines)
  | [] => .isTrue trivial
  | first :: more =>
    inferInstanceAs (Decidable (isRule first = true → ∃ line ∈ more, isRule line = true))

/-! ### Lines before others -/

/-- One line makes blocks and leaves a block unfinished, whatever comes after it. -/
theorem exists_blocksOfLines_cons (held : Pending) (line : Text) :
    ∃ blocks left, left.isFence = xor held.isFence (isFence line) ∧
      ∀ more, blocksOfLines held (line :: more) = blocks ++ blocksOfLines left more := by
  cases held with
  | fence held =>
      by_cases hf : isFence line = true
      · refine ⟨[fenceOf (line.stripEnd :: held)], .paragraph [], by rw [hf]; rfl, fun more => ?_⟩
        exact blocksOfLines_closeFence hf held more
      · have hf : isFence line = false := by simpa using hf
        refine ⟨[], .fence (line.stripEnd :: held), by rw [hf]; rfl, fun more => ?_⟩
        exact blocksOfLines_code hf held more
  | paragraph held =>
      by_cases hf : isFence line = true
      · exact ⟨paragraphOf held, .fence [line.stripEnd], by rw [hf]; rfl,
          blocksOfLines_openFence hf held⟩
      have hf : isFence line = false := by simpa using hf
      by_cases hb : line.isAllBlank = true
      · exact ⟨paragraphOf held, .paragraph [], by rw [hf]; rfl, blocksOfLines_blank hb held⟩
      have hb : line.isAllBlank = false := by simpa using hb
      cases hp : lineBlock? line with
      | some block =>
          refine ⟨paragraphOf held ++ [block], .paragraph [], by rw [hf]; rfl, fun more => ?_⟩
          rw [blocksOfLines_mark hp, List.append_assoc, List.singleton_append]
      | none =>
          refine ⟨[], .paragraph (line.stripEnd :: held), by rw [hf]; rfl, fun more => ?_⟩
          exact blocksOfLines_prose hf hb hp held more

/-- Lines make blocks and leave a block unfinished, whatever comes after them. -/
theorem exists_blocksOfLines_append (held : Pending) (lines : List Text) :
    ∃ blocks left, left.isFence = inFenceAfter held.isFence lines ∧
      ∀ more, blocksOfLines held (lines ++ more) = blocks ++ blocksOfLines left more := by
  induction lines generalizing held with
  | nil => exact ⟨[], held, rfl, fun more => rfl⟩
  | cons line lines ih =>
      obtain ⟨made, next, hnext, hmade⟩ := exists_blocksOfLines_cons held line
      obtain ⟨blocks, left, hleft, hblocks⟩ := ih next
      refine ⟨made ++ blocks, left, ?_, fun more => ?_⟩
      · rw [hleft, hnext, inFenceAfter]
      · rw [List.cons_append, hmade, hblocks, List.append_assoc]

/-! ### From a fence to the next -/

/-- Code is taken in line by line up to the next fence. -/
theorem blocksOfLines_append_fence {code : List Text} (hcode : ∀ line ∈ code, isFence line = false)
    {last : Text} (hlast : isFence last = true) (held more : List Text) :
    blocksOfLines (.fence held) (code ++ last :: more) =
      fenceOf (((code ++ [last]).map Text.stripEnd).reverse ++ held) ::
        blocksOfLines (.paragraph []) more := by
  induction code generalizing held with
  | nil => exact blocksOfLines_closeFence hlast held more
  | cons line code ih =>
      rw [List.forall_mem_cons] at hcode
      rw [List.cons_append, blocksOfLines_code hcode.1, ih hcode.2]
      simp

/-- The lines from a fence to the next make one code block, and what comes after them is read
without them. -/
theorem blocksOfLines_fenced {first last : Text} {code : List Text} (hfirst : isFence first = true)
    (hlast : isFence last = true) (hcode : ∀ line ∈ code, isFence line = false)
    (held more : List Text) :
    blocksOfLines (.paragraph held) (first :: code ++ last :: more) =
      paragraphOf held ++ Block.fenced (first :: code ++ [last]) ::
        blocksOfLines (.paragraph []) more := by
  rw [List.cons_append, blocksOfLines_openFence hfirst, blocksOfLines_append_fence hcode hlast]
  simp [Block.fenced, fenceOf]

/-! ### Frontmatter -/

theorem isRule_of_isFence {line : Text} (h : isFence line = true) : isRule line = false := by
  by_contra hr
  have hs : line.strip = ['-', '-', '-'] := by simpa [isRule] using hr
  rw [isFence, hs] at h
  cases h

/-- Frontmatter that ends is found whatever comes after it. -/
theorem cutAfterRule?_append {lines matter rest : List Text}
    (h : cutAfterRule? lines = some (matter, rest)) (more : List Text) :
    cutAfterRule? (lines ++ more) = some (matter, rest ++ more) := by
  obtain ⟨rfl, hfound⟩ := cutAfterRule?_eq_some h
  rw [List.append_assoc, hfound]

/-- Where no frontmatter is left open before a fence, the blocks of all lines are the frontmatter, if
there is any, and the blocks of the lines after it. -/
theorem exists_blocksOfAll_append {lines : List Text} (hmatter : MatterEnds lines) :
    ∃ matter, ∀ fence more, isFence fence = true → blocksOfAll (lines ++ fence :: more) =
      matter ++ blocksOfLines (.paragraph []) (linesAfterMatter lines ++ fence :: more) := by
  cases lines with
  | nil =>
      refine ⟨[], fun fence more hfence => ?_⟩
      rw [List.nil_append, blocksOfAll, isRule_of_isFence hfence]
      rfl
  | cons first lines =>
      by_cases hr : isRule first = true
      · cases hcut : cutAfterRule? lines with
        | none =>
            exact absurd (true_mem_ruleMarks.2 (hmatter hr)) (cutAfterRule?_eq_none_iff.1 hcut)
        | some cut =>
            obtain ⟨matter, rest⟩ := cut
            refine ⟨[matterOf (first :: matter)], fun fence more _ => ?_⟩
            rw [List.cons_append, blocksOfAll, if_pos hr, cutAfterRule?_append hcut,
              linesAfterMatter, if_pos hr, hcut]
            rfl
      · refine ⟨[], fun fence more _ => ?_⟩
        rw [List.cons_append, blocksOfAll, if_neg hr, linesAfterMatter, if_neg hr]
        rfl

/-! ### Texts -/

/-- The lines between two fences make the text of one code block; all other blocks are the same
whatever these lines are, if no code and no frontmatter is left open before them. -/
theorem Document.blocks_parse_fenced {before after : List Text} {first last : Text}
    (hmatter : MatterEnds before) (hclosed : inFenceAfter false (linesAfterMatter before) = false)
    (hfirst : isFence first = true) (hlast : isFence last = true) (location title : Text) :
    ∃ a b, ∀ code x, (∀ line ∈ code, isFence line = false) →
      Text.lines x.unifyLineEnds = before ++ (first :: code ++ last :: after) →
        (parse x location title).blocks = a ++ Block.fenced (first :: code ++ [last]) :: b := by
  obtain ⟨matter, hall⟩ := exists_blocksOfAll_append hmatter
  obtain ⟨made, left, hleft, hmade⟩ :=
    exists_blocksOfLines_append (.paragraph []) (linesAfterMatter before)
  obtain ⟨held, rfl⟩ : ∃ held, left = .paragraph held := by
    cases left with
    | paragraph held => exact ⟨held, rfl⟩
    | fence held => cases hleft.trans hclosed
  refine ⟨matter ++ (made ++ paragraphOf held), blocksOfLines (.paragraph []) after,
    fun code x hcode hx => ?_⟩
  show blocksOf x = _
  rw [blocksOf, hx, List.cons_append, hall _ _ hfirst, hmade, ← List.cons_append,
    blocksOfLines_fenced hfirst hlast hcode]
  simp

/-- After frontmatter and a paragraph, lines that look like a tag and a heading are code like any
other line. -/
theorem Document.blocks_parse_fenced_tagLines :
    ∃ a b : List Block,
      (parse ("---\n---\nSuch as:\n\x60\x60\x60mdx\n<Note>\n\n# Title\n\x60\x60\x60\n</Tip>" : Text)
          [] []).blocks =
        a ++ Block.fenced ["\x60\x60\x60mdx", "<Note>", "", "# Title", "\x60\x60\x60"] :: b ∧
      (parse ("---\n---\nSuch as:\n\x60\x60\x60mdx\n\x60\x60\x60\n</Tip>" : Text) [] []).blocks =
        a ++ Block.fenced ["\x60\x60\x60mdx", "\x60\x60\x60"] :: b := by
  have hmatter : MatterEnds ["---", "---", "Such as:"] := by decide
  have hclosed : inFenceAfter false (linesAfterMatter ["---", "---", "Such as:"]) = false := by
    decide
  have hfirst : isFence ("\x60\x60\x60mdx" : Text) = true := by decide
  have hlast : isFence ("\x60\x60\x60" : Text) = true := by decide
  obtain ⟨a, b, h⟩ := @blocks_parse_fenced _ ["</Tip>"] _ _ hmatter hclosed hfirst hlast [] []
  exact ⟨a, b, h ["<Note>", "", "# Title"] _ (by decide) (by decide),
    h [] _ (by decide) (by decide)⟩

end ApiReference
