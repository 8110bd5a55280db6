import ApiReference.Proofs.LineBlock

/-! # Reading line by line

Blocks are read from their own lines (`WrittenAll.read`), and whatever lines are read, the blocks
have lines of their own (`keepsRules_of_lines`).

`WrittenAll blocks lines` says that the lines are those of the blocks, each block by itself, and that
every line is of the sort its block asks for.  Frontmatter is looked for on the first line only, so
it has to be known as well which lines are rules: reading keeps the row of these marks
(`ruleMarks`), blank lines left out. -/

namespace ApiReference

/-! ### Reading line by line -/

/-- The line ends a paragraph before it. -/
def EndsProse (line : Text) : Prop :=
  isFence line = true ∨ line.isAllBlank = true ∨ (lineBlock? line).isSome = true

/-- A line of running text as reading keeps it. -/
structure IsProse (line : Text) : Prop where
  oneLine : line.IsOneLine
  fence : isFence line = false
  visible : line.isAllBlank = false
  plain : lineBlock? line = none
  trimmed : line.stripEnd = line

/-- The lines of fenced code that is not ended yet, as reading keeps them. -/
structure IsOpenFence (lines : List Text) : Prop where
  oneLine : ∀ line ∈ lines, line.IsOneLine
  trimmed : ∀ line ∈ lines, line.stripEnd = line
  fence : ∃ first inner, lines = first :: inner ∧ isFence first = true ∧
    ∀ line ∈ inner, isFence line = false

theorem blocksOfLines_blank {line : Text} (h : line.isAllBlank = true) (held more : List Text) :
    blocksOfLines (.paragraph held) (line :: more) =
      paragraphOf held ++ blocksOfLines (.paragraph []) more := by
  simp [blocksOfLines, h, isFence_of_isAllBlank h]

theorem blocksOfLines_mark {line : Text} {block : Block} (h : lineBlock? line = some block)
    (held more : List Text) :
    blocksOfLines (.paragraph held) (line :: more) =
      paragraphOf held ++ block :: blocksOfLines (.paragraph []) more := by
  simp [blocksOfLines, h, isFence_of_lineBlock? h, isAllBlank_of_lineBlock? h]

theorem blocksOfLines_openFence {line : Text} (h : isFence line = true) (held more : List Text) :
    blocksOfLines (.paragraph held) (line :: more) =
      paragraphOf held ++ blocksOfLines (.fence [line.stripEnd]) more := by
  simp [blocksOfLines, h]

theorem blocksOfLines_prose {line : Text} (hf : isFence line = false)
    (hb : line.isAllBlank = false) (hp : lineBlock? line = none) (held more : List Text) :
    blocksOfLines (.paragraph held) (line :: more) =
      blocksOfLines (.paragraph (line.stripEnd :: held)) more := by
  simp [blocksOfLines, hf, hb, hp]

theorem blocksOfLines_closeFence {line : Text} (h : isFence line = true) (held more : List Text) :
    blocksOfLines (.fence held) (line :: more) =
      fenceOf (line.stripEnd :: held) :: blocksOfLines (.paragraph []) more := by
  simp [blocksOfLines, h]

theorem blocksOfLines_code {line : Text} (h : isFence line = false) (held more : List Text) :
    blocksOfLines (.fence held) (line :: more) =
      blocksOfLines (.fence (line.stripEnd :: held)) more := by
  simp [blocksOfLines, h]

/-- A paragraph is made as soon as a line ends it. -/
theorem blocksOfLines_flush {held lines : List Text} (h : ∀ line ∈ lines.head?, EndsProse line) :
    blocksOfLines (.paragraph held) lines =
      paragraphOf held ++ blocksOfLines (.paragraph []) lines := by
  cases lines with
  | nil => simp [blocksOfLines, paragraphOf]
  | cons line more =>
      obtain hf | hb | hm := h line rfl
      · simp only [blocksOfLines_openFence hf, paragraphOf, List.isEmpty_nil, if_true,
          List.nil_append]
      · simp only [blocksOfLines_blank hb, paragraphOf, List.isEmpty_nil, if_true, List.nil_append]
      · obtain ⟨block, hblock⟩ := Option.isSome_iff_exists.1 hm
        simp only [blocksOfLines_mark hblock, paragraphOf, List.isEmpty_nil, if_true,
          List.nil_append]

theorem blocksOfLines_append_prose {lines : List Text} (h : ∀ line ∈ lines, IsProse line)
    (held more : List Text) :
    blocksOfLines (.paragraph held) (lines ++ more) =
      blocksOfLines (.paragraph (lines.reverse ++ held)) more := by
  induction lines generalizing held with
  | nil => rfl
  | cons line lines ih =>
      have hl := h line List.mem_cons_self
      rw [List.cons_append, blocksOfLines_prose hl.fence hl.visible hl.plain, hl.trimmed,
        ih fun l hm => h l (List.mem_cons_of_mem _ hm), List.reverse_cons, List.append_assoc,
        List.singleton_append]

theorem blocksOfLines_append_code {lines : List Text} (hf : ∀ line ∈ lines, isFence line = false)
    (ht : ∀ line ∈ lines, line.stripEnd = line) (held more : List Text) :
    blocksOfLines (.fence held) (lines ++ more) =
      blocksOfLines (.fence (lines.reverse ++ held)) more := by
  induction lines generalizing held with
  | nil => rfl
  | cons line lines ih =>
      rw [List.cons_append, blocksOfLines_code (hf line List.mem_cons_self),
        ht line List.mem_cons_self, ih (fun l hm => hf l (List.mem_cons_of_mem _ hm))
          (fun l hm => ht l (List.mem_cons_of_mem _ hm)), List.reverse_cons, List.append_assoc,
        List.singleton_append]

/-! ### Blocks and their lines -/

/-- The lines are those of the block, and each is of the sort that the block asks for. -/
inductive Written : Block → List Text → Prop
  | mark {block : Block} : lineBlock? block.render = some block →
      block.render.stripEnd = block.render → block.render.IsOneLine → Written block [block.render]
  | prose {lines : List Text} : lines ≠ [] → (∀ line ∈ lines, IsProse line) →
      Written (.paragraph (Text.unlines lines)) lines
  | fenced {lines : List Text} {last : Text} : IsOpenFence lines → isFence last = true →
      last.stripEnd = last → last.IsOneLine →
      Written (fenceOf (lines ++ [last]).reverse) (lines ++ [last])

/-- The lines are those of the blocks.  The last block can be code that no fence ends, provided that
it does not end in a blank line. -/
inductive WrittenAll : List Block → List Text → Prop
  | nil : WrittenAll [] []
  | cons {block : Block} {blocks : List Block} {lines more : List Text} :
      Written block lines → WrittenAll blocks more → WrittenAll (block :: blocks) (lines ++ more)
  | unclosed {lines : List Text} : IsOpenFence lines →
      (∀ line ∈ lines.getLast?, line.isAllBlank = false) →
      WrittenAll [fenceOf lines.reverse] lines

namespace IsOpenFence

variable {lines : List Text}

theorem ne_nil (h : IsOpenFence lines) : lines ≠ [] := by
  obtain ⟨first, inner, rfl, _⟩ := h.fence
  exact List.cons_ne_nil _ _

theorem single {line : Text} (h : isFence line = true) (hn : line.IsOneLine) :
    IsOpenFence [line.stripEnd] where
  oneLine := by
    intro l hl
    rw [List.mem_singleton.1 hl]
    exact hn.stripEnd
  trimmed := by
    intro l hl
    rw [List.mem_singleton.1 hl, Text.stripEnd_stripEnd]
  fence := ⟨_, [], rfl, (isFence_stripEnd line).trans h, by simp⟩

theorem concat (h : IsOpenFence lines) {line : Text} (hf : isFence line = false)
    (hn : line.IsOneLine) : IsOpenFence (lines ++ [line.stripEnd]) where
  oneLine := by
    intro l hl
    rcases List.mem_append.1 hl with hl | hl
    · exact h.oneLine l hl
    · rw [List.mem_singleton.1 hl]
      exact hn.stripEnd
  trimmed := by
    intro l hl
    rcases List.mem_append.1 hl with hl | hl
    · exact h.trimmed l hl
    · rw [List.mem_singleton.1 hl, Text.stripEnd_stripEnd]
  fence := by
    obtain ⟨first, inner, rfl, hfirst, hinner⟩ := h.fence
    refine ⟨first, inner ++ [line.stripEnd], rfl, hfirst, ?_⟩
    intro l hl
    rcases List.mem_append.1 hl with hl | hl
    · exact hinner l hl
    · rw [List.mem_singleton.1 hl, isFence_stripEnd, hf]

/-- The lines of fenced code that is not ended are read up to the last one. -/
theorem read (h : IsOpenFence lines) (more : List Text) :
    blocksOfLines (.paragraph []) (lines ++ more) = blocksOfLines (.fence lines.reverse) more := by
  obtain ⟨first, inner, rfl, hfirst, hinner⟩ := h.fence
  have ht : first.stripEnd = first := h.trimmed first List.mem_cons_self
  rw [List.cons_append, blocksOfLines_openFence hfirst, ht, paragraphOf, List.isEmpty_nil,
    if_pos rfl, List.nil_append, blocksOfLines_append_code hinner
      (fun l hl => h.trimmed l (List.mem_cons_of_mem _ hl)), List.reverse_cons]

end IsOpenFence

namespace Written

variable {block : Block} {lines : List Text}

theorem ne_nil (h : Written block lines) : lines ≠ [] := by
  cases h with
  | mark => exact List.cons_ne_nil _ _
  | prose hne => exact hne
  | fenced => simp

/-- No line holds a line end, and no line has blanks at its end. -/
theorem tidy (h : Written block lines) : ∀ line ∈ lines, line.IsOneLine ∧ line.stripEnd = line := by
  intro line hl
  cases h with
  | mark _ ht hn => rw [List.mem_singleton.1 hl]; exact ⟨hn, ht⟩
  | prose _ hp => exact ⟨(hp line hl).oneLine, (hp line hl).trimmed⟩
  | fenced ho _ ht hn =>
      rcases List.mem_append.1 hl with hl | hl
      · exact ⟨ho.oneLine line hl, ho.trimmed line hl⟩
      · rw [List.mem_singleton.1 hl]; exact ⟨hn, ht⟩

theorem lines_render (h : Written block lines) : Text.lines block.render = lines := by
  cases h with
  | mark _ _ hn => exact Text.lines_of_not_mem hn.1
  | prose hne hp => exact Text.lines_unlines hne fun line hl => (hp line hl).oneLine.1
  | @fenced lines last ho hf ht hn =>
      have htidy := (Written.fenced ho hf ht hn).tidy
      show Text.lines (Text.unlines (lines ++ [last]).reverse.reverse) = lines ++ [last]
      rw [List.reverse_reverse]
      exact Text.lines_unlines (by simp) fun line hl => (htidy line hl).1.1

/-- The first line of a block shows. -/
theorem visible_head (h : Written block lines) :
    ∀ line ∈ lines.head?, line.isAllBlank = false := by
  intro line hl
  cases h with
  | mark hm => rw [← Option.some.inj hl]; exact isAllBlank_of_lineBlock? hm
  | prose _ hp => exact (hp line (List.mem_of_mem_head? hl)).visible
  | fenced ho =>
      obtain ⟨first, inner, rfl, hfirst, _⟩ := ho.fence
      rw [← Option.some.inj hl]
      exact isAllBlank_of_isFence hfirst

/-- The last line of a block shows. -/
theorem visible_getLast (h : Written block lines) :
    ∀ line ∈ lines.getLast?, line.isAllBlank = false := by
  intro line hl
  cases h with
  | mark hm => rw [← Option.some.inj hl]; exact isAllBlank_of_lineBlock? hm
  | prose _ hp => exact (hp line (List.mem_of_mem_getLast? hl)).visible
  | fenced _ hf =>
      rw [List.getLast?_concat, Option.mem_some_iff] at hl
      rw [← hl]
      exact isAllBlank_of_isFence hf

/-- A block is read from its own lines, whatever comes after; after a paragraph there has to be a
line that ends it. -/
theorem read (h : Written block lines) {more : List Text}
    (hmore : block.kind = .text → ∀ line ∈ more.head?, EndsProse line) :
    blocksOfLines (.paragraph []) (lines ++ more) =
      block :: blocksOfLines (.paragraph []) more := by
  cases h with
  | mark hm => exact blocksOfLines_mark hm [] more
  | prose hne hp =>
      rw [blocksOfLines_append_prose hp, List.append_nil, blocksOfLines_flush (hmore rfl),
        paragraphOf, List.reverse_reverse]
      simp [hne]
  | fenced ho hf ht =>
      rw [List.append_assoc, ho.read, List.singleton_append, blocksOfLines_closeFence hf, ht,
        List.reverse_append]
      rfl

end Written

/-! ### The lines of written blocks -/

/-- The blank line between two blocks, unless they stand tight. -/
def gapBetween (before after : Block) : List Text :=
  if before.opens && Block.isFieldName before.name then []
  else if after.closes && Block.isFieldName after.name then []
  else [[]]

/-- The lines of the blocks after a first one. -/
def linesAfter (before : Block) : List Block → List Text
  | [] => []
  | block :: more => gapBetween before block ++ (Text.lines block.render ++ linesAfter block more)

theorem lines_append_separator (before after : Block) (x y : Text) :
    Text.lines (x ++ Block.separator before after ++ y) =
      Text.lines x ++ (gapBetween before after ++ Text.lines y) := by
  unfold Block.separator gapBetween
  rw [List.append_assoc]
  split
  · exact Text.lines_append_newline x y
  · split
    · exact Text.lines_append_newline x y
    · exact (Text.lines_append_newline x ('\n' :: y)).trans
        (congrArg _ (Text.lines_append_newline [] y))

theorem lines_renderAfter (x : Text) (before : Block) (blocks : List Block) :
    Text.lines (x ++ Block.renderAfter before blocks) = Text.lines x ++ linesAfter before blocks := by
  induction blocks generalizing x before with
  | nil => simp [Block.renderAfter, linesAfter]
  | cons block blocks ih =>
      rw [Block.renderAfter, linesAfter, ← List.append_assoc, ← List.append_assoc, ih,
        lines_append_separator, List.append_assoc, List.append_assoc]

/-- Between blocks there are blank lines at most, and a tag on the next line ends a paragraph too. -/
theorem endsProse_linesAfter {before block : Block} {blocks : List Block} {lines : List Text}
    (hk : before.kind = .text) (h : Written block lines) :
    ∀ line ∈ (linesAfter before (block :: blocks)).head?, EndsProse line := by
  intro line hl
  have ho : before.opens = false := by simp [Block.opens, hk]
  rw [linesAfter, h.lines_render, gapBetween, ho, Bool.false_and, if_neg Bool.false_ne_true] at hl
  split at hl
  · next hc =>
    simp only [Bool.and_eq_true] at hc
    cases h with
    | mark hm =>
        rw [← Option.some.inj hl]
        exact .inr (.inr (by rw [hm]; rfl))
    | prose => exact absurd hc.1 (by simp [Block.closes, Block.paragraph])
    | fenced => exact absurd hc.1 (by simp [Block.closes, fenceOf])
  · rw [← Option.some.inj hl]
    exact .inr (.inl rfl)

theorem blocksOfLines_gap (before after : Block) (lines : List Text) :
    blocksOfLines (.paragraph []) (gapBetween before after ++ lines) =
      blocksOfLines (.paragraph []) lines := by
  unfold gapBetween
  split
  · rfl
  · split
    · rfl
    · exact blocksOfLines_blank (by rfl) [] lines

theorem blocksOfLines_unclosed {lines : List Text} (h : IsOpenFence lines) :
    blocksOfLines (.paragraph []) lines = [fenceOf lines.reverse] := by
  have hread := h.read []
  rw [List.append_nil] at hread
  rw [hread, blocksOfLines]

theorem lines_render_fenceOf {lines : List Text} (h : IsOpenFence lines) :
    Text.lines (fenceOf lines.reverse).render = lines := by
  show Text.lines (Text.unlines lines.reverse.reverse) = lines
  rw [List.reverse_reverse]
  exact Text.lines_unlines h.ne_nil fun line hl => (h.oneLine line hl).1

/-- After a paragraph comes a line that ends it. -/
theorem WrittenAll.endsProse {blocks : List Block} {lines : List Text} (h : WrittenAll blocks lines)
    {before : Block} (hk : before.kind = .text) :
    ∀ line ∈ (linesAfter before blocks).head?, EndsProse line := by
  cases h with
  | nil => exact fun line hl => by cases hl
  | cons hb _ => exact endsProse_linesAfter hk hb
  | unclosed =>
      intro line hl
      have ho : before.opens = false := by simp [Block.opens, hk]
      simp only [linesAfter, gapBetween, ho, Block.closes, fenceOf] at hl
      rw [← Option.some.inj hl]
      exact .inr (.inl rfl)

/-- Blocks are read from their own lines. -/
theorem WrittenAll.read {blocks : List Block} {lines : List Text} (h : WrittenAll blocks lines)
    (before : Block) : blocksOfLines (.paragraph []) (linesAfter before blocks) = blocks := by
  induction h generalizing before with
  | nil => rfl
  | @cons block blocks lines more hb hmore ih =>
      rw [linesAfter, blocksOfLines_gap, hb.lines_render, hb.read fun hk => hmore.endsProse hk, ih]
  | unclosed ho _ =>
      rw [linesAfter, blocksOfLines_gap, lines_render_fenceOf ho, linesAfter, List.append_nil,
        blocksOfLines_unclosed ho]

/-! ### Rules among the lines -/

/-- For every line that shows, whether it is a rule. -/
def ruleMarks (lines : List Text) : List Bool :=
  (lines.filter fun line => !line.isAllBlank).map isRule

theorem ruleMarks_append (a b : List Text) : ruleMarks (a ++ b) = ruleMarks a ++ ruleMarks b := by
  simp [ruleMarks]

theorem ruleMarks_cons_blank {line : Text} (h : line.isAllBlank = true) (more : List Text) :
    ruleMarks (line :: more) = ruleMarks more := by
  simp [ruleMarks, h]

theorem ruleMarks_cons {line : Text} (h : line.isAllBlank = false) (more : List Text) :
    ruleMarks (line :: more) = isRule line :: ruleMarks more := by
  simp [ruleMarks, h]

theorem ruleMarks_cons_stripEnd (line : Text) (more : List Text) :
    ruleMarks (line.stripEnd :: more) = ruleMarks (line :: more) := by
  simp [ruleMarks, List.filter_cons, Text.isAllBlank_stripEnd]
  split <;> simp [isRule_stripEnd]

theorem true_mem_ruleMarks {lines : List Text} :
    true ∈ ruleMarks lines ↔ ∃ line ∈ lines, isRule line = true := by
  simp only [ruleMarks, List.mem_map, List.mem_filter, Bool.not_eq_true']
  constructor
  · rintro ⟨line, ⟨hl, _⟩, hr⟩
    exact ⟨line, hl, hr⟩
  · rintro ⟨line, hl, hr⟩
    exact ⟨line, ⟨hl, isAllBlank_of_isRule hr⟩, hr⟩

theorem ruleMarks_gap (before after : Block) (lines : List Text) :
    ruleMarks (gapBetween before after ++ lines) = ruleMarks lines := by
  unfold gapBetween
  split
  · rfl
  · split
    · rfl
    · exact ruleMarks_cons_blank (by rfl) lines

theorem WrittenAll.ruleMarks_linesAfter {blocks : List Block} {lines : List Text}
    (h : WrittenAll blocks lines) (before : Block) :
    ruleMarks (linesAfter before blocks) = ruleMarks lines := by
  induction h generalizing before with
  | nil => rfl
  | cons hb _ ih => rw [linesAfter, ruleMarks_gap, hb.lines_render, ruleMarks_append, ih,
      ← ruleMarks_append]
  | unclosed ho _ =>
      rw [linesAfter, ruleMarks_gap, lines_render_fenceOf ho, linesAfter, List.append_nil]

/-! ### Blocks of the lines that are taken in -/

/-- The last line, if there is one, is not blank. -/
def ShowsLast (lines : List Text) : Prop := ∀ line ∈ lines.getLast?, line.isAllBlank = false

theorem ShowsLast.of_append {a b : List Text} (h : ShowsLast (a ++ b)) : ShowsLast b := by
  cases b with
  | nil => exact fun l hl => by cases hl
  | cons line b =>
      intro l hl
      refine h l ?_
      rw [List.getLast?_append, Option.mem_def.1 hl]
      rfl

theorem showsLast_stripEnd {a b : List Text} {line : Text} (h : ShowsLast (a ++ line :: b)) :
    ShowsLast (a ++ line.stripEnd :: b) := by
  intro l hl
  cases b with
  | nil =>
      rw [List.getLast?_concat, Option.mem_some_iff] at hl
      rw [← hl, Text.isAllBlank_stripEnd]
      exact h line (by rw [List.getLast?_concat]; rfl)
  | cons next b =>
      refine h l ?_
      rw [List.getLast?_append, List.getLast?_cons_cons] at hl ⊢
      exact hl

namespace Pending

/-- The lines of an unfinished block. -/
def lines : Pending → List Text
  | .paragraph held | .fence held => held.reverse

/-- The lines of an unfinished block are of the sort that it asks for. -/
def Kept : Pending → Prop
  | .paragraph held => ∀ line ∈ held, IsProse line
  | .fence held => IsOpenFence held.reverse

end Pending

theorem IsProse.of_line {line : Text} (hn : line.IsOneLine) (hf : isFence line = false)
    (hb : line.isAllBlank = false) (hp : lineBlock? line = none) : IsProse line.stripEnd where
  oneLine := hn.stripEnd
  fence := (isFence_stripEnd line).trans hf
  visible := (Text.isAllBlank_stripEnd line).trans hb
  plain := (lineBlock?_stripEnd line).trans hp
  trimmed := Text.stripEnd_stripEnd line

/-- The block of a line has that line as it is written. -/
theorem Written.of_line {line : Text} {block : Block} (hm : lineBlock? line = some block)
    (hn : line.IsOneLine) : Written block [block.render] :=
  .mark (lineBlock?_render hm) (stripEnd_render hm) (isOneLine_render hm hn)

/-- Code that a fence ends has the lines that were read. -/
theorem Pending.Kept.closed {held : List Text} {line : Text} (hk : (Pending.fence held).Kept)
    (hf : isFence line = true) (hn : line.IsOneLine) :
    Written (fenceOf (line.stripEnd :: held)) (held.reverse ++ [line.stripEnd]) := by
  have hfenced := Written.fenced hk ((isFence_stripEnd line).trans hf)
    (Text.stripEnd_stripEnd line) hn.stripEnd
  rwa [List.reverse_append, List.reverse_reverse] at hfenced

/-- The induction on the lines that are read, for every unfinished block before them.  There is one
case for each thing that a line can do to the unfinished block. -/
theorem reading_induction {motive : Pending → List Text → Prop}
    (nil : ∀ held, held.Kept → motive held [])
    (code : ∀ held line more, (Pending.fence held).Kept → line.IsOneLine → isFence line = false →
      motive (.fence (line.stripEnd :: held)) more → motive (.fence held) (line :: more))
    (closeFence : ∀ held line more, (Pending.fence held).Kept → line.IsOneLine →
      isFence line = true → motive (.paragraph []) more → motive (.fence held) (line :: more))
    (openFence : ∀ held line more, (Pending.paragraph held).Kept → line.IsOneLine →
      isFence line = true → motive (.fence [line.stripEnd]) more →
      motive (.paragraph held) (line :: more))
    (blank : ∀ held line more, (Pending.paragraph held).Kept → line.isAllBlank = true →
      motive (.paragraph []) more → motive (.paragraph held) (line :: more))
    (mark : ∀ held line more block, (Pending.paragraph held).Kept → line.IsOneLine →
      lineBlock? line = some block → motive (.paragraph []) more →
      motive (.paragraph held) (line :: more))
    (prose : ∀ held line more, (Pending.paragraph held).Kept → line.IsOneLine →
      isFence line = false → line.isAllBlank = false → lineBlock? line = none →
      motive (.paragraph (line.stripEnd :: held)) more → motive (.paragraph held) (line :: more)) :
    ∀ (lines : List Text) (held : Pending), held.Kept → (∀ line ∈ lines, line.IsOneLine) →
      motive held lines := by
  intro lines
  induction lines with
  | nil => exact fun held hk _ => nil held hk
  | cons line more ih =>
      intro held hk hl
      have hline : line.IsOneLine := hl line List.mem_cons_self
      have ih (held : Pending) (hk : held.Kept) : motive held more :=
        ih held hk fun l hm => hl l (List.mem_cons_of_mem _ hm)
      have hfresh : motive (.paragraph []) more := ih _ (by simp [Pending.Kept])
      cases held with
      | fence held =>
          by_cases hf : isFence line = true
          · exact closeFence held line more hk hline hf hfresh
          · have hf : isFence line = false := by simpa using hf
            refine code held line more hk hline hf (ih _ ?_)
            simpa [Pending.Kept] using IsOpenFence.concat hk hf hline
      | paragraph held =>
          by_cases hf : isFence line = true
          · exact openFence held line more hk hline hf (ih _ (IsOpenFence.single hf hline))
          have hf : isFence line = false := by simpa using hf
          by_cases hb : line.isAllBlank = true
          · exact blank held line more hk hb hfresh
          have hb : line.isAllBlank = false := by simpa using hb
          cases hp : lineBlock? line with
          | some block => exact mark held line more block hk hline hp hfresh
          | none =>
              refine prose held line more hk hline hf hb hp (ih _ ?_)
              intro l hm
              rcases List.mem_cons.1 hm with rfl | hm
              · exact IsProse.of_line hline hf hb hp
              · exact hk l hm

theorem WrittenAll.paragraphOf {blocks : List Block} {lines : List Text}
    (h : WrittenAll blocks lines) {held : List Text} (hheld : ∀ line ∈ held, IsProse line) :
    WrittenAll (paragraphOf held ++ blocks) (held.reverse ++ lines) := by
  cases held with
  | nil => exact h
  | cons line held =>
      exact .cons (.prose (by simp) fun l hl => hheld l (List.mem_reverse.1 hl)) h

/-- What reading makes of the lines after an unfinished block has lines of its own, and among these
are the same rules. -/
def KeepsRules (held : Pending) (lines : List Text) : Prop :=
  ∃ written, WrittenAll (blocksOfLines held lines) written ∧
    ruleMarks written = ruleMarks (held.lines ++ lines)

namespace KeepsRules

variable {held more : List Text} {line : Text}

theorem code (h : KeepsRules (.fence (line.stripEnd :: held)) more) (hf : isFence line = false) :
    KeepsRules (.fence held) (line :: more) := by
  obtain ⟨written, hw, hr⟩ := h
  refine ⟨written, blocksOfLines_code hf held more ▸ hw, hr.trans ?_⟩
  simp only [Pending.lines, List.reverse_cons, List.append_assoc, List.singleton_append]
  rw [ruleMarks_append, ruleMarks_cons_stripEnd, ← ruleMarks_append]

theorem closeFence (h : KeepsRules (.paragraph []) more) (hk : (Pending.fence held).Kept)
    (hf : isFence line = true) (hn : line.IsOneLine) : KeepsRules (.fence held) (line :: more) := by
  obtain ⟨written, hw, hr⟩ := h
  have hblock : Written (fenceOf (line.stripEnd :: held)) (held.reverse ++ [line.stripEnd]) := by
    have hfenced := Written.fenced hk ((isFence_stripEnd line).trans hf)
      (Text.stripEnd_stripEnd line) (hn.stripEnd)
    rwa [List.reverse_append, List.reverse_reverse] at hfenced
  refine ⟨_, blocksOfLines_closeFence hf held more ▸ WrittenAll.cons hblock hw, ?_⟩
  simp only [Pending.lines, List.reverse_nil, List.nil_append] at hr ⊢
  rw [ruleMarks_append, hr, ← ruleMarks_append, List.append_assoc, List.singleton_append,
    ruleMarks_append, ruleMarks_cons_stripEnd, ← ruleMarks_append]

theorem openFence (h : KeepsRules (.fence [line.stripEnd]) more)
    (hk : (Pending.paragraph held).Kept) (hf : isFence line = true) :
    KeepsRules (.paragraph held) (line :: more) := by
  obtain ⟨written, hw, hr⟩ := h
  refine ⟨_, blocksOfLines_openFence hf held more ▸ hw.paragraphOf hk, ?_⟩
  simp only [Pending.lines, List.reverse_singleton, List.singleton_append] at hr ⊢
  rw [ruleMarks_append, hr, ruleMarks_cons_stripEnd, ← ruleMarks_append]

theorem blank (h : KeepsRules (.paragraph []) more) (hk : (Pending.paragraph held).Kept)
    (hb : line.isAllBlank = true) : KeepsRules (.paragraph held) (line :: more) := by
  obtain ⟨written, hw, hr⟩ := h
  refine ⟨_, blocksOfLines_blank hb held more ▸ hw.paragraphOf hk, ?_⟩
  simp only [Pending.lines, List.reverse_nil, List.nil_append] at hr ⊢
  rw [ruleMarks_append, ruleMarks_append, ruleMarks_cons_blank hb, hr]

theorem mark (h : KeepsRules (.paragraph []) more) (hk : (Pending.paragraph held).Kept)
    {block : Block} (hm : lineBlock? line = some block) (hn : line.IsOneLine) :
    KeepsRules (.paragraph held) (line :: more) := by
  obtain ⟨written, hw, hr⟩ := h
  have hrender := lineBlock?_render hm
  have hall := WrittenAll.cons (Written.of_line hm hn) hw
  refine ⟨_, blocksOfLines_mark hm held more ▸ hall.paragraphOf hk, ?_⟩
  simp only [Pending.lines, List.reverse_nil, List.nil_append, List.singleton_append] at hr ⊢
  rw [ruleMarks_append, ruleMarks_append, ruleMarks_cons (isAllBlank_of_lineBlock? hm),
    ruleMarks_cons (isAllBlank_of_lineBlock? hrender), isRule_of_lineBlock? hm,
    isRule_of_lineBlock? hrender, hr]

theorem prose (h : KeepsRules (.paragraph (line.stripEnd :: held)) more)
    (hf : isFence line = false) (hb : line.isAllBlank = false) (hp : lineBlock? line = none) :
    KeepsRules (.paragraph held) (line :: more) := by
  obtain ⟨written, hw, hr⟩ := h
  refine ⟨written, blocksOfLines_prose hf hb hp held more ▸ hw, hr.trans ?_⟩
  simp only [Pending.lines, List.reverse_cons, List.append_assoc, List.singleton_append]
  rw [ruleMarks_append, ruleMarks_cons_stripEnd, ← ruleMarks_append]

end KeepsRules

/-- Whatever lines are read, the blocks have lines of their own with the same rules. -/
theorem keepsRules_of_lines (lines : List Text) (held : Pending) (hk : held.Kept)
    (hl : ∀ line ∈ lines, line.IsOneLine) :
    ShowsLast (held.lines ++ lines) → KeepsRules held lines := by
  have hafter {held more : List Text} {line : Text} (h : ShowsLast (held ++ line :: more)) :
      ShowsLast more := h.of_append.of_append (a := [line])
  refine reading_induction
    (motive := fun held lines => ShowsLast (held.lines ++ lines) → KeepsRules held lines)
    ?nil ?code ?closeFence ?openFence ?blank ?mark ?prose lines held hk hl
  case nil =>
    intro held hk hlast
    cases held with
    | paragraph held =>
        have h := WrittenAll.nil.paragraphOf hk
        rw [List.append_nil, List.append_nil] at h
        exact ⟨held.reverse, h, by rw [List.append_nil]; rfl⟩
    | fence held =>
        rw [List.append_nil] at hlast
        have h := WrittenAll.unclosed hk hlast
        rw [List.reverse_reverse] at h
        exact ⟨held.reverse, h, by rw [List.append_nil]; rfl⟩
  case code =>
    intro held line more hk hn hf ih hlast
    exact (ih (by simpa [Pending.lines] using showsLast_stripEnd hlast)).code hf
  case closeFence =>
    intro held line more hk hn hf ih hlast
    exact (ih (hafter hlast)).closeFence hk hf hn
  case openFence =>
    intro held line more hk hn hf ih hlast
    exact (ih (showsLast_stripEnd (a := []) hlast.of_append)).openFence hk hf
  case blank =>
    intro held line more hk hb ih hlast
    exact (ih (hafter hlast)).blank hk hb
  case mark =>
    intro held line more block hk hn hm ih hlast
    exact (ih (hafter hlast)).mark hk hm hn
  case prose =>
    intro held line more hk hn hf hb hp ih hlast
    exact (ih (by simpa [Pending.lines] using showsLast_stripEnd hlast)).prose hf hb hp

end ApiReference
