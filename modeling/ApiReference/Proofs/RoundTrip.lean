import ApiReference.Proofs.Reading

/-! # Reading what was written

A text without blanks at its ends makes the same blocks after it was read and written once
(`Document.blocks_parse_toText`).

The lines of the writing are those of the blocks (`linesOf`), and the blocks are read from these
lines.  What is left to show is that the writing is nothing but these lines, with no blanks to drop
at its end (`EndsTidy`), and that its first line begins frontmatter where the first line of the text
does. -/

namespace ApiReference

/-- The last line is not blank, and it has no blanks at its end. -/
def EndsTidy (lines : List Text) : Prop :=
  ∃ start last, lines = start ++ [last] ∧ last.isAllBlank = false ∧ last.stripEnd = last

namespace EndsTidy

theorem append (a : List Text) {b : List Text} (h : EndsTidy b) : EndsTidy (a ++ b) := by
  obtain ⟨start, last, rfl, hb, ht⟩ := h
  exact ⟨a ++ start, last, by rw [List.append_assoc], hb, ht⟩

theorem of_append {a b : List Text} (h : EndsTidy (a ++ b)) (hne : b ≠ []) : EndsTidy b := by
  obtain ⟨start, last, e, hb, ht⟩ := h
  obtain e' | ⟨front, end', rfl⟩ := List.eq_nil_or_concat b
  · exact absurd e' hne
  · rw [List.concat_eq_append, ← List.append_assoc] at e
    obtain ⟨_, e⟩ := List.append_inj' e rfl
    rw [List.concat_eq_append, e]
    exact ⟨front, last, rfl, hb, ht⟩

theorem showsLast {lines : List Text} (h : EndsTidy lines) : ShowsLast lines := by
  obtain ⟨start, last, rfl, hb, _⟩ := h
  intro line hl
  rw [List.getLast?_concat, Option.mem_some_iff] at hl
  rw [← hl, hb]

/-- A text whose last line is tidy has no blanks at its end. -/
theorem stripEnd_unlines {lines : List Text} (h : EndsTidy lines) :
    (Text.unlines lines).stripEnd = Text.unlines lines := by
  obtain ⟨start, last, rfl, hb, ht⟩ := h
  have hne : last ≠ [] := by
    rintro rfl
    cases hb
  obtain ⟨front, c, hc, rfl⟩ := Text.exists_eq_concat_of_stripEnd ht hne
  obtain ⟨before, hj, _⟩ := Text.exists_unlines_concat start (front ++ [c])
  rw [hj, ← List.append_assoc, Text.stripEnd_concat hc]

/-- A text without blanks at its end has a tidy last line. -/
theorem of_stripEnd {x : Text} (h : x.stripEnd = x) (hne : x ≠ []) : EndsTidy (Text.lines x) := by
  have hx : Text.unlines (Text.lines x) = x := Text.unlines_lines x
  obtain e | ⟨start, last, e⟩ := List.eq_nil_or_concat (Text.lines x)
  · exact absurd e (Text.lines_ne_nil x)
  obtain ⟨before, hj, hbefore⟩ := Text.exists_unlines_concat start last
  rw [e, List.concat_eq_append, hj] at hx
  have hlast : last ≠ [] := by
    rintro rfl
    obtain rfl | ⟨y, rfl⟩ := hbefore
    · exact hne hx.symm
    · have hb : Text.isAllBlank ['\n'] = false :=
        Text.isAllBlank_of_append (a := y) (by simpa [← hx] using h) (by simp)
      exact absurd hb (by decide)
  refine ⟨start, last, e.trans List.concat_eq_append, ?_, ?_⟩
  · exact Text.isAllBlank_of_append (a := before) (by rw [hx, h]) hlast
  · exact Text.stripEnd_of_append (a := before) (by rw [hx, h])

theorem of_showsLast {lines : List Text} (h : ShowsLast lines) (hne : lines ≠ [])
    (ht : ∀ line ∈ lines, line.stripEnd = line) : EndsTidy lines := by
  obtain e | ⟨start, last, e⟩ := List.eq_nil_or_concat lines
  · exact absurd e hne
  · rw [List.concat_eq_append] at e
    subst e
    exact ⟨start, last, rfl, h last (by rw [List.getLast?_concat]; rfl), ht last (by simp)⟩

end EndsTidy

theorem Written.endsTidy {block : Block} {lines : List Text} (h : Written block lines) :
    EndsTidy lines :=
  .of_showsLast h.visible_getLast h.ne_nil fun line hl => (h.tidy line hl).2

/-! ### The lines of the writing -/

/-- The lines of blocks. -/
def linesOf : List Block → List Text
  | [] => []
  | block :: more => Text.lines block.render ++ linesAfter block more

theorem linesAfter_cons (before block : Block) (more : List Block) :
    linesAfter before (block :: more) = gapBetween before block ++ linesOf (block :: more) := rfl

theorem renderAll_eq {blocks : List Block} (h : blocks ≠ []) :
    Block.renderAll blocks = Text.stripEnd (Text.unlines (linesOf blocks)) ++ ['\n'] := by
  cases blocks with
  | nil => exact absurd rfl h
  | cons block more =>
      rw [Block.renderAll, linesOf, ← lines_renderAfter, Text.unlines_lines]

theorem isOneLine_of_mem_gap {before after : Block} {line : Text}
    (h : line ∈ gapBetween before after) : line.IsOneLine := by
  unfold gapBetween at h
  split at h
  · cases h
  · split at h
    · cases h
    · rw [List.mem_singleton.1 h]
      exact ⟨by simp, by simp⟩

namespace WrittenAll

variable {blocks : List Block} {lines : List Text}

theorem read_linesOf (h : WrittenAll blocks lines) :
    blocksOfLines (.paragraph []) (linesOf blocks) = blocks := by
  cases blocks with
  | nil => rfl
  | cons block more =>
      have hread := h.read block
      rwa [linesAfter_cons, blocksOfLines_gap] at hread

theorem ruleMarks_linesOf (h : WrittenAll blocks lines) :
    ruleMarks (linesOf blocks) = ruleMarks lines := by
  cases blocks with
  | nil =>
      cases h
      rfl
  | cons block more =>
      have hmarks := h.ruleMarks_linesAfter block
      rwa [linesAfter_cons, ruleMarks_gap] at hmarks

theorem endsTidy (h : WrittenAll blocks lines) (hne : blocks ≠ []) : EndsTidy (linesOf blocks) := by
  induction h with
  | nil => exact absurd rfl hne
  | @cons block blocks lines more hb _ ih =>
      rw [linesOf, hb.lines_render]
      cases blocks with
      | nil =>
          rw [linesAfter, List.append_nil]
          exact hb.endsTidy
      | cons next blocks =>
          rw [linesAfter_cons]
          exact .append _ (.append _ (ih (List.cons_ne_nil _ _)))
  | unclosed ho hlast =>
      rw [linesOf, lines_render_fenceOf ho, linesAfter, List.append_nil]
      exact .of_showsLast hlast ho.ne_nil ho.trimmed

theorem isOneLine_linesAfter (h : WrittenAll blocks lines) (before : Block) :
    ∀ line ∈ linesAfter before blocks, line.IsOneLine := by
  induction h generalizing before with
  | nil => exact fun line hl => by cases hl
  | @cons block blocks lines more hb _ ih =>
      intro line hl
      rw [linesAfter, hb.lines_render, List.mem_append, List.mem_append] at hl
      rcases hl with hl | hl | hl
      · exact isOneLine_of_mem_gap hl
      · exact (hb.tidy line hl).1
      · exact ih block line hl
  | unclosed ho _ =>
      intro line hl
      rw [linesAfter, lines_render_fenceOf ho, linesAfter, List.append_nil, List.mem_append] at hl
      rcases hl with hl | hl
      · exact isOneLine_of_mem_gap hl
      · exact ho.oneLine line hl

theorem isOneLine_linesOf (h : WrittenAll blocks lines) :
    ∀ line ∈ linesOf blocks, line.IsOneLine := by
  cases blocks with
  | nil => exact fun line hl => by cases hl
  | cons block more =>
      intro line hl
      exact h.isOneLine_linesAfter block line (linesAfter_cons block block more ▸
        List.mem_append_right _ hl)

/-- The first line of blocks shows. -/
theorem visible_head (h : WrittenAll blocks lines) :
    ∀ line ∈ (linesOf blocks).head?, line.isAllBlank = false := by
  intro line hl
  cases h with
  | nil => cases hl
  | @cons block blocks lines more hb _ =>
      rw [linesOf, hb.lines_render, List.head?_append_of_ne_nil _ hb.ne_nil] at hl
      exact hb.visible_head line hl
  | unclosed ho _ =>
      rw [linesOf, lines_render_fenceOf ho, linesAfter, List.append_nil] at hl
      obtain ⟨first, inner, rfl, hfirst, _⟩ := ho.fence
      rw [← Option.some.inj hl]
      exact isAllBlank_of_isFence hfirst

end WrittenAll

/-! ### Frontmatter -/

/-- Rules are found again behind the same lines. -/
theorem cutAfterRule?_eq_some {lines matter rest : List Text}
    (h : cutAfterRule? lines = some (matter, rest)) :
    lines = matter ++ rest ∧ ∀ more, cutAfterRule? (matter ++ more) = some (matter, more) := by
  induction lines generalizing matter with
  | nil => cases h
  | cons line lines ih =>
      rw [cutAfterRule?] at h
      split at h
      · next hr =>
        obtain ⟨rfl, rfl⟩ := Prod.mk.inj (Option.some.inj h)
        exact ⟨rfl, fun more => by rw [List.singleton_append, cutAfterRule?, if_pos hr]⟩
      · next hr =>
        obtain ⟨⟨before, after⟩, hc, e⟩ := Option.map_eq_some_iff.1 h
        obtain ⟨rfl, rfl⟩ := Prod.mk.inj e
        obtain ⟨rfl, hmore⟩ := ih hc
        refine ⟨rfl, fun more => ?_⟩
        rw [List.cons_append, cutAfterRule?, if_neg hr, hmore]
        rfl

theorem cutAfterRule?_eq_none_iff {lines : List Text} :
    cutAfterRule? lines = none ↔ true ∉ ruleMarks lines := by
  rw [true_mem_ruleMarks]
  induction lines with
  | nil => simp [cutAfterRule?]
  | cons line lines ih =>
      rw [cutAfterRule?]
      split
      · next hr => simp [hr]
      · next hr => simpa [hr] using ih

/-- The lines begin with a rule, and another rule comes later. -/
def BeginsMatter (lines : List Text) : Prop :=
  ∃ marks, ruleMarks lines = true :: marks ∧ true ∈ marks

theorem matter_eq_none_iff {first : Text} (h : first.isAllBlank = false) (more : List Text) :
    (if isRule first then cutAfterRule? more else none) = none ↔ ¬ BeginsMatter (first :: more) := by
  rw [BeginsMatter, ruleMarks_cons h]
  split
  · next hr => simp [hr, cutAfterRule?_eq_none_iff]
  · next hr => simp [hr]

/-- Without frontmatter all lines are read the same way. -/
theorem blocksOfAll_of_not_beginsMatter {lines : List Text}
    (hv : ∀ line ∈ lines.head?, line.isAllBlank = false) (h : ¬ BeginsMatter lines) :
    blocksOfAll lines = blocksOfLines (.paragraph []) lines := by
  cases lines with
  | nil => rfl
  | cons first more => rw [blocksOfAll, (matter_eq_none_iff (hv first rfl) more).2 h]

/-! ### Rereading -/

/-- The blocks are found again in the writing. -/
structure Rereads (blocks : List Block) : Prop where
  ne_nil : blocks ≠ []
  endsTidy : EndsTidy (linesOf blocks)
  oneLine : ∀ line ∈ linesOf blocks, line.IsOneLine
  read : blocksOfAll (linesOf blocks) = blocks

/-- Lines that end tidily are read as blocks with lines of their own. -/
theorem exists_written {lines : List Text} (hl : ∀ line ∈ lines, line.IsOneLine)
    (ht : EndsTidy lines) :
    blocksOfLines (.paragraph []) lines ≠ [] ∧ ∃ written,
      WrittenAll (blocksOfLines (.paragraph []) lines) written ∧
        ruleMarks written = ruleMarks lines := by
  obtain ⟨written, hw, hr⟩ :=
    keepsRules_of_lines lines (.paragraph []) (by simp [Pending.Kept]) hl ht.showsLast
  refine ⟨fun e => ?_, written, hw, hr⟩
  rw [e] at hw
  cases hw
  obtain ⟨start, last, rfl, hb, _⟩ := ht
  rw [Pending.lines, List.reverse_nil, List.nil_append, ruleMarks_append, ruleMarks_cons hb] at hr
  exact List.append_ne_nil_of_right_ne_nil _ (List.cons_ne_nil _ _) hr.symm

theorem rereads_blocksOfLines {lines : List Text} (hl : ∀ line ∈ lines, line.IsOneLine)
    (ht : EndsTidy lines) (hm : ¬ BeginsMatter lines) :
    Rereads (blocksOfLines (.paragraph []) lines) := by
  obtain ⟨hne, written, hw, hr⟩ := exists_written hl ht
  refine ⟨hne, hw.endsTidy hne, hw.isOneLine_linesOf, ?_⟩
  rw [blocksOfAll_of_not_beginsMatter hw.visible_head, hw.read_linesOf]
  rwa [BeginsMatter, hw.ruleMarks_linesOf, hr]

/-- Frontmatter of the given lines. -/
def matterOf (lines : List Text) : Block := { kind := .frontmatter, text := Text.unlines lines }

theorem linesOf_matterOf {matter : List Text} (hne : matter ≠ [])
    (hl : ∀ line ∈ matter, line.IsOneLine) (blocks : List Block) :
    linesOf (matterOf matter :: blocks) = matter ++ linesAfter (matterOf matter) blocks := by
  rw [linesOf]
  show Text.lines (Text.unlines matter) ++ _ = _
  rw [Text.lines_unlines hne fun line h => (hl line h).1]

theorem Rereads.matter {first : Text} {matter rest : List Text} {blocks : List Block}
    {lines : List Text} (hf : isRule first = true)
    (hc : cutAfterRule? (matter ++ rest) = some (matter, rest))
    (hl : ∀ line ∈ first :: matter, line.IsOneLine) (hw : WrittenAll blocks lines)
    (ht : EndsTidy (first :: matter ++ linesAfter (matterOf (first :: matter)) blocks)) :
    Rereads (matterOf (first :: matter) :: blocks) := by
  have hlines := linesOf_matterOf (List.cons_ne_nil first matter) hl blocks
  refine ⟨List.cons_ne_nil _ _, hlines ▸ ht, ?_, ?_⟩
  · intro line h
    rw [hlines] at h
    rcases List.mem_append.1 h with h | h
    · exact hl line h
    · exact hw.isOneLine_linesAfter _ line h
  · rw [hlines, List.cons_append, blocksOfAll, if_pos hf, (cutAfterRule?_eq_some hc).2]
    exact congrArg _ (hw.read _)

theorem rereads_matterOf {first : Text} {matter rest : List Text} (hf : isRule first = true)
    (hc : cutAfterRule? (matter ++ rest) = some (matter, rest))
    (hl : ∀ line ∈ first :: matter ++ rest, line.IsOneLine)
    (ht : EndsTidy (first :: matter ++ rest)) :
    Rereads (matterOf (first :: matter) :: blocksOfLines (.paragraph []) rest) := by
  have hmatter : ∀ line ∈ first :: matter, line.IsOneLine := fun line h =>
    hl line (List.mem_append_left rest h)
  by_cases hr : rest = []
  · subst hr
    exact .matter hf hc hmatter .nil ht
  · have hrest : ∀ line ∈ rest, line.IsOneLine := fun line h =>
      hl line (List.mem_append_right (first :: matter) h)
    obtain ⟨hne, written, hw, _⟩ := exists_written hrest (ht.of_append hr)
    refine .matter hf hc hmatter hw (.append _ ?_)
    obtain ⟨block, blocks, e⟩ := List.exists_cons_of_ne_nil hne
    rw [e, linesAfter_cons, ← e]
    exact .append _ (hw.endsTidy hne)

theorem rereads_blocksOfAll {first : Text} {more : List Text} (hv : first.isAllBlank = false)
    (hl : ∀ line ∈ first :: more, line.IsOneLine) (ht : EndsTidy (first :: more)) :
    Rereads (blocksOfAll (first :: more)) := by
  cases hm : if isRule first then cutAfterRule? more else none with
  | none =>
      rw [blocksOfAll, hm]
      exact rereads_blocksOfLines hl ht ((matter_eq_none_iff hv more).1 hm)
  | some cut =>
      rw [blocksOfAll, hm]
      split at hm
      · next hf =>
        obtain ⟨rfl, _⟩ := cutAfterRule?_eq_some hm
        exact rereads_matterOf hf hm hl ht
      · cases hm

theorem Rereads.blocksOf_dropLast {blocks : List Block} (h : Rereads blocks) :
    Document.blocksOf (Block.renderAll blocks).dropLast = blocks := by
  have hr : '\r' ∉ Text.unlines (linesOf blocks) := by
    intro hm
    obtain e | ⟨line, hl, hc⟩ := Text.mem_of_mem_unlines hm
    · cases e
    · exact (h.oneLine line hl).2 hc
  have hne : linesOf blocks ≠ [] := by
    obtain ⟨start, last, e, _⟩ := h.endsTidy
    simp [e]
  rw [renderAll_eq h.ne_nil, h.endsTidy.stripEnd_unlines, List.dropLast_concat, Document.blocksOf,
    Text.unifyLineEnds_of_not_mem hr, Text.lines_unlines hne fun line hl => (h.oneLine line hl).1,
    h.read]

/-- A text without blanks at its ends makes the same blocks after it was read and written once. -/
theorem Document.blocks_parse_toText (x location title : Text) (h : x.strip = x) :
    (parse (parse x location title).toText.dropLast location title).blocks =
      (parse x location title).blocks := by
  show blocksOf (Block.renderAll (blocksOf x)).dropLast = blocksOf x
  by_cases hne : x = []
  · subst hne
    rfl
  obtain ⟨⟨c, rest, hc, hstart⟩, start, d, hd, hend⟩ := Text.exists_ends_of_strip h hne
  refine Rereads.blocksOf_dropLast ?_
  have htidy : EndsTidy (Text.lines x.unifyLineEnds) := by
    rw [hend, Text.unifyLineEnds_concat _ hd]
    exact .of_stripEnd (Text.stripEnd_concat hd) (by simp)
  have hline : ∀ line ∈ Text.lines x.unifyLineEnds, line.IsOneLine := fun line hl =>
    Text.isOneLine_of_mem_lines (Text.not_mem_unifyLineEnds x) hl
  have hnewline : c ≠ '\n' := by
    rintro rfl
    exact absurd hc (by decide)
  obtain ⟨first, more, e⟩ := Text.lines_cons hnewline (Text.unifyLineEnds rest)
  rw [hstart, Text.unifyLineEnds_cons hc, e] at htidy hline
  rw [blocksOf, hstart, Text.unifyLineEnds_cons hc, e]
  refine rereads_blocksOfAll ?_ hline htidy
  simp [Text.isAllBlank, hc]

theorem Document.blocks_parse_toText_fenced :
    let x : Text := "---\n #  A\r\n<Note> \n</Note>\x85\n  \x60\x60\x60\n# B\x60"
    x.strip = x ∧ (parse (parse x [] []).toText.dropLast [] []).blocks = (parse x [] []).blocks :=
  ⟨by decide, blocks_parse_toText _ [] [] (by decide)⟩

end ApiReference
