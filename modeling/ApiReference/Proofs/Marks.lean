import ApiReference.Proofs.Reading
import ApiReference.Proofs.Repair

/-! # Headings and tags in a text

Which headings and tags are read in a written document is decided line by line: a line that shows is
read as what it is, unless an odd number of fences comes before it (`marksOfLines`).

Main statements: these are the marks that reading finds (`filter_isMark_blocksOfLines`); the lines
that show in the writing are those of the blocks, one block after another (`shownLines_renderAll`);
and blocks that each show nothing but themselves are found again (`marksOfLines_of_stands`). -/

namespace ApiReference

namespace Text

/-! ### Lines that show -/

/-- The lines that are not blank, without the blanks at their ends. -/
def shownOf (lines : List Text) : List Text :=
  (lines.map stripEnd).filter fun line => !line.isEmpty

/-- The lines of a text that are not blank, without the blanks at their ends. -/
def shownLines (x : Text) : List Text := shownOf (lines x.unifyLineEnds)

theorem shownOf_append (a b : List Text) : shownOf (a ++ b) = shownOf a ++ shownOf b := by
  simp [shownOf]

theorem shownOf_cons_visible {line : Text} (h : line.isAllBlank = false) (more : List Text) :
    shownOf (line :: more) = line.stripEnd :: shownOf more := by
  have hne : line.stripEnd ≠ [] := by
    rw [Ne, stripEnd_eq_nil_iff, h]
    exact Bool.false_ne_true
  simp [shownOf, hne]

theorem shownOf_cons_blank {line : Text} (h : line.isAllBlank = true) (more : List Text) :
    shownOf (line :: more) = shownOf more := by
  simp [shownOf, stripEnd_eq_nil_iff.2 h]

/-- Blanks at the end of the last line do not show. -/
theorem shownOf_concat_blank (lines : List Text) (last : Text) {gap : Text}
    (h : gap.isAllBlank = true) : shownOf (lines ++ [last ++ gap]) = shownOf (lines ++ [last]) := by
  simp [shownOf, stripEnd_append_blank last h]

/-- A newline that completes no other line end parts lines. -/
theorem lines_unifyLineEnds_append {x : Text} (h : x.getLast? ≠ some '\r') (y : Text) :
    lines (unifyLineEnds (x ++ '\n' :: y)) =
      lines (unifyLineEnds x) ++ lines (unifyLineEnds y) := by
  have hy : unifyLineEnds ('\n' :: y) = '\n' :: unifyLineEnds y := by
    rw [unifyLineEnds.eq_3 _ _ fun rest e _ => absurd e (by decide)]
    rfl
  rw [unifyLineEnds_append fun e => absurd e h, hy, lines_append_newline]

/-- A line end parts the lines that show, even where it is only the second half of one. -/
theorem shownLines_append_newline (x y : Text) :
    shownLines (x ++ '\n' :: y) = shownLines x ++ shownLines y := by
  unfold shownLines
  by_cases hx : x.getLast? = some '\r'
  · obtain ⟨start, rfl⟩ : ∃ start, x = start ++ ['\r'] := by
      obtain rfl | ⟨start, c, rfl⟩ := List.eq_nil_or_concat x
      · cases hx
      · rw [List.concat_eq_append, List.getLast?_concat, Option.some_inj] at hx
        exact ⟨start, by rw [List.concat_eq_append, hx]⟩
    have hboth : unifyLineEnds ('\r' :: '\n' :: y) = '\n' :: unifyLineEnds y := by
      rw [unifyLineEnds]
    have hfirst : unifyLineEnds ['\r'] = ['\n'] := rfl
    rw [List.append_assoc, List.singleton_append, unifyLineEnds_append (by simp), hboth,
      lines_append_newline, unifyLineEnds_append (by simp), hfirst, lines_append_newline,
      shownOf_append, shownOf_append]
    simp [shownOf, lines, split, splitWhere, stripEnd, dropEndWhile]
  · rw [lines_unifyLineEnds_append hx, shownOf_append]

theorem shownLines_concat_blank (x : Text) {c : Char} (h : isBlank c = true) :
    shownLines (x ++ [c]) = shownLines x := by
  by_cases hn : c = '\n'
  · subst hn
    exact (shownLines_append_newline x []).trans (List.append_nil _)
  by_cases hr : c = '\r'
  · subst hr
    have hlast : unifyLineEnds ['\r'] = ['\n'] := rfl
    unfold shownLines
    rw [unifyLineEnds_append (by simp), hlast, lines_append_newline, shownOf_append]
    exact List.append_nil _
  · have hlast : unifyLineEnds [c] = [c] := by
      rw [unifyLineEnds.eq_3 _ _ fun rest e _ => hr e, if_neg hr]
      rfl
    unfold shownLines
    rw [unifyLineEnds_append (by simpa using fun _ => hn), hlast]
    obtain e | ⟨start, last, e⟩ := List.eq_nil_or_concat (lines (unifyLineEnds x))
    · exact absurd e (lines_ne_nil _)
    rw [List.concat_eq_append] at e
    rw [lines_concat e hn, e]
    exact shownOf_concat_blank start last (by simpa [isAllBlank] using h)

/-- Blanks and line ends at the end of a text do not show. -/
theorem shownLines_append_blank (x : Text) {gap : Text} (h : gap.isAllBlank = true) :
    shownLines (x ++ gap) = shownLines x := by
  induction gap using List.reverseRecOn with
  | nil => rw [List.append_nil]
  | append_singleton gap c ih =>
      rw [isAllBlank_iff] at h
      rw [← List.append_assoc, shownLines_concat_blank _ (h c (by simp)),
        ih (isAllBlank_iff.2 fun d hd => h d (List.mem_append_left _ hd))]

theorem shownLines_stripEnd (x : Text) : shownLines x.stripEnd = shownLines x := by
  obtain ⟨gap, hgap, e⟩ := exists_eq_stripEnd_append x
  exact (shownLines_append_blank _ hgap).symm.trans (congrArg shownLines e.symm)

/-- A line without blanks at its end shows as it is. -/
theorem shownLines_of_isOneLine {x : Text} (h : x.IsOneLine) (hb : x.isAllBlank = false)
    (ht : x.stripEnd = x) : shownLines x = [x] := by
  rw [shownLines, unifyLineEnds_of_not_mem h.2, lines_of_not_mem h.1, shownOf_cons_visible hb, ht]
  rfl

end Text

/-! ### Marks -/

/-- The block is a heading or a container tag. -/
def Block.isMark (block : Block) : Bool := block.kind == .heading || block.isContainer

/-- Whether code is open after lines, each of which begins or ends code if it is a fence. -/
def inFenceAfter (inFence : Bool) : List Text → Bool
  | [] => inFence
  | line :: more => inFenceAfter (xor inFence (isFence line)) more

/-- The headings and tags that lines are, fences and the code between them left out. -/
def marksOfLines (inFence : Bool) : List Text → List Block
  | [] => []
  | line :: more =>
    (if inFence then [] else (lineBlock? line).toList) ++
      marksOfLines (xor inFence (isFence line)) more

theorem marksOfLines_append (inFence : Bool) (a b : List Text) :
    marksOfLines inFence (a ++ b) =
      marksOfLines inFence a ++ marksOfLines (inFenceAfter inFence a) b := by
  induction a generalizing inFence with
  | nil => rfl
  | cons line a ih =>
      rw [List.cons_append, marksOfLines, marksOfLines, inFenceAfter, ih, List.append_assoc]

theorem inFenceAfter_append (inFence : Bool) (a b : List Text) :
    inFenceAfter inFence (a ++ b) = inFenceAfter (inFenceAfter inFence a) b := by
  induction a generalizing inFence with
  | nil => rfl
  | cons line a ih => rw [List.cons_append, inFenceAfter, inFenceAfter, ih]

/-- Blank lines, and blanks at the ends of lines, change no marks. -/
theorem marksOfLines_shownOf (inFence : Bool) (lines : List Text) :
    marksOfLines inFence (Text.shownOf lines) = marksOfLines inFence lines := by
  induction lines generalizing inFence with
  | nil => rfl
  | cons line lines ih =>
      by_cases hb : line.isAllBlank = true
      · rw [Text.shownOf_cons_blank hb, ih, marksOfLines, lineBlock?_of_isAllBlank hb,
          isFence_of_isAllBlank hb]
        simp
      · rw [Text.shownOf_cons_visible (by simpa using hb), marksOfLines, marksOfLines,
          lineBlock?_stripEnd, isFence_stripEnd, ih]

theorem isMark_of_lineBlock? {line : Text} {block : Block} (h : lineBlock? line = some block) :
    block.isMark = true := by
  rcases kind_of_lineBlock? h with hk | hc
  · simp [Block.isMark, hk]
  · simp [Block.isMark, hc]

theorem filter_isMark_paragraphOf (lines : List Text) :
    (paragraphOf lines).filter Block.isMark = [] := by
  unfold paragraphOf
  split <;> rfl

/-- The unfinished block is code. -/
def Pending.isFence : Pending → Bool
  | .paragraph _ => false
  | .fence _ => true

/-- Reading finds the marks that the lines are. -/
theorem filter_isMark_blocksOfLines : ∀ (held : Pending) (lines : List Text),
    (blocksOfLines held lines).filter Block.isMark = marksOfLines held.isFence lines
  | .paragraph held, [] => filter_isMark_paragraphOf held
  | .fence _, [] => rfl
  | .fence held, line :: more => by
      by_cases hf : isFence line = true
      · rw [blocksOfLines_closeFence hf, List.filter_cons_of_neg Bool.false_ne_true,
          filter_isMark_blocksOfLines, marksOfLines, hf]
        rfl
      · have hf : isFence line = false := by simpa using hf
        rw [blocksOfLines_code hf, filter_isMark_blocksOfLines, marksOfLines, hf]
        rfl
  | .paragraph held, line :: more => by
      by_cases hf : isFence line = true
      · rw [blocksOfLines_openFence hf, List.filter_append, filter_isMark_paragraphOf,
          filter_isMark_blocksOfLines, marksOfLines, lineBlock?_of_isFence hf, hf]
        rfl
      have hf : isFence line = false := by simpa using hf
      by_cases hb : line.isAllBlank = true
      · rw [blocksOfLines_blank hb, List.filter_append, filter_isMark_paragraphOf,
          filter_isMark_blocksOfLines, marksOfLines, lineBlock?_of_isAllBlank hb, hf]
        rfl
      have hb : line.isAllBlank = false := by simpa using hb
      cases hp : lineBlock? line with
      | some block =>
          rw [blocksOfLines_mark hp, List.filter_append, filter_isMark_paragraphOf,
            List.filter_cons_of_pos (isMark_of_lineBlock? hp), filter_isMark_blocksOfLines,
            marksOfLines, hp, hf]
          rfl
      | none =>
          rw [blocksOfLines_prose hf hb hp, filter_isMark_blocksOfLines, marksOfLines, hp, hf]
          rfl

/-! ### Marks of written blocks -/

/-- The lines that show of blocks, one block after another. -/
def shownLinesOf (blocks : List Block) : List Text :=
  blocks.flatMap fun block => block.render.shownLines

theorem shownLinesOf_cons (block : Block) (more : List Block) :
    shownLinesOf (block :: more) = block.render.shownLines ++ shownLinesOf more := List.flatMap_cons

theorem shownLines_append_separator (before after : Block) (x y : Text) :
    Text.shownLines (x ++ Block.separator before after ++ y) = x.shownLines ++ y.shownLines := by
  unfold Block.separator
  rw [List.append_assoc]
  split
  · exact Text.shownLines_append_newline x y
  · split
    · exact Text.shownLines_append_newline x y
    · exact (Text.shownLines_append_newline x ('\n' :: y)).trans
        (congrArg _ (Text.shownLines_append_newline [] y))

theorem shownLines_renderAfter (x : Text) (before : Block) (blocks : List Block) :
    Text.shownLines (x ++ Block.renderAfter before blocks) =
      x.shownLines ++ shownLinesOf blocks := by
  induction blocks generalizing x before with
  | nil => simp [Block.renderAfter, shownLinesOf]
  | cons block blocks ih =>
      rw [Block.renderAfter, ← List.append_assoc, ← List.append_assoc, ih,
        shownLines_append_separator, shownLinesOf_cons, List.append_assoc]

/-- The lines that show in the writing are those of the blocks. -/
theorem shownLines_renderAll (blocks : List Block) :
    Text.shownLines (Block.renderAll blocks) = shownLinesOf blocks := by
  cases blocks with
  | nil => rfl
  | cons block more =>
      rw [Block.renderAll, Text.shownLines_concat_blank _ (by decide), Text.shownLines_stripEnd,
        shownLines_renderAfter, shownLinesOf_cons]

/-- A block that shows nothing but itself: its lines are one mark if it is a heading or a tag, and
no mark otherwise, and they leave no code open. -/
def Stands (block : Block) : Prop :=
  marksOfLines false block.render.shownLines = [block].filter Block.isMark ∧
    inFenceAfter false block.render.shownLines = false

instance (block : Block) : Decidable (Stands block) :=
  inferInstanceAs (Decidable (_ ∧ _))

theorem marksOfLines_of_stands {blocks : List Block} (h : ∀ block ∈ blocks, Stands block) :
    marksOfLines false (shownLinesOf blocks) = blocks.filter Block.isMark := by
  induction blocks with
  | nil => rfl
  | cons block blocks ih =>
      obtain ⟨hmarks, hclosed⟩ := h block List.mem_cons_self
      have hmore := ih fun b hb => h b (List.mem_cons_of_mem _ hb)
      rw [shownLinesOf_cons, marksOfLines_append, hmarks, hclosed, hmore, ← List.filter_append,
        List.singleton_append]

/-! ### Texts that stand -/

/-- Blank lines, and blanks at the ends of lines, open no code and close none. -/
theorem inFenceAfter_shownOf (inFence : Bool) (lines : List Text) :
    inFenceAfter inFence (Text.shownOf lines) = inFenceAfter inFence lines := by
  induction lines generalizing inFence with
  | nil => rfl
  | cons line lines ih =>
      by_cases hb : line.isAllBlank = true
      · rw [Text.shownOf_cons_blank hb, ih, inFenceAfter, isFence_of_isAllBlank hb, Bool.xor_false]
      · rw [Text.shownOf_cons_visible (by simpa using hb), inFenceAfter, inFenceAfter,
          isFence_stripEnd, ih]

/-- What a block shows is decided by its lines, if none of them holds a line end. -/
theorem stands_iff_of_lines {block : Block} {lines : List Text} (hne : lines ≠ [])
    (hl : ∀ line ∈ lines, line.IsOneLine) (hr : block.render = Text.unlines lines) :
    Stands block ↔ marksOfLines false lines = [block].filter Block.isMark ∧
      inFenceAfter false lines = false := by
  have hreturn : '\r' ∉ Text.unlines lines := by
    intro hm
    obtain e | ⟨line, hline, hc⟩ := Text.mem_of_mem_unlines hm
    · cases e
    · exact (hl line hline).2 hc
  have hlines : Text.lines (Text.unifyLineEnds block.render) = lines := by
    rw [hr, Text.unifyLineEnds_of_not_mem hreturn]
    exact Text.lines_unlines hne fun line h => (hl line h).1
  rw [Stands, Text.shownLines, hlines, marksOfLines_shownOf, inFenceAfter_shownOf]

/-- Lines between fences are no marks and change nothing about fences. -/
theorem marksOfLines_code {lines : List Text} (h : ∀ line ∈ lines, isFence line = false) :
    marksOfLines true lines = [] ∧ inFenceAfter true lines = true := by
  induction lines with
  | nil => exact ⟨rfl, rfl⟩
  | cons line lines ih =>
      obtain ⟨hm, hf⟩ := ih fun l hl => h l (List.mem_cons_of_mem _ hl)
      rw [marksOfLines, inFenceAfter, h line List.mem_cons_self]
      exact ⟨hm, hf⟩

theorem marksOfLines_prose {lines : List Text} (h : ∀ line ∈ lines, IsProse line) :
    marksOfLines false lines = [] ∧ inFenceAfter false lines = false := by
  induction lines with
  | nil => exact ⟨rfl, rfl⟩
  | cons line lines ih =>
      obtain ⟨hm, hf⟩ := ih fun l hl => h l (List.mem_cons_of_mem _ hl)
      have hline := h line List.mem_cons_self
      rw [marksOfLines, inFenceAfter, hline.fence, hline.plain]
      exact ⟨hm, hf⟩

theorem IsOpenFence.marksOfLines {lines : List Text} (h : IsOpenFence lines) :
    marksOfLines false lines = [] ∧ inFenceAfter false lines = true := by
  obtain ⟨first, inner, rfl, hfirst, hinner⟩ := h.fence
  rw [ApiReference.marksOfLines, inFenceAfter, hfirst, lineBlock?_of_isFence hfirst]
  exact marksOfLines_code hinner

/-- A block with lines of its own stands for itself. -/
theorem Written.stands {block : Block} {lines : List Text} (h : Written block lines) :
    Stands block := by
  have hr : block.render = Text.unlines lines := by
    rw [← h.lines_render, Text.unlines_lines]
  rw [stands_iff_of_lines h.ne_nil (fun line hl => (h.tidy line hl).1) hr]
  cases h with
  | mark hm =>
      rw [marksOfLines, inFenceAfter, isFence_of_lineBlock? hm, hm,
        List.filter_cons_of_pos (isMark_of_lineBlock? hm)]
      exact ⟨rfl, rfl⟩
  | prose _ hp => exact marksOfLines_prose hp
  | @fenced lines last ho hf =>
      obtain ⟨hm, hopen⟩ := ho.marksOfLines
      rw [marksOfLines_append, hm, hopen, inFenceAfter_append, hopen, marksOfLines, inFenceAfter, hf]
      exact ⟨rfl, rfl⟩

/-- Code that no fence ends does not stand for itself. -/
theorem not_stands_fenceOf {lines : List Text} (h : IsOpenFence lines) :
    ¬ Stands (fenceOf lines.reverse) := by
  have hr : (fenceOf lines.reverse).render = Text.unlines lines := by
    show Text.unlines lines.reverse.reverse = Text.unlines lines
    rw [List.reverse_reverse]
  rw [stands_iff_of_lines h.ne_nil h.oneLine hr, h.marksOfLines.2]
  exact fun hs => Bool.noConfusion hs.2

theorem stands_paragraphOf {held : List Text} (h : ∀ line ∈ held, IsProse line) :
    ∀ block ∈ paragraphOf held, Stands block := by
  intro block hb
  unfold paragraphOf at hb
  split at hb
  · cases hb
  · next hne =>
    rw [List.mem_singleton.1 hb]
    exact (Written.prose (by simpa using hne) fun l hl => h l (List.mem_reverse.1 hl)).stands

/-- All blocks that lines make stand for themselves if and only if no code is left open. -/
theorem stands_blocksOfLines_iff (lines : List Text) (held : Pending) (hk : held.Kept)
    (hl : ∀ line ∈ lines, line.IsOneLine) :
    (∀ block ∈ blocksOfLines held lines, Stands block) ↔
      inFenceAfter held.isFence lines = false := by
  have hheld {held : List Text} (hk : (Pending.paragraph held).Kept) (blocks : List Block) :
      (∀ block ∈ paragraphOf held ++ blocks, Stands block) ↔ ∀ block ∈ blocks, Stands block := by
    rw [List.forall_mem_append]
    exact and_iff_right (stands_paragraphOf hk)
  refine reading_induction (motive := fun held lines =>
      (∀ block ∈ blocksOfLines held lines, Stands block) ↔ inFenceAfter held.isFence lines = false)
    ?nil ?code ?closeFence ?openFence ?blank ?mark ?prose lines held hk hl
  case nil =>
    intro held hk
    cases held with
    | paragraph held => exact ⟨fun _ => rfl, fun _ => stands_paragraphOf hk⟩
    | fence held =>
        have hnot := not_stands_fenceOf hk
        rw [List.reverse_reverse] at hnot
        exact ⟨fun h => absurd (h _ List.mem_cons_self) hnot, fun h => Bool.noConfusion h⟩
  case code =>
    intro held line more hk hn hf ih
    rw [blocksOfLines_code hf, ih, inFenceAfter, hf]
    rfl
  case closeFence =>
    intro held line more hk hn hf ih
    have hblock : Stands (fenceOf (line.stripEnd :: held)) := (hk.closed hf hn).stands
    rw [blocksOfLines_closeFence hf, List.forall_mem_cons, ih, inFenceAfter, hf]
    exact and_iff_right hblock
  case openFence =>
    intro held line more hk hn hf ih
    rw [blocksOfLines_openFence hf, hheld hk, ih, inFenceAfter, hf]
    rfl
  case blank =>
    intro held line more hk hb ih
    rw [blocksOfLines_blank hb, hheld hk, ih, inFenceAfter, isFence_of_isAllBlank hb]
    rfl
  case mark =>
    intro held line more block hk hn hm ih
    have hblock : Stands block := (Written.of_line hm hn).stands
    rw [blocksOfLines_mark hm, hheld hk, List.forall_mem_cons, ih, inFenceAfter,
      isFence_of_lineBlock? hm]
    exact and_iff_right hblock
  case prose =>
    intro held line more hk hn hf hb hp ih
    rw [blocksOfLines_prose hf hb hp, ih, inFenceAfter, hf]
    rfl

/-! ### What marks decide -/

/-- Blocks are nested if their marks are. -/
theorem openedAfter?_filter_isMark (opened : List Text) (blocks : List Block) :
    openedAfter? opened (blocks.filter Block.isMark) = openedAfter? opened blocks := by
  induction blocks generalizing opened with
  | nil => rfl
  | cons block blocks ih =>
      by_cases hm : block.isMark = true
      · rw [List.filter_cons_of_pos hm, openedAfter?, openedAfter?]
        exact congrArg _ (funext ih)
      · have ho : block.opens = false := by
          rw [Bool.not_eq_true, Block.isMark, Block.isContainer] at hm
          simp_all [Block.opens]
        have hc : block.closes = false := by
          rw [Bool.not_eq_true, Block.isMark, Block.isContainer] at hm
          simp_all [Block.closes]
        rw [List.filter_cons_of_neg hm, ih, openedAfter?, nextOpened?_content opened ho hc,
          Option.bind_some]

theorem nested_filter_isMark (blocks : List Block) :
    Nested (blocks.filter Block.isMark) ↔ Nested blocks := by
  rw [Nested, Nested, openedAfter?_filter_isMark]

theorem shallow_filter_isMark (maxLevel : Int) (blocks : List Block) :
    Shallow maxLevel (blocks.filter Block.isMark) ↔ Shallow maxLevel blocks := by
  constructor
  · intro h block hb hk
    exact h block (List.mem_filter.2 ⟨hb, by simp [Block.isMark, hk]⟩) hk
  · exact fun h block hb hk => h block (List.mem_filter.1 hb).1 hk

end ApiReference
