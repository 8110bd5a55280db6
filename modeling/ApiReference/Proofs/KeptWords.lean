import ApiReference.Proofs.RoundTrip
import ApiReference.Proofs.Words

/-! # Reading keeps every word

Reading a text into blocks and writing the blocks drops no word of the text, and neither doubles,
moves, cuts nor joins any (`Document.words_toText_parse`): only blanks can differ, so the characters
that show are the same (`Document.shown_toText_parse`).

The induction is on the lines that are read.  What it counts are the words of the lines that an
unfinished block holds, together with those of the lines to come (`words_blocksOfLines`). -/

namespace ApiReference

/-! ### Writing -/

/-- What stands between two blocks parts their words. -/
theorem words_append_separator (before after : Block) (x y : Text) :
    Text.words (x ++ Block.separator before after ++ y) = x.words ++ y.words := by
  have hnewline : isBlank '\n' = true := by decide
  have hline : Text.words (x ++ ['\n'] ++ y) = x.words ++ y.words := by
    rw [List.append_assoc]
    exact Text.words_append_cons hnewline x y
  unfold Block.separator
  split
  · exact hline
  · split
    · exact hline
    · rw [List.append_assoc]
      exact (Text.words_append_cons hnewline x ('\n' :: y)).trans
        (congrArg _ (Text.words_append_cons hnewline [] y))

theorem words_renderAfter (x : Text) (before : Block) (blocks : List Block) :
    Text.words (x ++ Block.renderAfter before blocks) =
      x.words ++ blocks.flatMap fun block => block.render.words := by
  induction blocks generalizing x before with
  | nil => rw [Block.renderAfter, List.append_nil, List.flatMap_nil, List.append_nil]
  | cons block blocks ih =>
      rw [Block.renderAfter, ← List.append_assoc, ← List.append_assoc, ih, words_append_separator,
        List.flatMap_cons, List.append_assoc]

/-- The words of written blocks are those of each block. -/
theorem words_renderAll (blocks : List Block) :
    (Block.renderAll blocks).words = blocks.flatMap fun block => block.render.words := by
  cases blocks with
  | nil => rfl
  | cons block blocks =>
      rw [Block.renderAll, Text.words_append_blank _ (by decide), Text.words_stripEnd,
        words_renderAfter, List.flatMap_cons]

/-! ### Reading -/

/-- A block that a line makes has the words of the line. -/
theorem words_of_lineBlock? {line : Text} {block : Block} (h : lineBlock? line = some block) :
    block.render.words = line.words := by
  rw [lineBlock?_eq_or] at h
  rcases Option.or_eq_some_iff.1 h with h | ⟨hnone, h⟩
  · obtain ⟨count, c, title, _, _, hc, hline, rfl⟩ := split_of_headingLine? h
    have hspace : isBlank ' ' = true := by decide
    rw [← Text.words_strip line, hline, Text.words_append_cons hc, render_heading, headingText,
      Text.words_append_cons hspace, Text.words_strip]
  · have hrender : block.render = line.strip := by
      rcases Option.or_eq_some_iff.1 h with h | ⟨_, h⟩
      · obtain ⟨hk, ht⟩ := closingLine?_eq_some h
        simp [Block.render, hk, ht]
      · obtain ⟨hk, ht⟩ := openingLine?_eq_some h
        simp [Block.render, hk, ht]
    rw [hrender, Text.words_strip]

theorem words_fenceOf (lines : List Text) :
    (fenceOf lines).render.words = lines.reverse.flatMap Text.words := Text.words_unlines _

theorem words_paragraphOf (lines : List Text) :
    (paragraphOf lines).flatMap (fun block => block.render.words) =
      lines.reverse.flatMap Text.words := by
  cases lines with
  | nil => rfl
  | cons line lines =>
      have hparagraph : paragraphOf (line :: lines) =
          [Block.paragraph (Text.unlines (line :: lines).reverse)] := rfl
      rw [hparagraph, List.flatMap_cons, List.flatMap_nil, List.append_nil]
      exact Text.words_unlines _

/-- The words of a line that joins an unfinished block are held with those of the lines before. -/
theorem flatMap_words_stripEnd (held more : List Text) (line : Text) :
    ((line.stripEnd :: held).reverse ++ more).flatMap Text.words =
      (held.reverse ++ line :: more).flatMap Text.words := by
  simp only [List.reverse_cons, List.flatMap_append, List.flatMap_cons, List.flatMap_nil,
    List.append_nil, Text.words_stripEnd, List.append_assoc]

/-- The blocks that lines make after an unfinished block have the words of its lines and theirs. -/
theorem words_blocksOfLines (held : Pending) (lines : List Text) :
    (blocksOfLines held lines).flatMap (fun block => block.render.words) =
      (held.lines ++ lines).flatMap Text.words := by
  fun_induction blocksOfLines held lines with
  | case1 held => rw [words_paragraphOf, List.append_nil, Pending.lines]
  | case2 held => rw [List.flatMap_singleton, words_fenceOf, List.append_nil, Pending.lines]
  | case3 held line more _ ih =>
      rw [List.flatMap_cons, ih, words_fenceOf, ← List.flatMap_append]
      exact flatMap_words_stripEnd held more line
  | case4 held line more _ ih =>
      rw [ih]
      exact flatMap_words_stripEnd held more line
  | case5 held line more _ ih =>
      rw [List.flatMap_append, words_paragraphOf, ih, ← List.flatMap_append]
      simp only [Pending.lines, List.reverse_singleton, List.flatMap_append, List.flatMap_cons,
        List.flatMap_nil, List.append_nil, Text.words_stripEnd]
  | case6 held line more _ hb ih =>
      rw [List.flatMap_append, words_paragraphOf, ih, Pending.lines, Pending.lines,
        List.reverse_nil, List.nil_append, List.flatMap_append, List.flatMap_cons,
        Text.words_of_isAllBlank hb, List.nil_append]
  | case7 held line more _ _ block hm ih =>
      rw [List.flatMap_append, words_paragraphOf, List.flatMap_cons, ih, words_of_lineBlock? hm,
        Pending.lines, Pending.lines, List.reverse_nil, List.nil_append, List.flatMap_append,
        List.flatMap_cons]
  | case8 held line more _ _ _ ih =>
      rw [ih]
      exact flatMap_words_stripEnd held more line

/-- The blocks that lines make have the words of the lines, frontmatter included. -/
theorem words_blocksOfAll (lines : List Text) :
    (blocksOfAll lines).flatMap (fun block => block.render.words) = lines.flatMap Text.words := by
  cases lines with
  | nil => rfl
  | cons first more =>
      rw [blocksOfAll]
      split
      · next matter rest hcut =>
        have hmore : more = matter ++ rest := by
          split at hcut
          · exact (cutAfterRule?_eq_some hcut).1
          · cases hcut
        have hmatter : (matterOf (first :: matter)).render.words =
            (first :: matter).flatMap Text.words := Text.words_unlines _
        rw [List.flatMap_cons, words_blocksOfLines, hmore, Pending.lines, List.reverse_nil,
          List.nil_append, ← List.cons_append, List.flatMap_append]
        exact congrArg (· ++ _) hmatter
      · rw [words_blocksOfLines, Pending.lines, List.reverse_nil, List.nil_append]

/-! ### Texts -/

theorem Document.words_toText_parse (x location title : Text) :
    (parse x location title).toText.words = x.words := by
  show (Block.renderAll (blocksOfAll (Text.lines x.unifyLineEnds))).words = x.words
  rw [words_renderAll, words_blocksOfAll, ← Text.words_unlines, Text.unlines_lines,
    Text.words_unifyLineEnds]

/-- Reading a text and writing what was read keeps the words, so it keeps the characters that show,
each of them once and in its place. -/
theorem Document.shown_toText_parse (x location title : Text) :
    (parse x location title).toText.words = x.words ∧
      (parse x location title).toText.filter (fun c => !isBlank c) =
        x.filter fun c => !isBlank c := by
  have hwords := words_toText_parse x location title
  refine ⟨hwords, ?_⟩
  rw [← Text.flatten_words, hwords, Text.flatten_words]

example : (Document.parse "---\na \r #  B\n\x60\x60\x60\n#  C" [] []).toText =
    "---\na\n\n# B\n\n\x60\x60\x60\n#  C\n" := by
  decide +kernel

end ApiReference
