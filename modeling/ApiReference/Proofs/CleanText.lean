import ApiReference.Proofs.Marks
import ApiReference.Proofs.Words

/-! # Cleaned text

What cleaning makes of running text: the lines that show stay, without the blanks at their ends
(`shownOf_lines_cleanText`), so no word is lost, cut or joined with another (`words_cleanText`).

Cleaning again changes nothing unless the text keeps a gap: four blank lines or more between two
lines that show, where blanks other than spaces and tabs stand in the way of shortening
(`cleanText_cleanText_iff`).  A third time never changes anything (`not_keepsGap_cleanText`). -/

namespace ApiReference

/-! ### Lines that show stay -/

theorem isAllBlank_of_isSpaceLine {line : Text} (h : isSpaceLine line = true) :
    line.isAllBlank = true := by
  rw [isSpaceLine, List.all_eq_true] at h
  refine Text.isAllBlank_iff.2 fun c hc => ?_
  have hchar := h c hc
  rw [Bool.or_eq_true, beq_iff_eq, beq_iff_eq] at hchar
  rcases hchar with rfl | rfl <;> decide

/-- A run of blank lines is cut down to blank lines, three at most. -/
theorem shortenRun_blank {run : List Text} (h : ∀ line ∈ run, line.isAllBlank = true) :
    (∀ line ∈ shortenRun run, line.isAllBlank = true) ∧ (shortenRun run).length ≤ 3 := by
  unfold shortenRun
  split
  · exact ⟨by simp [Text.isAllBlank], by simp⟩
  · exact ⟨fun line hl => h line (List.mem_reverse.1 hl), by simp only [List.length_reverse]; omega⟩

namespace Text

theorem shownOf_eq_nil_iff {lines : List Text} :
    shownOf lines = [] ↔ ∀ line ∈ lines, line.isAllBlank = true := by
  simp [shownOf, stripEnd_eq_nil_iff]

theorem shownOf_map_stripEnd (lines : List Text) : shownOf (lines.map stripEnd) = shownOf lines := by
  simp only [shownOf, List.map_map, Function.comp_def, stripEnd_stripEnd]

theorem shownOf_append_blank {gap : List Text} (h : ∀ line ∈ gap, line.isAllBlank = true)
    (lines : List Text) : shownOf (gap ++ lines) = shownOf lines := by
  rw [shownOf_append, shownOf_eq_nil_iff.2 h, List.nil_append]

theorem shownOf_collapseAfter {run : List Text} (h : ∀ line ∈ run, line.isAllBlank = true)
    (lines : List Text) : shownOf (collapseAfter run lines) = shownOf lines := by
  fun_induction collapseAfter run lines with
  | case1 run => exact shownOf_eq_nil_iff.2 fun line hl => h line (List.mem_reverse.1 hl)
  | case2 run last => exact shownOf_append_blank (shortenRun_blank h).1 [last]
  | case3 run line more hne hs ih =>
      have hb := isAllBlank_of_isSpaceLine hs
      rw [ih (List.forall_mem_cons.2 ⟨hb, h⟩), shownOf_cons_blank hb]
  | case4 run line more hne hs ih =>
      rw [shownOf_append_blank (shortenRun_blank h).1, ← List.singleton_append, shownOf_append,
        ih (by simp), ← shownOf_append, List.singleton_append]

theorem shownOf_collapseRuns (lines : List Text) : shownOf (collapseRuns lines) = shownOf lines := by
  cases lines with
  | nil => rfl
  | cons first more =>
      rw [collapseRuns, ← List.singleton_append, shownOf_append, shownOf_collapseAfter (by simp),
        ← shownOf_append, List.singleton_append]

/-! ### Empty lines at the ends -/

/-- The lines without the empty ones at both ends. -/
def trimLines (lines : List Text) : List Text :=
  (lines.dropWhile List.isEmpty).rdropWhile List.isEmpty

theorem dropWhile_unlines {lines : List Text} (h : ∀ line ∈ lines, '\n' ∉ line) :
    (unlines lines).dropWhile (· == '\n') = unlines (lines.dropWhile List.isEmpty) := by
  induction lines with
  | nil => rfl
  | cons line more ih =>
      have ih := ih fun l hl => h l (List.mem_cons_of_mem _ hl)
      cases line with
      | nil =>
          rw [List.dropWhile_cons_of_pos (by rfl), ← ih]
          cases more with
          | nil => rfl
          | cons second more => rw [unlines_cons (List.cons_ne_nil _ _)]; rfl
      | cons c line =>
          have hc : (c == '\n') = false :=
            beq_false_of_ne fun e => h _ List.mem_cons_self (by simp [e])
          rw [List.dropWhile_cons_of_neg (by simp)]
          obtain ⟨x, hx⟩ : ∃ x, unlines ((c :: line) :: more) = c :: x := by
            cases more with
            | nil => exact ⟨line, by simp [unlines, joinWith]⟩
            | cons second more => exact ⟨_, unlines_cons (List.cons_ne_nil _ _)⟩
          rw [hx, List.dropWhile_cons_of_neg (by simp [hc])]

theorem rdropWhile_unlines {lines : List Text} (h : ∀ line ∈ lines, '\n' ∉ line) :
    (unlines lines).rdropWhile (· == '\n') = unlines (lines.rdropWhile List.isEmpty) := by
  induction lines using List.reverseRecOn with
  | nil => rfl
  | append_singleton start last ih =>
      have ih := ih fun l hl => h l (List.mem_append_left _ hl)
      obtain rfl | ⟨front, c, rfl⟩ := List.eq_nil_or_concat last
      · rw [List.rdropWhile_concat_pos _ _ _ (by rfl), ← ih]
        by_cases hs : start = []
        · subst hs
          rfl
        · rw [unlines_concat hs, List.rdropWhile_concat_pos _ _ _ (by rfl)]
      · rw [List.concat_eq_append] at h ⊢
        have hc : (c == '\n') = false := by
          refine beq_false_of_ne fun e => h (front ++ [c]) (by simp) ?_
          rw [e]
          exact List.mem_append_right _ List.mem_cons_self
        rw [List.rdropWhile_concat_neg _ _ _ (by simp)]
        obtain ⟨x, hx, _⟩ := exists_unlines_concat start (front ++ [c])
        rw [hx, ← List.append_assoc, List.rdropWhile_concat_neg _ _ _ (by simp [hc])]

theorem trimWhile_unlines {lines : List Text} (h : ∀ line ∈ lines, '\n' ∉ line) :
    trimWhile (· == '\n') (unlines lines) = unlines (trimLines lines) := by
  have hdrop : ∀ line ∈ lines.dropWhile List.isEmpty, '\n' ∉ line := fun line hl =>
    h line ((List.dropWhile_suffix _).subset hl)
  rw [trimWhile, dropWhile_unlines h, dropEndWhile_eq_rdropWhile, rdropWhile_unlines hdrop,
    trimLines]

theorem trimLines_subset (lines : List Text) : trimLines lines ⊆ lines :=
  fun _ hl => (List.dropWhile_suffix _).subset ((List.rdropWhile_prefix _ _).subset hl)

/-- What is trimmed away is empty. -/
theorem exists_eq_trimLines (lines : List Text) : ∃ before after : List Text,
    (∀ line ∈ before, line = []) ∧ (∀ line ∈ after, line = []) ∧
      lines = before ++ trimLines lines ++ after := by
  refine ⟨lines.takeWhile List.isEmpty, (lines.dropWhile List.isEmpty).rtakeWhile List.isEmpty,
    fun line hl => List.isEmpty_iff.1 (List.mem_takeWhile_imp hl),
    fun line hl => List.isEmpty_iff.1 (List.mem_rtakeWhile_imp hl), ?_⟩
  rw [trimLines, List.append_assoc, List.rdropWhile_append_rtakeWhile,
    List.takeWhile_append_dropWhile]

/-- Neither the first line nor the last one is empty. -/
def EndsFilled (lines : List Text) : Prop :=
  (∀ line ∈ lines.head?, line ≠ []) ∧ ∀ line ∈ lines.getLast?, line ≠ []

theorem endsFilled_trimLines (lines : List Text) : EndsFilled (trimLines lines) := by
  constructor
  · intro line hl
    have hne : trimLines lines ≠ [] := by
      intro e
      rw [e] at hl
      cases hl
    obtain ⟨after, e⟩ := List.rdropWhile_prefix List.isEmpty (lines.dropWhile List.isEmpty)
    have hfirst : line ∈ (lines.dropWhile List.isEmpty).head? := by
      rw [← e]
      exact (List.head?_append_of_ne_nil _ hne).symm ▸ hl
    have hempty := List.head?_dropWhile_not List.isEmpty lines
    rw [Option.mem_def.1 hfirst] at hempty
    simpa using hempty
  · intro line hl
    have hne : trimLines lines ≠ [] := by
      intro e
      rw [e] at hl
      cases hl
    have hlast := List.rdropWhile_last_not List.isEmpty (lines.dropWhile List.isEmpty) hne
    rw [List.getLast?_eq_some_getLast hne, Option.mem_some_iff] at hl
    rw [← hl]
    exact fun e => hlast (List.isEmpty_iff.2 e)

theorem EndsFilled.trimLines {lines : List Text} (h : EndsFilled lines) :
    Text.trimLines lines = lines := by
  have hfirst : lines.dropWhile List.isEmpty = lines := by
    cases lines with
    | nil => rfl
    | cons first more => exact List.dropWhile_cons_of_neg (by simpa using h.1 first rfl)
  rw [Text.trimLines, hfirst, List.rdropWhile_eq_self_iff]
  intro hne
  simpa using h.2 _ (List.getLast?_eq_some_getLast hne)

theorem shownOf_trimLines (lines : List Text) : shownOf (trimLines lines) = shownOf lines := by
  obtain ⟨before, after, hb, ha, e⟩ := exists_eq_trimLines lines
  have hblank {gap : List Text} (h : ∀ line ∈ gap, line = []) : shownOf gap = [] :=
    shownOf_eq_nil_iff.2 fun line hl => by rw [h line hl]; rfl
  conv_rhs => rw [e, shownOf_append, shownOf_append, hblank hb, hblank ha]
  rw [List.nil_append, List.append_nil]

end Text

/-! ### Lines of cleaned text -/

/-- The lines that cleaning makes of a text; no lines if nothing is left. -/
def cleanedLines (x : Text) : List Text :=
  Text.trimLines ((collapseRuns (Text.lines x)).map Text.stripEnd)

theorem mem_collapseAfter {run lines : List Text} {line : Text}
    (h : line ∈ collapseAfter run lines) : line = [] ∨ line ∈ run ∨ line ∈ lines := by
  have hrun {run : List Text} (h : line ∈ shortenRun run) : line = [] ∨ line ∈ run := by
    unfold shortenRun at h
    split at h
    · exact .inl (by simpa using h)
    · exact .inr (List.mem_reverse.1 h)
  fun_induction collapseAfter run lines with
  | case1 run => exact .inr (.inl (List.mem_reverse.1 h))
  | case2 run last =>
      rcases List.mem_append.1 h with h | h
      · exact (hrun h).imp_right .inl
      · exact .inr (.inr h)
  | case3 run first more hne hs ih =>
      rcases ih h with h | h | h
      · exact .inl h
      · rcases List.mem_cons.1 h with rfl | h
        · exact .inr (.inr List.mem_cons_self)
        · exact .inr (.inl h)
      · exact .inr (.inr (List.mem_cons_of_mem _ h))
  | case4 run first more hne hs ih =>
      rcases List.mem_append.1 h with h | h
      · exact (hrun h).imp_right .inl
      · rcases List.mem_cons.1 h with rfl | h
        · exact .inr (.inr List.mem_cons_self)
        · rcases ih h with h | h | h
          · exact .inl h
          · cases h
          · exact .inr (.inr (List.mem_cons_of_mem _ h))

theorem mem_collapseRuns {lines : List Text} {line : Text} (h : line ∈ collapseRuns lines) :
    line = [] ∨ line ∈ lines := by
  cases lines with
  | nil => cases h
  | cons first more =>
      rcases List.mem_cons.1 h with rfl | h
      · exact .inr List.mem_cons_self
      · rcases mem_collapseAfter h with h | h | h
        · exact .inl h
        · cases h
        · exact .inr (List.mem_cons_of_mem _ h)

/-- A line that was trimmed holds no newline and has no blanks at its end. -/
theorem mem_map_stripEnd_collapseRuns {x line : Text}
    (h : line ∈ (collapseRuns (Text.lines x)).map Text.stripEnd) :
    '\n' ∉ line ∧ line.stripEnd = line := by
  obtain ⟨source, hs, rfl⟩ := List.mem_map.1 h
  refine ⟨fun hm => ?_, Text.stripEnd_stripEnd source⟩
  have hm : '\n' ∈ source := (Text.isPrefix_stripEnd source).subset hm
  rcases mem_collapseRuns hs with rfl | hs
  · cases hm
  · exact Text.not_mem_of_mem_lines hs hm

theorem mem_cleanedLines {x line : Text} (h : line ∈ cleanedLines x) :
    '\n' ∉ line ∧ line.stripEnd = line :=
  mem_map_stripEnd_collapseRuns (Text.trimLines_subset _ h)

theorem cleanText_eq (x : Text) : cleanText x = Text.unlines (cleanedLines x) :=
  Text.trimWhile_unlines fun _ hl => (mem_map_stripEnd_collapseRuns hl).1

theorem lines_cleanText {x : Text} (h : cleanedLines x ≠ []) :
    Text.lines (cleanText x) = cleanedLines x := by
  rw [cleanText_eq]
  exact Text.lines_unlines h fun line hl => (mem_cleanedLines hl).1

/-- One line is trimmed at its end. -/
theorem cleanText_of_not_mem {x : Text} (h : '\n' ∉ x) : cleanText x = x.stripEnd := by
  have hlines : (collapseRuns (Text.lines x)).map Text.stripEnd = [x.stripEnd] := by
    rw [Text.lines_of_not_mem h, collapseRuns, collapseAfter]
    rfl
  rw [cleanText_eq, cleanedLines, hlines]
  cases x.stripEnd with
  | nil => rfl
  | cons c x => simp [Text.trimLines, List.rdropWhile, Text.unlines, Text.joinWith]

/-- One line without blanks at its end is left alone. -/
theorem cleanText_of_isLine {x : Text} (hn : '\n' ∉ x) (hs : x.stripEnd = x) : cleanText x = x :=
  (cleanText_of_not_mem hn).trans hs

/-- The lines that show are the same as before. -/
theorem shownOf_lines_cleanText (x : Text) :
    Text.shownOf (Text.lines (cleanText x)) = Text.shownOf (Text.lines x) := by
  have hshown : Text.shownOf (cleanedLines x) = Text.shownOf (Text.lines x) := by
    rw [cleanedLines, Text.shownOf_trimLines, Text.shownOf_map_stripEnd, Text.shownOf_collapseRuns]
  by_cases h : cleanedLines x = []
  · rw [← hshown, cleanText_eq, h]
    rfl
  · rw [lines_cleanText h, hshown]

/-! ### Words stay -/

namespace Text

/-- The words of a text are those of its lines that show. -/
theorem words_eq_flatMap_shownOf (x : Text) : words x = (shownOf (lines x)).flatMap words := by
  have hlines (lines : List Text) : lines.flatMap words = (shownOf lines).flatMap words := by
    induction lines with
    | nil => rfl
    | cons line more ih =>
        by_cases hb : line.isAllBlank = true
        · rw [shownOf_cons_blank hb, List.flatMap_cons, words_of_isAllBlank hb, ih, List.nil_append]
        · rw [shownOf_cons_visible (by simpa using hb), List.flatMap_cons, List.flatMap_cons,
            words_stripEnd, ih]
  rw [← hlines, ← words_unlines, unlines_lines]

theorem isAllBlank_iff_shownOf (x : Text) : x.isAllBlank = true ↔ shownOf (lines x) = [] := by
  rw [shownOf_eq_nil_iff]
  constructor
  · intro h line hl
    refine isAllBlank_iff.2 fun c hc => isAllBlank_iff.1 h c ?_
    rw [← unlines_lines x]
    exact subset_unlines hl hc
  · intro h
    refine isAllBlank_iff.2 fun c hc => ?_
    rw [← unlines_lines x] at hc
    obtain rfl | ⟨line, hl, hc⟩ := mem_of_mem_unlines hc
    · decide
    · exact isAllBlank_iff.1 (h line hl) c hc

end Text

/-- Cleaning neither drops nor cuts nor joins words. -/
theorem words_cleanText (x : Text) : (cleanText x).words = x.words := by
  rw [Text.words_eq_flatMap_shownOf, shownOf_lines_cleanText, ← Text.words_eq_flatMap_shownOf]

theorem isAllBlank_cleanText (x : Text) : (cleanText x).isAllBlank = x.isAllBlank := by
  rw [Bool.eq_iff_iff, Text.isAllBlank_iff_shownOf, shownOf_lines_cleanText,
    Text.isAllBlank_iff_shownOf]

/-! ### Gaps -/

/-- Four blank lines or more stand between two lines that show, and nothing else. -/
def HasGap (lines : List Text) : Prop :=
  ∃ start above gap below rest, lines = start ++ above :: (gap ++ below :: rest) ∧
    above.isAllBlank = false ∧ below.isAllBlank = false ∧
    (∀ line ∈ gap, line.isAllBlank = true) ∧ 4 ≤ gap.length

/-- The text has a gap that is not shortened, since blanks other than spaces and tabs stand in it. -/
def KeepsGap (x : Text) : Prop := HasGap (collapseRuns (Text.lines x))

/-- Four blank lines or more come first, and then a line that shows. -/
def BeginsWithGap (lines : List Text) : Prop :=
  ∃ gap below rest, lines = gap ++ below :: rest ∧ below.isAllBlank = false ∧
    (∀ line ∈ gap, line.isAllBlank = true) ∧ 4 ≤ gap.length

theorem not_hasGap_nil : ¬ HasGap [] := by
  rintro ⟨start, above, gap, below, rest, e, -⟩
  simp at e

/-- Where a line that shows comes after blank lines, both are found in one way only. -/
theorem blank_append_inj {gap gap' rest rest' : List Text} {line line' : Text}
    (hg : ∀ l ∈ gap, l.isAllBlank = true) (hg' : ∀ l ∈ gap', l.isAllBlank = true)
    (hl : line.isAllBlank = false) (hl' : line'.isAllBlank = false)
    (h : gap ++ line :: rest = gap' ++ line' :: rest') :
    gap = gap' ∧ line = line' ∧ rest = rest' := by
  induction gap generalizing gap' with
  | nil =>
      cases gap' with
      | nil =>
          obtain ⟨rfl, rfl⟩ := List.cons.inj h
          exact ⟨rfl, rfl, rfl⟩
      | cons first gap' =>
          have hfirst := hg' first List.mem_cons_self
          rw [← (List.cons.inj h).1, hl] at hfirst
          cases hfirst
  | cons first gap ih =>
      cases gap' with
      | nil =>
          have hfirst := hg first List.mem_cons_self
          rw [(List.cons.inj h).1, hl'] at hfirst
          cases hfirst
      | cons first' gap' =>
          obtain ⟨rfl, hmore⟩ := List.cons.inj h
          obtain ⟨rfl, hrest⟩ := ih (fun l hm => hg l (List.mem_cons_of_mem _ hm))
            (fun l hm => hg' l (List.mem_cons_of_mem _ hm)) hmore
          exact ⟨rfl, hrest⟩

theorem not_beginsWithGap_blank {lines : List Text} (h : ∀ line ∈ lines, line.isAllBlank = true) :
    ¬ BeginsWithGap lines := by
  rintro ⟨gap, below, rest, rfl, hb, -, -⟩
  rw [h below (by simp)] at hb
  cases hb

theorem beginsWithGap_append_cons {gap : List Text} {line : Text} {more : List Text}
    (hg : ∀ l ∈ gap, l.isAllBlank = true) (hl : line.isAllBlank = false) :
    BeginsWithGap (gap ++ line :: more) ↔ 4 ≤ gap.length := by
  constructor
  · rintro ⟨gap', below, rest, e, hb, hg', hn⟩
    rw [(blank_append_inj hg hg' hl hb e).1]
    exact hn
  · exact fun hn => ⟨gap, line, more, rfl, hl, hg, hn⟩

theorem hasGap_cons_visible {line : Text} {more : List Text} (hl : line.isAllBlank = false) :
    HasGap (line :: more) ↔ BeginsWithGap more ∨ HasGap more := by
  constructor
  · rintro ⟨start, above, gap, below, rest, e, ha, hb, hg, hn⟩
    cases start with
    | nil => exact .inl ⟨gap, below, rest, (List.cons.inj e).2, hb, hg, hn⟩
    | cons first start =>
        exact .inr ⟨start, above, gap, below, rest, (List.cons.inj e).2, ha, hb, hg, hn⟩
  · rintro (⟨gap, below, rest, rfl, hb, hg, hn⟩ | ⟨start, above, gap, below, rest, rfl, h⟩)
    · exact ⟨[], line, gap, below, rest, rfl, hl, hb, hg, hn⟩
    · exact ⟨line :: start, above, gap, below, rest, rfl, h⟩

theorem hasGap_cons_blank {line : Text} {more : List Text} (hl : line.isAllBlank = true) :
    HasGap (line :: more) ↔ HasGap more := by
  constructor
  · rintro ⟨start, above, gap, below, rest, e, ha, h⟩
    cases start with
    | nil =>
        rw [(List.cons.inj e).1, ha] at hl
        cases hl
    | cons first start => exact ⟨start, above, gap, below, rest, (List.cons.inj e).2, ha, h⟩
  · rintro ⟨start, above, gap, below, rest, rfl, h⟩
    exact ⟨line :: start, above, gap, below, rest, rfl, h⟩

theorem hasGap_append_blank {gap : List Text} (hg : ∀ line ∈ gap, line.isAllBlank = true)
    (lines : List Text) : HasGap (gap ++ lines) ↔ HasGap lines := by
  induction gap with
  | nil => rfl
  | cons line gap ih =>
      rw [List.cons_append, hasGap_cons_blank (hg line List.mem_cons_self),
        ih fun l hl => hg l (List.mem_cons_of_mem _ hl)]

/-- Gaps are the same from the last line to the first. -/
theorem hasGap_reverse {lines : List Text} : HasGap lines.reverse ↔ HasGap lines := by
  have hback {lines : List Text} (h : HasGap lines) : HasGap lines.reverse := by
    obtain ⟨start, above, gap, below, rest, rfl, ha, hb, hg, hn⟩ := h
    refine ⟨rest.reverse, below, gap.reverse, above, start.reverse, by simp, hb, ha, ?_, by simpa⟩
    exact fun line hl => hg line (List.mem_reverse.1 hl)
  exact ⟨fun h => lines.reverse_reverse ▸ hback h, hback⟩

theorem hasGap_trimLines (lines : List Text) : HasGap (Text.trimLines lines) ↔ HasGap lines := by
  obtain ⟨before, after, hb, ha, e⟩ := Text.exists_eq_trimLines lines
  have hblank {gap : List Text} (h : ∀ line ∈ gap, line = []) :
      ∀ line ∈ gap, line.isAllBlank = true := fun line hl => by rw [h line hl]; rfl
  conv_rhs => rw [e, List.append_assoc, hasGap_append_blank (hblank hb), ← hasGap_reverse,
    List.reverse_append, hasGap_append_blank fun line hl => hblank ha line (List.mem_reverse.1 hl),
    hasGap_reverse]

theorem hasGap_map_stripEnd (lines : List Text) :
    HasGap (lines.map Text.stripEnd) ↔ HasGap lines := by
  have hall {gap : List Text} : (∀ line ∈ gap.map Text.stripEnd, line.isAllBlank = true) ↔
      ∀ line ∈ gap, line.isAllBlank = true := by
    simp [Text.isAllBlank_stripEnd]
  constructor
  · rintro ⟨start, above, gap, below, rest, e, ha, hb, hg, hn⟩
    obtain ⟨start, more, rfl, rfl, emore⟩ := List.map_eq_append_iff.1 e
    obtain ⟨above, more, rfl, rfl, egap⟩ := List.map_eq_cons_iff.1 emore
    obtain ⟨gap, more, rfl, rfl, ebelow⟩ := List.map_eq_append_iff.1 egap
    obtain ⟨below, rest, rfl, rfl, -⟩ := List.map_eq_cons_iff.1 ebelow
    rw [Text.isAllBlank_stripEnd] at ha hb
    exact ⟨start, above, gap, below, rest, rfl, ha, hb, hall.1 hg, by simpa using hn⟩
  · rintro ⟨start, above, gap, below, rest, rfl, ha, hb, hg, hn⟩
    rw [← Text.isAllBlank_stripEnd] at ha hb
    exact ⟨start.map Text.stripEnd, _, gap.map Text.stripEnd, _, rest.map Text.stripEnd, by simp, ha,
      hb, hall.2 hg, by simpa using hn⟩

theorem hasGap_cleanedLines (x : Text) : HasGap (cleanedLines x) ↔ KeepsGap x := by
  rw [cleanedLines, hasGap_trimLines, hasGap_map_stripEnd, KeepsGap]

/-! ### Shortened runs -/

/-- Where blank lines hold spaces and tabs only, shortening leaves no gap. -/
theorem not_hasGap_collapseAfter {run lines : List Text}
    (hr : ∀ line ∈ run, line.isAllBlank = true)
    (hl : ∀ line ∈ lines, line.isAllBlank = true → isSpaceLine line = true) :
    ¬ BeginsWithGap (collapseAfter run lines) ∧ ¬ HasGap (collapseAfter run lines) := by
  fun_induction collapseAfter run lines with
  | case1 run =>
      have hb : ∀ line ∈ run.reverse, line.isAllBlank = true := fun line hm =>
        hr line (List.mem_reverse.1 hm)
      refine ⟨not_beginsWithGap_blank hb, ?_⟩
      rw [← List.append_nil run.reverse, hasGap_append_blank hb]
      exact not_hasGap_nil
  | case2 run last =>
      obtain ⟨hb, hn⟩ := shortenRun_blank hr
      rw [hasGap_append_blank hb]
      by_cases hlast : last.isAllBlank = true
      · rw [hasGap_cons_blank hlast]
        refine ⟨not_beginsWithGap_blank fun line hm => ?_, not_hasGap_nil⟩
        rcases List.mem_append.1 hm with hm | hm
        · exact hb line hm
        · rw [List.mem_singleton.1 hm, hlast]
      · have hlast : last.isAllBlank = false := by simpa using hlast
        rw [hasGap_cons_visible hlast, beginsWithGap_append_cons hb hlast]
        refine ⟨by omega, ?_⟩
        rintro (h | h)
        · exact not_beginsWithGap_blank (by simp) h
        · exact not_hasGap_nil h
  | case3 run line more hne hs ih =>
      exact ih (List.forall_mem_cons.2 ⟨isAllBlank_of_isSpaceLine hs, hr⟩)
        fun l hm => hl l (List.mem_cons_of_mem _ hm)
  | case4 run line more hne hs ih =>
      obtain ⟨hb, hn⟩ := shortenRun_blank hr
      have hline : line.isAllBlank = false := by
        by_contra hblank
        exact hs (hl line List.mem_cons_self (by simpa using hblank))
      obtain ⟨hbegin, hgap⟩ := ih (by simp) fun l hm => hl l (List.mem_cons_of_mem _ hm)
      rw [hasGap_append_blank hb, hasGap_cons_visible hline, beginsWithGap_append_cons hb hline]
      exact ⟨by omega, fun h => h.elim hbegin hgap⟩

theorem not_hasGap_collapseRuns {lines : List Text}
    (hl : ∀ line ∈ lines, line.isAllBlank = true → isSpaceLine line = true) :
    ¬ HasGap (collapseRuns lines) := by
  cases lines with
  | nil => exact not_hasGap_nil
  | cons first more =>
      have hnone : ∀ line ∈ ([] : List Text), line.isAllBlank = true := by simp
      obtain ⟨hbegin, hgap⟩ := not_hasGap_collapseAfter hnone
        fun l hm => hl l (List.mem_cons_of_mem first hm)
      rw [collapseRuns]
      by_cases hfirst : first.isAllBlank = true
      · rwa [hasGap_cons_blank hfirst]
      · rw [hasGap_cons_visible (by simpa using hfirst)]
        exact fun h => h.elim hbegin hgap

theorem shortenRun_of_length {run : List Text} (h : ¬ 4 ≤ run.length) :
    shortenRun run = run.reverse := by
  rw [shortenRun, if_neg h]

/-- Lines without a gap are not shortened, if the last of them shows. -/
theorem collapseAfter_of_not_hasGap {run lines : List Text}
    (hr : ∀ line ∈ run, line.isAllBlank = true)
    (hl : ∀ line ∈ lines, line.isAllBlank = true → isSpaceLine line = true)
    (hlast : ∀ line ∈ lines.getLast?, line.isAllBlank = false)
    (hbegin : ¬ BeginsWithGap (run.reverse ++ lines)) (hgap : ¬ HasGap lines) :
    collapseAfter run lines = run.reverse ++ lines := by
  have hback {run : List Text} (hr : ∀ line ∈ run, line.isAllBlank = true) :
      ∀ line ∈ run.reverse, line.isAllBlank = true := fun line hm => hr line (List.mem_reverse.1 hm)
  fun_induction collapseAfter run lines with
  | case1 run => rw [List.append_nil]
  | case2 run last =>
      rw [beginsWithGap_append_cons (hback hr) (hlast last rfl), List.length_reverse] at hbegin
      rw [shortenRun_of_length hbegin]
  | case3 run line more hne hs ih =>
      have hblank := isAllBlank_of_isSpaceLine hs
      have e : (line :: run).reverse ++ more = run.reverse ++ line :: more := by simp
      rw [ih (List.forall_mem_cons.2 ⟨hblank, hr⟩) (fun l hm => hl l (List.mem_cons_of_mem _ hm)) ?_
        (e ▸ hbegin) ((hasGap_cons_blank hblank).not.1 hgap), e]
      exact fun l hm => hlast l (by rwa [List.getLast?_cons_of_ne_nil hne])
  | case4 run line more hne hs ih =>
      have hline : line.isAllBlank = false := by
        by_contra hblank
        exact hs (hl line List.mem_cons_self (by simpa using hblank))
      rw [beginsWithGap_append_cons (hback hr) hline, List.length_reverse] at hbegin
      rw [hasGap_cons_visible hline, not_or] at hgap
      rw [shortenRun_of_length hbegin,
        ih (by simp) (fun l hm => hl l (List.mem_cons_of_mem _ hm)) ?_ hgap.1 hgap.2]
      · rfl
      · exact fun l hm => hlast l (by rwa [List.getLast?_cons_of_ne_nil hne])

theorem collapseRuns_of_not_hasGap {lines : List Text}
    (hl : ∀ line ∈ lines, line.isAllBlank = true → isSpaceLine line = true)
    (hfirst : ∀ line ∈ lines.head?, line.isAllBlank = false)
    (hlast : ∀ line ∈ lines.getLast?, line.isAllBlank = false) (hgap : ¬ HasGap lines) :
    collapseRuns lines = lines := by
  cases lines with
  | nil => rfl
  | cons first more =>
      rw [hasGap_cons_visible (hfirst first rfl), not_or] at hgap
      have hmore : collapseAfter [] more = more := by
        refine collapseAfter_of_not_hasGap (by simp) (fun l hm => hl l (List.mem_cons_of_mem _ hm)) ?_
          hgap.1 hgap.2
        intro l hm
        refine hlast l ?_
        rwa [List.getLast?_cons_of_ne_nil (by rintro rfl; cases hm)]
      rw [collapseRuns, hmore]

/-! ### Cleaning again -/

theorem isSpaceLine_of_mem_cleanedLines {x line : Text} (h : line ∈ cleanedLines x)
    (hb : line.isAllBlank = true) : isSpaceLine line = true := by
  rw [← (mem_cleanedLines h).2, Text.stripEnd_eq_nil_iff.2 hb]
  rfl

theorem isAllBlank_of_mem_cleanedLines {x line : Text} (h : line ∈ cleanedLines x)
    (hne : line ≠ []) : line.isAllBlank = false := by
  by_contra hb
  rw [← (mem_cleanedLines h).2, Ne, Text.stripEnd_eq_nil_iff] at hne
  exact hne (by simpa using hb)

/-- Lines that were cleaned and have no gap are left alone. -/
theorem cleanText_of_not_hasGap {x : Text} (h : ¬ HasGap (cleanedLines x)) :
    cleanText (cleanText x) = cleanText x := by
  by_cases hne : cleanedLines x = []
  · rw [cleanText_eq x, hne]
    rfl
  · have hends : Text.EndsFilled (cleanedLines x) := Text.endsFilled_trimLines _
    have hcollapse : collapseRuns (cleanedLines x) = cleanedLines x :=
      collapseRuns_of_not_hasGap (fun line hl => isSpaceLine_of_mem_cleanedLines hl)
        (fun line hl => isAllBlank_of_mem_cleanedLines (List.mem_of_mem_head? hl) (hends.1 line hl))
        (fun line hl => isAllBlank_of_mem_cleanedLines (List.mem_of_mem_getLast? hl) (hends.2 line hl))
        h
    have hstrip : (cleanedLines x).map Text.stripEnd = cleanedLines x :=
      (List.map_congr_left fun line hl => (mem_cleanedLines hl).2).trans (List.map_id _)
    have hagain : cleanedLines (cleanText x) = cleanedLines x := by
      rw [cleanedLines, lines_cleanText hne, hcollapse, hstrip]
      exact hends.trimLines
    rw [cleanText_eq, hagain, ← cleanText_eq]

/-- Cleaned text keeps no gap: its blank lines are empty. -/
theorem not_keepsGap_cleanText (x : Text) : ¬ KeepsGap (cleanText x) := by
  refine not_hasGap_collapseRuns fun line hl hb => ?_
  by_cases hne : cleanedLines x = []
  · rw [cleanText_eq, hne] at hl
    rw [List.mem_singleton.1 hl]
    rfl
  · rw [lines_cleanText hne] at hl
    exact isSpaceLine_of_mem_cleanedLines hl hb

/-- The gaps of cleaned text are those that were kept. -/
theorem hasGap_lines_cleanText (x : Text) : HasGap (Text.lines (cleanText x)) ↔ KeepsGap x := by
  rw [← hasGap_cleanedLines]
  by_cases hne : cleanedLines x = []
  · have hlines : Text.lines (cleanText x) = [[]] := by
      rw [cleanText_eq, hne]
      rfl
    rw [hlines, hne, hasGap_cons_blank (by rfl)]
  · rw [lines_cleanText hne]

/-- Cleaning twice is cleaning once if and only if no gap is kept. -/
theorem cleanText_cleanText_iff {x : Text} :
    cleanText (cleanText x) = cleanText x ↔ ¬ KeepsGap x := by
  constructor
  · intro h hgap
    rw [← hasGap_lines_cleanText, ← h, hasGap_lines_cleanText] at hgap
    exact not_keepsGap_cleanText x hgap
  · exact fun h => cleanText_of_not_hasGap ((hasGap_cleanedLines x).not.2 h)

end ApiReference
