import ApiReference.Proofs.Lines

/-! # What a line is

Reading asks of a line whether it is a fence, a rule, blank, or a block by itself.  Everything is
asked of the trimmed line, so dropping the blanks at its end changes no answer (`isFence_stripEnd`,
`isRule_stripEnd`, `lineBlock?_stripEnd`).  A line that is a block is nothing else, and the block is
read again from the line it is written as (`lineBlock?_render`). -/

namespace ApiReference

/-! ### Trimmed lines -/

theorem lineBlock?_stripEnd (line : Text) : lineBlock? line.stripEnd = lineBlock? line := by
  rw [lineBlock?, lineBlock?, Text.strip_stripEnd]

theorem isFence_stripEnd (line : Text) : isFence line.stripEnd = isFence line := by
  rw [isFence, isFence, Text.strip_stripEnd]

theorem isRule_stripEnd (line : Text) : isRule line.stripEnd = isRule line := by
  rw [isRule, isRule, Text.strip_stripEnd]

theorem lineBlock?_strip (line : Text) : lineBlock? line.strip = lineBlock? line := by
  rw [lineBlock?, lineBlock?, Text.strip_strip]

theorem lineBlock?_of_isAllBlank {line : Text} (h : line.isAllBlank = true) :
    lineBlock? line = none := by
  rw [Text.isAllBlank_eq_strip, List.isEmpty_iff] at h
  rw [lineBlock?, h]
  rfl

theorem isFence_of_isAllBlank {line : Text} (h : line.isAllBlank = true) : isFence line = false := by
  rw [Text.isAllBlank_eq_strip, List.isEmpty_iff] at h
  rw [isFence, h]
  rfl

theorem isAllBlank_of_isFence {line : Text} (h : isFence line = true) : line.isAllBlank = false := by
  by_contra hne
  rw [isFence_of_isAllBlank (by simpa using hne)] at h
  cases h

/-! ### Lines that are blocks -/

/-- A heading line as it is written. -/
def headingText (count : Nat) (title : Text) : Text := List.replicate count '#' ++ ' ' :: title

theorem render_heading (count : Nat) (title : Text) :
    (Block.heading count title).render = headingText count title.strip := rfl

theorem headingLine?_headingText {count : Nat} (title : Text) (h1 : 1 ≤ count) (h6 : count ≤ 6) :
    headingLine? (headingText count title) = some (Block.heading count title) := by
  have htake : (headingText count title).takeWhile (· == '#') = List.replicate count '#' := by
    rw [headingText, List.takeWhile_append_of_pos (by simp)]
    simp
  have hdrop : (headingText count title).dropWhile (· == '#') = ' ' :: title := by
    rw [headingText, List.dropWhile_append_of_pos (by simp)]
    simp
  have hblank : isBlank ' ' = true := by decide
  simp [headingLine?, htake, hdrop, h1, h6, hblank]

theorem strip_headingText {count : Nat} {title : Text} (h1 : 1 ≤ count)
    (ht : title.stripEnd = title) (hne : title ≠ []) :
    (headingText count title).strip = headingText count title := by
  obtain ⟨start, c, hc, rfl⟩ := Text.exists_eq_concat_of_stripEnd ht hne
  obtain ⟨n, rfl⟩ : ∃ n, count = n + 1 := ⟨count - 1, by omega⟩
  have hhash : isBlank '#' = false := by decide
  rw [Text.strip_eq, headingText, List.replicate_succ, List.cons_append,
    Text.stripStart_cons _ hhash]
  have e : '#' :: (List.replicate n '#' ++ ' ' :: (start ++ [c])) =
      ('#' :: (List.replicate n '#' ++ ' ' :: start)) ++ [c] := by simp
  rw [e, Text.stripEnd_concat hc]

/-- A heading is its number signs, a blank and its title. -/
theorem split_of_headingLine? {stripped : Text} {block : Block}
    (h : headingLine? stripped = some block) :
    ∃ (count : Nat) (c : Char) (title : Text), 1 ≤ count ∧ count ≤ 6 ∧ isBlank c = true ∧
      stripped = List.replicate count '#' ++ c :: title ∧ block = Block.heading count title := by
  unfold headingLine? at h
  dsimp only at h
  split at h
  · next c title e =>
    split at h
    · next hcond =>
      simp only [Bool.and_eq_true, decide_eq_true_eq] at hcond
      have hmarks : stripped.takeWhile (· == '#') =
          List.replicate (stripped.takeWhile (· == '#')).length '#' :=
        List.eq_replicate_of_mem fun c hc => by simpa using List.mem_takeWhile_imp hc
      refine ⟨_, c, title, hcond.1.1, hcond.1.2, hcond.2, ?_, (Option.some.inj h).symm⟩
      rw [← hmarks, ← e, List.takeWhile_append_dropWhile]
    · cases h
  · cases h

/-- What makes a line a heading. -/
theorem headingLine?_eq_some {line : Text} {block : Block}
    (h : headingLine? line.strip = some block) :
    ∃ (count : Nat) (title : Text), 1 ≤ count ∧ count ≤ 6 ∧ title ⊆ line ∧
      title.isAllBlank = false ∧ block = Block.heading count title := by
  obtain ⟨count, c, title, h1, h6, hc, hsplit, rfl⟩ := split_of_headingLine? h
  refine ⟨count, title, h1, h6, ?_, ?_, rfl⟩
  · intro d hd
    apply Text.strip_subset line
    rw [hsplit]
    exact List.mem_append_right _ (List.mem_cons_of_mem _ hd)
  · have hend : Text.isAllBlank (c :: title) = false :=
      Text.isAllBlank_of_append (hsplit ▸ Text.stripEnd_strip line) (List.cons_ne_nil _ _)
    simpa [Text.isAllBlank, hc] using hend

theorem append_of_componentName? {x name after : Text} (h : componentName? x = some (name, after)) :
    x = name ++ after := by
  unfold componentName? at h
  split at h
  · split at h
    · obtain ⟨rfl, rfl⟩ := Prod.mk.inj (Option.some.inj h)
      rw [List.cons_append, List.takeWhile_append_dropWhile]
    · cases h
  · cases h

theorem isOneLine_of_isWordChar {x : Text} (h : ∀ c ∈ x, isWordChar c = true) : x.IsOneLine :=
  ⟨fun hm => absurd (h _ hm) (by decide), fun hm => absurd (h _ hm) (by decide)⟩

theorem closingLine?_eq_some {x : Text} {block : Block} (h : closingLine? x = some block) :
    block.kind = .closing ∧ block.text = x := by
  unfold closingLine? at h
  split at h
  · split at h
    · next name hname =>
      rw [← Option.some.inj h, append_of_componentName? hname]
      exact ⟨rfl, rfl⟩
    · cases h
  · cases h

theorem openingLine?_eq_some {x : Text} {block : Block} (h : openingLine? x = some block) :
    block.kind = .opening ∧ block.text = x := by
  unfold openingLine? at h
  split at h
  · split at h
    · cases h
    · obtain ⟨selfClosing, _, rfl⟩ := Option.map_eq_some_iff.1 h
      exact ⟨rfl, rfl⟩
  · cases h

theorem lineBlock?_eq_or (line : Text) :
    lineBlock? line =
      (headingLine? line.strip).or ((closingLine? line.strip).or (openingLine? line.strip)) := by
  simp [lineBlock?]

/-- The block of a line is a heading, or a tag that is written as the trimmed line. -/
theorem lineBlock?_eq_some {line : Text} {block : Block} (h : lineBlock? line = some block) :
    (∃ (count : Nat) (title : Text), 1 ≤ count ∧ count ≤ 6 ∧ title ⊆ line ∧
      title.isAllBlank = false ∧ block = Block.heading count title) ∨
    block.isContainer = true ∧ block.render = line.strip := by
  rw [lineBlock?_eq_or] at h
  rcases Option.or_eq_some_iff.1 h with h | ⟨_, h⟩
  · exact .inl (headingLine?_eq_some h)
  · rcases Option.or_eq_some_iff.1 h with h | ⟨_, h⟩
    · obtain ⟨hk, ht⟩ := closingLine?_eq_some h
      exact .inr ⟨by simp [Block.isContainer, hk], by simp [Block.render, hk, ht]⟩
    · obtain ⟨hk, ht⟩ := openingLine?_eq_some h
      exact .inr ⟨by simp [Block.isContainer, hk], by simp [Block.render, hk, ht]⟩

theorem isAllBlank_of_lineBlock? {line : Text} {block : Block} (h : lineBlock? line = some block) :
    line.isAllBlank = false := by
  by_contra hne
  rw [lineBlock?_of_isAllBlank (by simpa using hne)] at h
  cases h

/-- A fence is no block. -/
theorem lineBlock?_of_isFence {line : Text} (h : isFence line = true) : lineBlock? line = none := by
  obtain ⟨rest, hr⟩ := List.isPrefixOf_iff_prefix.1 h
  have hs : line.strip = '\x60' :: '\x60' :: '\x60' :: rest := hr.symm
  rw [lineBlock?_eq_or, hs]
  rfl

theorem lineBlock?_of_isRule {line : Text} (h : isRule line = true) : lineBlock? line = none := by
  have hs : line.strip = ['-', '-', '-'] := by simpa [isRule] using h
  rw [lineBlock?_eq_or, hs]
  rfl

theorem isAllBlank_of_isRule {line : Text} (h : isRule line = true) : line.isAllBlank = false := by
  have hs : line.strip = ['-', '-', '-'] := by simpa [isRule] using h
  rw [Text.isAllBlank_eq_strip, hs]
  rfl

theorem isFence_of_lineBlock? {line : Text} {block : Block} (h : lineBlock? line = some block) :
    isFence line = false := by
  by_contra hne
  rw [lineBlock?_of_isFence (by simpa using hne)] at h
  cases h

theorem isRule_of_lineBlock? {line : Text} {block : Block} (h : lineBlock? line = some block) :
    isRule line = false := by
  by_contra hne
  rw [lineBlock?_of_isRule (by simpa using hne)] at h
  cases h

/-- A line that begins like a word is no fence, no rule and no mark. -/
theorem plain_of_strip_eq {line rest : Text} {c : Char} (h : line.strip = c :: rest)
    (hc : c ∉ ['\x60', '-', '#', '<']) :
    isFence line = false ∧ isRule line = false ∧ lineBlock? line = none := by
  simp only [List.mem_cons, List.not_mem_nil, or_false, not_or] at hc
  obtain ⟨h1, h2, h3, h4⟩ := hc
  refine ⟨?_, ?_, ?_⟩
  · simp [isFence, h, Text.startsWith, List.isPrefixOf, Ne.symm h1]
  · simp [isRule, h, h2]
  · simp [lineBlock?, h, headingLine?, closingLine?, openingLine?, h3, h4]

/-! ### Writing the block of a line -/

theorem strip_ne_nil {x : Text} (h : x.isAllBlank = false) : x.strip ≠ [] := by
  intro e
  rw [Text.isAllBlank_eq_strip, e] at h
  cases h

/-- A heading is read again from the line it is written as. -/
theorem lineBlock?_render_heading {count : Nat} {title : Text} (h1 : 1 ≤ count) (h6 : count ≤ 6)
    (hb : title.isAllBlank = false) :
    lineBlock? (Block.heading count title).render = some (Block.heading count title) := by
  rw [lineBlock?_eq_or, render_heading,
    strip_headingText h1 (Text.stripEnd_strip title) (strip_ne_nil hb),
    headingLine?_headingText title.strip h1 h6, Block.heading, Block.heading, Text.strip_strip]
  rfl

/-- The block of a line is read again from the line it is written as. -/
theorem lineBlock?_render {line : Text} {block : Block} (h : lineBlock? line = some block) :
    lineBlock? block.render = some block := by
  obtain ⟨count, title, h1, h6, _, hb, rfl⟩ | ⟨_, hr⟩ := lineBlock?_eq_some h
  · exact lineBlock?_render_heading h1 h6 hb
  · rw [hr, lineBlock?_strip, h]

theorem stripEnd_render {line : Text} {block : Block} (h : lineBlock? line = some block) :
    block.render.stripEnd = block.render := by
  obtain ⟨count, title, h1, _, _, hb, rfl⟩ | ⟨_, hr⟩ := lineBlock?_eq_some h
  · have hs := strip_headingText h1 (Text.stripEnd_strip title) (strip_ne_nil hb)
    rw [render_heading, ← hs, Text.stripEnd_strip]
  · rw [hr, Text.stripEnd_strip]

theorem isOneLine_render {line : Text} {block : Block} (h : lineBlock? line = some block)
    (hn : line.IsOneLine) : block.render.IsOneLine := by
  obtain ⟨count, title, _, _, hsub, _, rfl⟩ | ⟨_, hr⟩ := lineBlock?_eq_some h
  · have ht : title.strip.IsOneLine := (hn.mono hsub).mono (Text.strip_subset title)
    rw [render_heading, headingText]
    refine ⟨?_, ?_⟩
    · simpa [List.mem_replicate] using ht.1
    · simpa [List.mem_replicate] using ht.2
  · rw [hr]
    exact hn.mono (Text.strip_subset line)

/-- The block of a line is a heading or a tag. -/
theorem kind_of_lineBlock? {line : Text} {block : Block} (h : lineBlock? line = some block) :
    block.kind = .heading ∨ block.isContainer = true := by
  obtain ⟨_, _, _, _, _, _, rfl⟩ | ⟨hc, _⟩ := lineBlock?_eq_some h
  · exact .inl rfl
  · exact .inr hc

/-- A heading line has a trimmed title. -/
theorem strip_of_lineBlock? {line : Text} {block : Block} (h : lineBlock? line = some block)
    (hk : block.kind = .heading) : block.text.strip = block.text := by
  obtain ⟨_, title, _, _, _, _, rfl⟩ | ⟨hc, _⟩ := lineBlock?_eq_some h
  · exact Text.strip_strip title
  · rw [Block.isContainer, hk] at hc
    cases hc

/-! ### Blocks of lines -/

theorem kind_of_mem_paragraphOf {held : List Text} {block : Block} (h : block ∈ paragraphOf held) :
    block.kind = .text := by
  unfold paragraphOf at h
  split at h
  · cases h
  · rw [List.mem_singleton.1 h]
    rfl

/-- Lines make running text, code, and blocks of single lines. -/
theorem mem_blocksOfLines {held : Pending} {lines : List Text} {block : Block}
    (h : block ∈ blocksOfLines held lines) :
    block.kind = .text ∨ block.kind = .code ∨ ∃ line, lineBlock? line = some block := by
  fun_induction blocksOfLines held lines with
  | case1 held => exact .inl (kind_of_mem_paragraphOf h)
  | case2 held =>
      rw [List.mem_singleton.1 h]
      exact .inr (.inl rfl)
  | case3 held line more hf ih =>
      rcases List.mem_cons.1 h with rfl | h
      · exact .inr (.inl rfl)
      · exact ih h
  | case4 held line more hf ih => exact ih h
  | case5 held line more hf ih =>
      rcases List.mem_append.1 h with h | h
      · exact .inl (kind_of_mem_paragraphOf h)
      · exact ih h
  | case6 held line more hf hb ih =>
      rcases List.mem_append.1 h with h | h
      · exact .inl (kind_of_mem_paragraphOf h)
      · exact ih h
  | case7 held line more hf hb mark hm ih =>
      rcases List.mem_append.1 h with h | h
      · exact .inl (kind_of_mem_paragraphOf h)
      · rcases List.mem_cons.1 h with rfl | h
        · exact .inr (.inr ⟨line, hm⟩)
        · exact ih h
  | case8 held line more hf hb hp ih => exact ih h

end ApiReference
