import ApiReference.Proofs.LineBlock
import ApiReference.Proofs.LinkedSpans
import ApiReference.Proofs.Words

/-! # Text with nothing to link

Linking leaves a line as it is if and only if no name qualifies for any of its spans
(`linkLine_eq_self_iff`), and a text if and only if that holds of its lines outside fences
(`linkText_eq_self_iff`).

Where linking does change something, a backtick gives way to a character that shows (`PartsAtMark`).
So a changed text has other words than the one before (`PartsAtMark.words_ne`), and no line becomes a
fence (`isFence_linkLine`). -/

namespace ApiReference

/-! ### Fences -/

/-- The start of a fence. -/
def fenceMarks : Text := ['\x60', '\x60', '\x60']

/-- Marks stand before everything that begins with no backtick. -/
theorem fenceMarks_prefix_append {x y : Text} (h : fenceMarks <+: x ++ y)
    (hy : ∀ c ∈ y.head?, c ≠ '\x60') : fenceMarks <+: x := by
  cases y with
  | nil => rwa [List.append_nil] at h
  | cons c y => exact isPrefix_of_append_cons h (by simpa [fenceMarks] using hy c rfl)

/-- A line is a fence by what it begins with. -/
theorem isFence_iff {line : Text} : isFence line = true ↔ fenceMarks <+: line.stripStart := by
  rw [isFence, Text.startsWith, List.isPrefixOf_iff_prefix]
  exact Text.isPrefix_strip_iff (by decide)

/-! ### Texts that part at a backtick -/

/-- The texts are the same up to a backtick in the first one; in the second one, characters come in
its place that hold no backtick and show. -/
def PartsAtMark (x y : Text) : Prop :=
  ∃ start rest gap c rest', x = start ++ '\x60' :: rest ∧ y = start ++ (gap ++ c :: rest') ∧
    '\x60' ∉ gap ∧ c ≠ '\x60' ∧ isBlank c = false

namespace PartsAtMark

variable {x y : Text}

theorem append_left (start : Text) (h : PartsAtMark x y) :
    PartsAtMark (start ++ x) (start ++ y) := by
  obtain ⟨front, rest, gap, c, rest', rfl, rfl, h⟩ := h
  exact ⟨start ++ front, rest, gap, c, rest', by simp, by simp, h⟩

theorem append_right (h : PartsAtMark x y) (more more' : Text) :
    PartsAtMark (x ++ more) (y ++ more') := by
  obtain ⟨start, rest, gap, c, rest', rfl, rfl, h⟩ := h
  exact ⟨start, rest ++ more, gap, c, rest' ++ more', by simp, by simp, h⟩

/-- The texts have different words, so trimming does not make them equal. -/
theorem words_ne (h : PartsAtMark x y) : x.words ≠ y.words := by
  obtain ⟨start, rest, gap, c, rest', rfl, rfl, hgap, hc, hb⟩ := h
  intro hwords
  have hshown := congrArg List.flatten hwords
  have hmark : isBlank '\x60' = false := by decide
  rw [Text.flatten_words, Text.flatten_words, List.filter_append, List.filter_append,
    List.append_cancel_left_eq, List.filter_append, List.filter_cons_of_pos (by simp [hmark]),
    List.filter_cons_of_pos (by simp [hb])] at hshown
  -- the backtick would have to be the first character that comes in its place
  cases e : gap.filter fun c => !isBlank c with
  | nil =>
      rw [e] at hshown
      exact hc (List.cons.inj hshown).1.symm
  | cons d more =>
      rw [e] at hshown
      have hd : d ∈ gap := (List.mem_filter.1 (e ▸ List.mem_cons_self)).1
      exact hgap ((List.cons.inj hshown).1 ▸ hd)

theorem ne (h : PartsAtMark x y) : x ≠ y := fun e => h.words_ne (congrArg Text.words e)

/-- Both texts show. -/
theorem isAllBlank_eq_false (h : PartsAtMark x y) :
    x.isAllBlank = false ∧ y.isAllBlank = false := by
  obtain ⟨start, rest, gap, c, rest', rfl, rfl, -, -, hc⟩ := h
  have hmark : isBlank '\x60' = false := by decide
  simp [Text.isAllBlank, hc, hmark]

/-- If the second text is a fence, so is the first. -/
theorem isFence (h : PartsAtMark x y) (hy : isFence y = true) : isFence x = true := by
  obtain ⟨start, rest, gap, c, rest', rfl, rfl, hgap, hc, hb⟩ := h
  have hnew : ∀ d ∈ (gap ++ c :: rest').head?, d ≠ '\x60' := by
    cases gap with
    | nil => simpa using hc
    | cons d gap => simpa using fun e : d = '\x60' => hgap (e ▸ List.mem_cons_self)
  rw [isFence_iff, Text.stripStart, List.dropWhile_append] at hy ⊢
  split at hy
  · -- only blanks come before the place, and no backtick after them
    exfalso
    rw [List.dropWhile_append, List.dropWhile_cons_of_neg (by simp [hb])] at hy
    split at hy
    · exact hc (List.cons_prefix_cons.1 hy).1.symm
    · next hgap' =>
      cases e : gap.dropWhile isBlank with
      | nil => simp [e] at hgap'
      | cons d more =>
          rw [e, List.cons_append] at hy
          have hd : d ∈ gap := (List.dropWhile_suffix isBlank).subset (e ▸ List.mem_cons_self)
          exact hgap ((List.cons_prefix_cons.1 hy).1 ▸ hd)
  · next hne =>
    rw [if_neg hne]
    exact (fenceMarks_prefix_append hy hnew).trans (List.prefix_append _ _)

end PartsAtMark

/-! ### Lines -/

namespace SpanLine

/-- The spans, each with the text after it. -/
def placed (tail : Text) : List Span → List (Span × Text)
  | [] => []
  | span :: more => (span, textAfter tail more) :: placed tail more

theorem mem_of_mem_placed {tail : Text} {spans : List Span} {place : Span × Text}
    (h : place ∈ placed tail spans) : place.1 ∈ spans := by
  induction spans with
  | nil => cases h
  | cons span more ih =>
      rcases List.mem_cons.1 h with rfl | h
      · exact List.mem_cons_self
      · exact List.mem_cons_of_mem _ (ih h)

/-- The spans of a line, each with the text after it. -/
def placedOf (line : Text) : List (Span × Text) := placed (ofText line).tail (ofText line).spans

end SpanLine

/-- No name that leads somewhere qualifies for any of the spans. -/
def NoneQualifies (href? : Text → Option Text) (spans : List (Span × Text)) : Prop :=
  ∀ place ∈ spans, ∀ name, (href? name).isSome = true → ¬ Qualifies place.1 place.2 name

section lines

variable {href? : Text → Option Text} {span : Span} {after name href image tail out : Text}
  {spans : List Span}

theorem noneQualifies_cons {more : List (Span × Text)} :
    NoneQualifies href? ((span, after) :: more) ↔
      (∀ name, (href? name).isSome = true → ¬ Qualifies span after name) ∧
        NoneQualifies href? more :=
  List.forall_mem_cons

/-- A link form shows a character in the place of the first backtick. -/
theorem LinkForm.partsAtMark (h : LinkForm span after name href image) (hi : '\x60' ∉ span.inner) :
    PartsAtMark (SpanLine.literal span.inner) image := by
  cases h with
  | parameter => exact ⟨[], _, [], '[', _, rfl, rfl, by simp, by decide, by decide⟩
  | free => exact ⟨[], _, [], '[', _, rfl, rfl, by simp, by decide, by decide⟩
  | @generic start rest _ hx _ =>
      have hstart : '\x60' ∉ start := by
        rw [hx] at hi
        exact fun hm => hi (by simp [hm])
      have hless : Markup.escapeInline (start ++ ['<']) = Markup.escapeInline start ++ "&lt;" := by
        simp [Markup.escapeInline, Markup.escapeInlineChar]
      rw [hless]
      exact ⟨[], _, Markup.escapeInline start, '&', _, rfl, by simp; rfl,
        not_mem_escapeInline (by decide) hstart, by decide, by decide⟩

theorem linkedSpans_of_noneQualifies (h : NoneQualifies href? (SpanLine.placed tail spans)) :
    LinkedSpans href? tail spans
      (SpanLine.render (fun span _ => SpanLine.literal span.inner) tail spans) := by
  induction spans with
  | nil => exact .nil
  | cons span more ih =>
      obtain ⟨hspan, hmore⟩ := noneQualifies_cons.1 h
      rw [SpanLine.render_cons]
      exact .cons (.literal hspan) (ih hmore)

/-- Unless no name qualifies, the line shows something else. -/
theorem LinkedSpans.partsAtMark (h : LinkedSpans href? tail spans out)
    (hi : ∀ span ∈ spans, '\x60' ∉ span.inner)
    (hq : ¬ NoneQualifies href? (SpanLine.placed tail spans)) :
    PartsAtMark (SpanLine.render (fun span _ => SpanLine.literal span.inner) tail spans) out := by
  induction h with
  | nil => exact absurd (fun place hp => by cases hp) hq
  | @cons span more image out himage _ ih =>
      rw [SpanLine.render_cons, List.append_assoc, List.append_assoc]
      refine PartsAtMark.append_left _ ?_
      cases himage with
      | linked _ _ hform => exact (hform.partsAtMark (hi span List.mem_cons_self)).append_right _ _
      | literal hno =>
          refine (ih (fun s hs => hi s (List.mem_cons_of_mem _ hs)) fun hmore => ?_).append_left _
          exact hq (noneQualifies_cons.2 ⟨hno, hmore⟩)

variable {refs : ReferenceMap} {line : Text}

theorem linkedSpans_linkLine (refs : ReferenceMap) (line : Text) :
    LinkedSpans refs.href? (SpanLine.ofText line).tail (SpanLine.ofText line).spans
      (linkLine refs.linkTable line) :=
  linkedSpans_iff.2 rfl

theorem partsAtMark_linkLine (h : ¬ NoneQualifies refs.href? (SpanLine.placedOf line)) :
    PartsAtMark line (linkLine refs.linkTable line) := by
  obtain ⟨hwritten, hspans, _⟩ := SpanLine.reads_ofText line
  have hparts := (linkedSpans_linkLine refs line).partsAtMark (fun s hs => (hspans s hs).2) h
  rwa [hwritten] at hparts

theorem linkLine_of_noneQualifies (h : NoneQualifies refs.href? (SpanLine.placedOf line)) :
    linkLine refs.linkTable line = line := by
  have hspans := linkedSpans_iff.1 (linkedSpans_of_noneQualifies h)
  rw [(SpanLine.reads_ofText line).written] at hspans
  exact hspans.symm

/-- A line stays as it is if and only if no name qualifies for any of its spans. -/
theorem linkLine_eq_self_iff :
    linkLine refs.linkTable line = line ↔ NoneQualifies refs.href? (SpanLine.placedOf line) := by
  refine ⟨fun h => ?_, linkLine_of_noneQualifies⟩
  by_contra hq
  exact (partsAtMark_linkLine hq).ne h.symm

/-- No line becomes a fence. -/
theorem isFence_linkLine (h : isFence line = false) :
    isFence (linkLine refs.linkTable line) = false := by
  by_cases hq : NoneQualifies refs.href? (SpanLine.placedOf line)
  · rw [linkLine_of_noneQualifies hq, h]
  · by_contra hf
    rw [(partsAtMark_linkLine hq).isFence (by simpa using hf)] at h
    cases h

end lines

/-! ### Texts -/

/-- The lines outside fences, without the fences. -/
def proseLines : Bool → List Text → List Text
  | _, [] => []
  | inFence, line :: more =>
    if isFence line then proseLines (!inFence) more
    else if inFence then proseLines true more
    else line :: proseLines false more

/-- No name that leads somewhere qualifies for a span outside fences. -/
def NothingToLink (href? : Text → Option Text) (x : Text) : Prop :=
  ∀ line ∈ proseLines false (Text.lines x), NoneQualifies href? (SpanLine.placedOf line)

section texts

variable {refs : ReferenceMap}

theorem linkLines_eq_self_iff {inFence : Bool} {lines : List Text} :
    linkLines refs.linkTable inFence lines = lines ↔
      ∀ line ∈ proseLines inFence lines, linkLine refs.linkTable line = line := by
  induction lines generalizing inFence with
  | nil => simp [linkLines, proseLines]
  | cons line more ih =>
      rw [linkLines, proseLines]
      split
      · simp [ih]
      · cases inFence <;> simp [ih]

theorem length_linkLines (inFence : Bool) (lines : List Text) :
    (linkLines refs.linkTable inFence lines).length = lines.length := by
  induction lines generalizing inFence with
  | nil => rfl
  | cons line more ih =>
      rw [linkLines]
      split <;> simp [ih]

theorem proseLines_subset (inFence : Bool) (lines : List Text) : proseLines inFence lines ⊆ lines := by
  induction lines generalizing inFence with
  | nil => exact List.nil_subset _
  | cons line more ih =>
      rw [proseLines]
      split
      · exact List.subset_cons_of_subset _ (ih _)
      · split
        · exact List.subset_cons_of_subset _ (ih _)
        · exact List.cons_subset_cons _ (ih _)

/-- Without backticks there is nothing to link. -/
theorem nothingToLink_of_not_mem {href? : Text → Option Text} {x : Text} (h : '\x60' ∉ x) :
    NothingToLink href? x := by
  intro line hl place hp
  have hline : '\x60' ∉ line := by
    rw [← Text.unlines_lines x] at h
    exact fun hm => h (Text.subset_unlines (proseLines_subset _ _ hl) hm)
  have hcount : line.count '\x60' ≤ 1 := by
    rw [List.count_eq_zero.2 hline]
    exact Nat.zero_le 1
  rw [SpanLine.placedOf, SpanLine.ofText_tail hcount] at hp
  cases hp

/-- Unless there is nothing to link, the text shows something else. -/
theorem partsAtMark_unlines_linkLines {inFence : Bool} {lines : List Text}
    (h : ¬ ∀ line ∈ proseLines inFence lines, NoneQualifies refs.href? (SpanLine.placedOf line)) :
    PartsAtMark (Text.unlines lines) (Text.unlines (linkLines refs.linkTable inFence lines)) := by
  induction lines generalizing inFence with
  | nil => simp [proseLines] at h
  | cons line more ih =>
      -- the first line stays or shows something else, and so do those after it
      have hcons {line' : Text} {more' : List Text} (hl : more'.length = more.length)
          (hparts : PartsAtMark line line' ∨
            line' = line ∧ PartsAtMark (Text.unlines more) (Text.unlines more')) :
          PartsAtMark (Text.unlines (line :: more)) (Text.unlines (line' :: more')) := by
        by_cases hm : more = []
        · subst hm
          obtain rfl := List.length_eq_zero_iff.1 hl
          rcases hparts with hp | ⟨_, hp⟩
          · simpa [Text.unlines, Text.joinWith] using hp
          · exact absurd rfl hp.ne
        · have hm' : more' ≠ [] := by
            rintro rfl
            exact hm (List.length_eq_zero_iff.1 hl.symm)
          rw [Text.unlines_cons hm, Text.unlines_cons hm']
          rcases hparts with hp | ⟨rfl, hp⟩
          · exact hp.append_right _ _
          · exact (hp.append_left ['\n']).append_left _
      rw [proseLines] at h
      rw [linkLines]
      split
      · next hf =>
        rw [if_pos hf] at h
        exact hcons (length_linkLines _ _) (.inr ⟨rfl, ih h⟩)
      · next hf =>
        rw [if_neg hf] at h
        cases inFence with
        | true => exact hcons (length_linkLines _ _) (.inr ⟨rfl, ih h⟩)
        | false =>
            refine hcons (length_linkLines _ _) ?_
            by_cases hq : NoneQualifies refs.href? (SpanLine.placedOf line)
            · refine .inr ⟨linkLine_of_noneQualifies hq, ih fun hmore => h ?_⟩
              exact List.forall_mem_cons.2 ⟨hq, hmore⟩
            · exact .inl (partsAtMark_linkLine hq)

/-- A text stays as it is if and only if there is nothing to link. -/
theorem linkText_eq_self_iff {x : Text} :
    linkText refs.linkTable x = x ↔ NothingToLink refs.href? x := by
  constructor
  · intro h
    by_contra hq
    have hparts := partsAtMark_unlines_linkLines hq
    rw [Text.unlines_lines] at hparts
    exact hparts.ne h.symm
  · intro h
    have hlines := linkLines_eq_self_iff.2 fun line hl => linkLine_of_noneQualifies (h line hl)
    rw [linkText, hlines, Text.unlines_lines]

end texts

end ApiReference
