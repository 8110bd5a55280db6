import ApiReference.Markup.Prose
import ApiReference.Proofs.Lines

/-! # Full stops at the end of texts

Punctuating a text trims it, and leaves it at that if its last line is markup or if it ends in a question
or exclamation mark; otherwise the full stops, spaces and tabs at its end give way to one full stop
(`Punctuated`).  What comes out is punctuated already (`ensurePeriod_punctuates`). -/

namespace ApiReference

/-! ### Last lines -/

/-- The line is the last one of the text. -/
def IsLastLine (line x : Text) : Prop :=
  '\n' ∉ line ∧ (x = line ∨ ∃ before, x = before ++ '\n' :: line)

theorem getLast?_lines_iff {line x : Text} : (Text.lines x).getLast? = some line ↔ IsLastLine line x := by
  constructor
  · intro h
    obtain ⟨before, e⟩ := List.getLast?_eq_some_iff.1 h
    refine ⟨Text.not_mem_of_mem_lines (e ▸ by simp : line ∈ Text.lines x), ?_⟩
    have hx : x = Text.unlines (before ++ [line]) := by rw [← e, Text.unlines_lines]
    obtain ⟨start, hstart, rfl | ⟨y, rfl⟩⟩ := Text.exists_unlines_concat before line
    · exact .inl (hx.trans hstart)
    · exact .inr ⟨y, by rw [hx, hstart]; simp⟩
  · rintro ⟨hline, rfl | ⟨before, rfl⟩⟩
    · rw [Text.lines_of_not_mem hline, List.getLast?_singleton]
    · rw [Text.lines_append_newline, Text.lines_of_not_mem hline, List.getLast?_concat]

theorem exists_isLastLine (x : Text) : ∃ line, IsLastLine line x :=
  ⟨_, getLast?_lines_iff.1 (List.getLast?_eq_some_getLast (Text.lines_ne_nil x))⟩

theorem IsLastLine.unique {line other x : Text} (h : IsLastLine line x) (h' : IsLastLine other x) :
    line = other :=
  Option.some.inj ((getLast?_lines_iff.2 h).symm.trans (getLast?_lines_iff.2 h'))

/-- What is added to a text without a line end is added to the last line. -/
theorem IsLastLine.append {line x y : Text} (h : IsLastLine line x) (hy : '\n' ∉ y) :
    IsLastLine (line ++ y) (x ++ y) := by
  refine ⟨by simp [h.1, hy], ?_⟩
  rcases h.2 with rfl | ⟨before, rfl⟩
  · exact .inl rfl
  · exact .inr ⟨before, by simp⟩

/-- The last line of a trimmed text shows. -/
theorem IsLastLine.isAllBlank_eq_false {line x : Text} (h : IsLastLine line x) (hx : x.strip = x)
    (hne : x ≠ []) : line.isAllBlank = false := by
  have hend : x.stripEnd = x := by
    rw [← hx, Text.stripEnd_strip]
  rcases h.2 with rfl | ⟨before, rfl⟩
  · rw [Text.isAllBlank_eq_strip, hx]
    simpa using hne
  · have hlast := Text.isAllBlank_of_append hend (List.cons_ne_nil _ _)
    have hnewline : isBlank '\n' = true := by decide
    simpa [Text.isAllBlank, hnewline] using hlast

namespace Markup

/-! ### What punctuating does -/

/-- The last line of the text begins like markup. -/
def EndsInMarkup (x : Text) : Prop :=
  ∃ line, IsLastLine line x ∧ ∃ start ∈ markupStarts, start <+: line.strip

/-- The trimmed text has nothing to punctuate: it is empty, ends in markup, or ends in a question or
exclamation mark. -/
def StaysUnstopped (x : Text) : Prop := x = [] ∨ EndsInMarkup x ∨ ['?'] <:+ x ∨ ['!'] <:+ x

/-- The characters that one full stop takes the place of at the end of a text. -/
def isStop (c : Char) : Bool := c == '.' || c == ' ' || c == '\t'

/-- What becomes of a trimmed text. -/
inductive Punctuated : Text → Text → Prop
  | trimmed {x : Text} : StaysUnstopped x → Punctuated x x
  /-- The full stops, spaces and tabs at the end, however many there are, become one full stop. -/
  | stopped {body run : Text} : ¬ StaysUnstopped (body ++ run) → (∀ c ∈ run, isStop c = true) →
      (∀ c ∈ body.getLast?, isStop c = false) → Punctuated (body ++ run) (body ++ ['.'])

/-- What begins a line of markup is neither empty nor holds full stops or blanks. -/
theorem plain_of_mem_markupStarts :
    ∀ start ∈ markupStarts, start ≠ [] ∧ '.' ∉ start ∧ start.stripEnd = start := by
  decide

theorem endsWithProse_eq_false_iff {x : Text} (hx : x.strip = x) (hne : x ≠ []) :
    endsWithProse x = false ↔ EndsInMarkup x := by
  obtain ⟨line, hline⟩ := exists_isLastLine x
  have hshown : line.strip.isEmpty = false := by
    rw [← Text.isAllBlank_eq_strip]
    exact hline.isAllBlank_eq_false hx hne
  have hprose : endsWithProse x = !markupStarts.any fun start => line.strip.startsWith start := by
    rw [endsWithProse, hx, getLast?_lines_iff.2 hline]
    simp [hshown]
  rw [hprose, Bool.not_eq_false', List.any_eq_true]
  simp only [Text.startsWith, List.isPrefixOf_iff_prefix]
  constructor
  · exact fun h => ⟨line, hline, h⟩
  · rintro ⟨other, hother, h⟩
    rwa [hline.unique hother]

theorem dropEndWhile_isStop_append {body run : Text} (hrun : ∀ c ∈ run, isStop c = true)
    (hbody : ∀ c ∈ body.getLast?, isStop c = false) :
    Text.dropEndWhile isStop (body ++ run) = body := by
  induction run using List.reverseRecOn with
  | nil =>
      rw [List.append_nil, Text.dropEndWhile_eq_rdropWhile, List.rdropWhile_eq_self_iff]
      intro hne
      simp [hbody _ (List.getLast?_eq_some_getLast hne)]
  | append_singleton run c ih =>
      rw [← List.append_assoc, Text.dropEndWhile_concat, if_pos (hrun c (by simp))]
      exact ih fun d hd => hrun d (List.mem_append_left _ hd)

/-- Every text has stops at its end, if only none of them. -/
theorem exists_eq_append_stops (x : Text) : ∃ run, x = Text.dropEndWhile isStop x ++ run ∧
    (∀ c ∈ run, isStop c = true) ∧
    ∀ c ∈ (Text.dropEndWhile isStop x).getLast?, isStop c = false := by
  rw [Text.dropEndWhile_eq_rdropWhile]
  refine ⟨x.rtakeWhile isStop, List.rdropWhile_append_rtakeWhile.symm,
    fun c hc => List.mem_rtakeWhile_imp hc, fun c hc => ?_⟩
  have hne : x.rdropWhile isStop ≠ [] := by
    intro hnil
    rw [hnil] at hc
    cases hc
  rw [List.getLast?_eq_some_getLast hne] at hc
  obtain rfl := Option.some.inj hc
  simpa using List.rdropWhile_last_not isStop x hne

theorem ensurePeriod_eq (x : Text) [Decidable (StaysUnstopped x.strip)] : ensurePeriod x =
    if StaysUnstopped x.strip then x.strip else Text.dropEndWhile isStop x.strip ++ ['.'] := by
  have hmarks (c : Char) : x.strip.endsWith [c] = true ↔ [c] <:+ x.strip :=
    List.isSuffixOf_iff_suffix
  have hstays : (x.strip.isEmpty || !endsWithProse x.strip || x.strip.endsWith ['?'] ||
      x.strip.endsWith ['!']) = true ↔ StaysUnstopped x.strip := by
    rw [StaysUnstopped, Bool.or_eq_true, Bool.or_eq_true, Bool.or_eq_true, List.isEmpty_iff,
      Bool.not_eq_true', hmarks, hmarks, or_assoc, or_assoc]
    by_cases hne : x.strip = []
    · simp [hne]
    · rw [endsWithProse_eq_false_iff x.strip_strip hne]
  unfold ensurePeriod
  dsimp only
  by_cases h : StaysUnstopped x.strip
  · rw [if_pos (hstays.2 h), if_pos h]
  · rw [if_neg fun he => h (hstays.1 he), if_neg h]
    rfl

theorem punctuated_iff {x y : Text} : Punctuated x.strip y ↔ y = ensurePeriod x := by
  classical
  rw [ensurePeriod_eq]
  constructor
  · intro h
    generalize x.strip = t at h ⊢
    cases h with
    | trimmed hstays => rw [if_pos hstays]
    | stopped hstays hrun hbody => rw [if_neg hstays, dropEndWhile_isStop_append hrun hbody]
  · rintro rfl
    split
    · next hstays => exact .trimmed hstays
    · next hstays =>
      obtain ⟨run, hx, hrun, hbody⟩ := exists_eq_append_stops x.strip
      generalize Text.dropEndWhile isStop x.strip = body at hx hbody ⊢
      rw [hx] at hstays ⊢
      exact .stopped hstays hrun hbody

/-! ### Punctuating again -/

/-- With a full stop in the place of the stops at its end, a text ends in markup only if it did so
before. -/
theorem EndsInMarkup.of_stop {body run : Text} (h : EndsInMarkup (body ++ ['.']))
    (hrun : ∀ c ∈ run, isStop c = true) : EndsInMarkup (body ++ run) := by
  obtain ⟨line, hline, start, hstart, hp⟩ := h
  obtain ⟨hne, hdot, hshown⟩ := plain_of_mem_markupStarts start hstart
  obtain ⟨last, hlast⟩ := exists_isLastLine body
  have hrun : '\n' ∉ run := fun hm => absurd (hrun _ hm) (by decide)
  refine ⟨last ++ run, hlast.append hrun, start, hstart, ?_⟩
  rw [← (hlast.append (by decide : '\n' ∉ ['.'])).unique hline, Text.isPrefix_strip_iff hshown,
    Text.stripStart, List.dropWhile_append] at hp
  rw [Text.isPrefix_strip_iff hshown, Text.stripStart, List.dropWhile_append]
  split at hp
  · -- before the full stop stand blanks only, and it begins no markup
    have hnil : start <+: [] := isPrefix_of_append_cons (x := []) (y := []) hp hdot
    exact absurd (List.prefix_nil.1 hnil) hne
  · next hfilled =>
    rw [if_neg hfilled]
    exact (isPrefix_of_append_cons hp hdot).trans (List.prefix_append _ _)

theorem Punctuated.again {x y : Text} (h : Punctuated x y) (hx : x.strip = x) :
    y.strip = y ∧ Punctuated y y := by
  cases h with
  | trimmed hstays => exact ⟨hx, .trimmed hstays⟩
  | @stopped body run hstays hrun hbody =>
      have hmark {c : Char} (hc : c ≠ '.') : ¬ [c] <:+ body ++ ['.'] := by
        rintro ⟨start, e⟩
        exact hc (List.cons.inj (List.append_inj_right' e rfl)).1
      have hsame : ¬ StaysUnstopped (body ++ ['.']) := by
        rintro (hnil | hmarkup | hquestion | hexclamation)
        · simp at hnil
        · exact hstays (.inr (.inl (hmarkup.of_stop hrun)))
        · exact hmark (by decide) hquestion
        · exact hmark (by decide) hexclamation
      have hstop : ∀ c ∈ ['.'], isStop c = true := by
        simp [isStop]
      refine ⟨?_, .stopped hsame hstop hbody⟩
      have hstart : (body ++ ['.']).stripStart = body ++ ['.'] := by
        cases body with
        | nil => rfl
        | cons c body =>
            obtain ⟨⟨d, rest, hd, e⟩, -⟩ := Text.exists_ends_of_strip hx (by simp)
            exact Text.stripStart_cons _ ((List.cons.inj e).1 ▸ hd)
      rw [Text.strip_eq, hstart, Text.stripEnd_concat (by decide)]

/-- Punctuating a text does what is described to the trimmed text and nothing else, and punctuating it
again changes nothing. -/
theorem ensurePeriod_punctuates (x : Text) :
    (∀ y, Punctuated x.strip y ↔ y = ensurePeriod x) ∧
      ensurePeriod (ensurePeriod x) = ensurePeriod x := by
  obtain ⟨hstrip, hagain⟩ := (punctuated_iff.2 rfl : Punctuated x.strip (ensurePeriod x)).again
    x.strip_strip
  refine ⟨fun y => punctuated_iff, Eq.symm (punctuated_iff.1 ?_)⟩
  rwa [hstrip]

/-- The stops of a last line are one full stop after it was emptied by dropping them. -/
example : ensurePeriod "# Usage\n. ..\t" = "# Usage\n." := by decide +kernel

end Markup

end ApiReference
