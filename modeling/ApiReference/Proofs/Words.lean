import ApiReference.Proofs.Lines

/-! # Words

The words of a text are cut at blanks, so they do not depend on which blanks stand between them: not on
trimming (`words_strip`), not on how lines end (`words_unifyLineEnds`), and those of lines are those of
each line (`words_unlines`).  Together they are the characters that show (`flatten_words`). -/

namespace ApiReference

namespace Text

/-- The words of a text are its characters that show. -/
theorem flatten_words (x : Text) : x.words.flatten = x.filter fun c => !isBlank c := by
  unfold words
  rw [List.flatten_filter_not_isEmpty]
  induction x with
  | nil => rfl
  | cons c x ih =>
      rw [splitWhere]
      split
      · next hc =>
        rw [List.flatten_cons, ih, List.filter_cons_of_neg (by simp [hc]), List.nil_append]
      · next hc =>
        rw [List.filter_cons_of_pos (by simp [hc]), ← ih]
        cases e : splitWhere isBlank x with
        | nil => exact absurd e (splitWhere_ne_nil _ _)
        | cons piece pieces => rfl

theorem words_unlines (lines : List Text) : words (unlines lines) = lines.flatMap words := by
  induction lines with
  | nil => rfl
  | cons first more ih =>
      cases more with
      | nil => simp [unlines, joinWith]
      | cons second more =>
          rw [unlines_cons (List.cons_ne_nil _ _), words_append_cons (by decide), ih]
          exact List.flatMap_cons.symm

theorem words_of_isAllBlank {x : Text} (h : x.isAllBlank = true) : words x = [] := by
  induction x with
  | nil => rfl
  | cons c x ih =>
      rw [isAllBlank_iff] at h
      have hx : isAllBlank x = true := isAllBlank_iff.2 fun d hd => h d (List.mem_cons_of_mem _ hd)
      exact (words_append_cons (h c List.mem_cons_self) [] x).trans (ih hx)

theorem words_append_blank (x : Text) {gap : Text} (h : gap.isAllBlank = true) :
    words (x ++ gap) = words x := by
  cases gap with
  | nil => rw [List.append_nil]
  | cons c gap =>
      rw [isAllBlank_iff] at h
      have hgap : isAllBlank gap = true :=
        isAllBlank_iff.2 fun d hd => h d (List.mem_cons_of_mem _ hd)
      rw [words_append_cons (h c List.mem_cons_self), words_of_isAllBlank hgap, List.append_nil]

theorem words_stripEnd (x : Text) : words x.stripEnd = words x := by
  obtain ⟨gap, hgap, e⟩ := exists_eq_stripEnd_append x
  exact (words_append_blank _ hgap).symm.trans (congrArg words e.symm)

theorem words_strip (x : Text) : words x.strip = words x := by
  have hstart : words x.stripStart = words x := by
    induction x with
    | nil => rfl
    | cons c x ih =>
        by_cases hc : isBlank c = true
        · have hskip : stripStart (c :: x) = stripStart x := List.dropWhile_cons_of_pos hc
          rw [hskip, ih]
          exact (words_append_cons hc [] x).symm
        · rw [stripStart_cons x (by simpa using hc)]
  rw [strip_eq, words_stripEnd, hstart]

/-- Line ends of every sort part words. -/
theorem words_unifyLineEnds (x : Text) : words x.unifyLineEnds = words x := by
  have hreturn : isBlank '\r' = true := by decide
  have hnewline : isBlank '\n' = true := by decide
  -- A word can begin before the line ends that are looked at.
  have hafter (start : Text) : words (start ++ x.unifyLineEnds) = words (start ++ x) := by
    fun_induction unifyLineEnds x generalizing start with
    | case1 => rfl
    | case2 rest ih =>
        have hrest : words ('\n' :: rest) = words rest := words_append_cons hnewline [] rest
        rw [words_append_cons hnewline, words_append_cons hreturn, hrest]
        exact congrArg _ (ih [])
    | case3 c rest _ ih =>
        split
        · next hc =>
          rw [hc, words_append_cons hnewline, words_append_cons hreturn]
          exact congrArg _ (ih [])
        · have h := ih (start ++ [c])
          rwa [List.append_assoc, List.append_assoc] at h
  exact hafter []

end Text

end ApiReference
