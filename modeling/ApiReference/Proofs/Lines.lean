import ApiReference.Document.Basic
import Mathlib.Data.List.DropRight

/-! # Trimmed lines

Laws of trimming, and of the lines of a text: trimming twice is trimming once, blanks that are added
at an end are trimmed away again, and a text is cut into lines and joined without loss. -/

namespace ApiReference

/-- A text in which a character does not stand begins before that character. -/
theorem isPrefix_of_append_cons {a x y : Text} {c : Char} (h : a <+: x ++ c :: y) (hc : c ∉ a) :
    a <+: x := by
  rcases List.prefix_or_prefix_of_prefix h (List.prefix_append x _) with hp | ⟨rest, rfl⟩
  · exact hp
  · cases rest with
    | nil => simp
    | cons d rest =>
        obtain ⟨rfl, -⟩ := List.cons_prefix_cons.1 ((List.prefix_append_right_inj x).1 h)
        exact absurd (List.mem_append_right _ List.mem_cons_self) hc

namespace Text

/-! ### Trimming -/

theorem dropEndWhile_concat (p : Char → Bool) (x : Text) (c : Char) :
    dropEndWhile p (x ++ [c]) = if p c then dropEndWhile p x else x ++ [c] := by
  induction x with
  | nil => rfl
  | cons d x ih =>
      rw [List.cons_append, dropEndWhile, ih]
      by_cases h : p c = true
      · simp only [h, if_true, dropEndWhile]
      · simp only [h, if_false, Bool.false_eq_true]
        cases x <;> rfl

theorem dropEndWhile_eq_rdropWhile (p : Char → Bool) (x : Text) :
    dropEndWhile p x = x.rdropWhile p := by
  induction x using List.reverseRecOn with
  | nil => rfl
  | append_singleton x c ih => rw [dropEndWhile_concat, List.rdropWhile_concat, ih]

/-- Nothing is dropped before a character that is kept. -/
theorem dropEndWhile_append_cons {p : Char → Bool} {c : Char} (h : p c = false) (x y : Text) :
    dropEndWhile p (x ++ c :: y) = x ++ c :: dropEndWhile p y := by
  induction x with
  | nil =>
      rw [List.nil_append, dropEndWhile]
      cases dropEndWhile p y with
      | nil => simp [h]
      | cons d y => rfl
  | cons d x ih =>
      rw [List.cons_append, dropEndWhile, ih]
      cases x <;> rfl

theorem stripEnd_eq (x : Text) : x.stripEnd = x.rdropWhile isBlank :=
  dropEndWhile_eq_rdropWhile isBlank x

theorem isPrefix_stripEnd (x : Text) : x.stripEnd <+: x := by
  rw [stripEnd_eq]
  exact List.rdropWhile_prefix _ _

theorem strip_eq (x : Text) : x.strip = x.stripStart.stripEnd := rfl

theorem isAllBlank_iff {x : Text} : x.isAllBlank = true ↔ ∀ c ∈ x, isBlank c = true :=
  List.all_eq_true

theorem stripEnd_eq_nil_iff {x : Text} : x.stripEnd = [] ↔ x.isAllBlank = true := by
  rw [stripEnd_eq, List.rdropWhile_eq_nil_iff, isAllBlank_iff]

theorem stripEnd_stripEnd (x : Text) : x.stripEnd.stripEnd = x.stripEnd := by
  simp only [stripEnd_eq, List.rdropWhile_idempotent]

theorem stripEnd_append_blank (x : Text) {gap : Text} (h : gap.isAllBlank = true) :
    stripEnd (x ++ gap) = x.stripEnd := by
  induction gap using List.reverseRecOn with
  | nil => rw [List.append_nil]
  | append_singleton gap c ih =>
      rw [isAllBlank_iff] at h
      have hgap : isAllBlank gap = true :=
        isAllBlank_iff.2 fun d hd => h d (List.mem_append_left _ hd)
      rw [← List.append_assoc, stripEnd_eq, List.rdropWhile_concat_pos _ _ _ (h c (by simp)),
        ← stripEnd_eq, ih hgap]

/-- What trimming the end drops is blank. -/
theorem exists_eq_stripEnd_append (x : Text) :
    ∃ gap : Text, gap.isAllBlank = true ∧ x = x.stripEnd ++ gap := by
  refine ⟨x.rtakeWhile isBlank, isAllBlank_iff.2 fun c hc => List.mem_rtakeWhile_imp hc, ?_⟩
  rw [stripEnd_eq, List.rdropWhile_append_rtakeWhile]

theorem stripStart_blank {gap : Text} (h : gap.isAllBlank = true) : gap.stripStart = [] :=
  List.dropWhile_eq_nil_iff.2 (isAllBlank_iff.1 h)

theorem strip_append_blank (x : Text) {gap : Text} (h : gap.isAllBlank = true) :
    strip (x ++ gap) = x.strip := by
  rw [strip_eq, strip_eq, stripStart, stripStart, List.dropWhile_append]
  split
  · next he =>
    rw [List.isEmpty_iff.1 he, ← stripStart, stripStart_blank h]
  · exact stripEnd_append_blank _ h

theorem strip_stripEnd (x : Text) : x.stripEnd.strip = x.strip := by
  obtain ⟨gap, hgap, e⟩ := exists_eq_stripEnd_append x
  exact (strip_append_blank _ hgap).symm.trans (congrArg strip e.symm)

theorem stripStart_stripStart (x : Text) : x.stripStart.stripStart = x.stripStart :=
  List.dropWhile_idempotent _ _

theorem strip_stripStart (x : Text) : x.stripStart.strip = x.strip := by
  rw [strip_eq, strip_eq, stripStart_stripStart]

theorem strip_strip (x : Text) : x.strip.strip = x.strip := by
  rw [strip_eq x, strip_stripEnd, strip_stripStart, strip_eq]

theorem isAllBlank_eq_strip (x : Text) : x.isAllBlank = x.strip.isEmpty := by
  rw [Bool.eq_iff_iff, List.isEmpty_iff, strip_eq, stripEnd_eq_nil_iff, isAllBlank_iff,
    isAllBlank_iff]
  constructor
  · exact fun h c hc => h c ((List.dropWhile_suffix _).subset hc)
  · intro h
    have hnil : x.stripStart = [] := by
      by_contra hne
      have hhead : isBlank (x.stripStart.head hne) = false := List.head_dropWhile_not isBlank hne
      rw [h _ (List.head_mem hne)] at hhead
      cases hhead
    exact List.dropWhile_eq_nil_iff.1 hnil

theorem isAllBlank_stripEnd (x : Text) : x.stripEnd.isAllBlank = x.isAllBlank := by
  rw [isAllBlank_eq_strip, strip_stripEnd, ← isAllBlank_eq_strip]

/-- A text that ends in a character that is not blank has nothing to trim there. -/
theorem stripEnd_concat {x : Text} {c : Char} (h : isBlank c = false) :
    stripEnd (x ++ [c]) = x ++ [c] := by
  rw [stripEnd_eq, List.rdropWhile_concat_neg _ _ _ (by simp [h])]

/-- A trimmed text ends in a character that is not blank. -/
theorem exists_eq_concat_of_stripEnd {x : Text} (h : x.stripEnd = x) (hne : x ≠ []) :
    ∃ start c, isBlank c = false ∧ x = start ++ [c] := by
  rw [stripEnd_eq, List.rdropWhile_eq_self_iff] at h
  exact ⟨x.dropLast, x.getLast hne, by simpa using h hne, (List.dropLast_append_getLast hne).symm⟩

/-- Where a text without blanks at its end is cut, the second part is not blank. -/
theorem isAllBlank_of_append {a b : Text} (h : stripEnd (a ++ b) = a ++ b) (hb : b ≠ []) :
    b.isAllBlank = false := by
  by_contra hne
  have hblank : b.isAllBlank = true := by simpa using hne
  rw [stripEnd_append_blank a hblank, stripEnd_eq] at h
  have hlen := (List.rdropWhile_prefix isBlank a).length_le
  rw [h, List.length_append] at hlen
  exact hb (List.length_eq_zero_iff.1 (by omega))

theorem stripEnd_of_append {a b : Text} (h : stripEnd (a ++ b) = a ++ b) : b.stripEnd = b := by
  rw [stripEnd_eq, List.rdropWhile_eq_self_iff] at h ⊢
  intro hb
  rw [← List.getLast_append_of_right_ne_nil a b hb]
  exact h (List.append_ne_nil_of_right_ne_nil a hb)

theorem stripStart_cons {c : Char} (x : Text) (h : isBlank c = false) :
    stripStart (c :: x) = c :: x := by
  rw [stripStart, List.dropWhile_cons_of_neg (by simp [h])]

/-- A text that begins with a character that is not blank keeps it. -/
theorem exists_stripEnd_cons {c : Char} (h : isBlank c = false) (x : Text) :
    ∃ y, stripEnd (c :: x) = c :: y := by
  rw [stripEnd, dropEndWhile]
  split
  · exact ⟨[], by rw [h]; rfl⟩
  · exact ⟨_, rfl⟩

theorem stripEnd_strip (x : Text) : x.strip.stripEnd = x.strip := stripEnd_stripEnd _

/-- The first character that shows comes first, and the last one last. -/
theorem exists_ends_of_strip {x : Text} (h : x.strip = x) (hne : x ≠ []) :
    (∃ c rest, isBlank c = false ∧ x = c :: rest) ∧
      ∃ start c, isBlank c = false ∧ x = start ++ [c] := by
  have hend : x.stripEnd = x := by
    rw [← h, stripEnd_strip]
  refine ⟨?_, exists_eq_concat_of_stripEnd hend hne⟩
  cases x with
  | nil => exact absurd rfl hne
  | cons c rest =>
      refine ⟨c, rest, ?_, rfl⟩
      by_contra hc
      have hskip : stripStart (c :: rest) = stripStart rest :=
        List.dropWhile_cons_of_pos (by simpa using hc)
      have hle : (strip (c :: rest)).length ≤ rest.length := by
        rw [strip_eq, hskip, stripEnd_eq]
        exact (List.rdropWhile_prefix _ _).length_le.trans (List.dropWhile_suffix _).length_le
      rw [h, List.length_cons] at hle
      omega

/-- A text that ends in a character that shows begins the trimmed text if it begins what is left when
the start is trimmed. -/
theorem isPrefix_strip_iff {start x : Text} (h : start.stripEnd = start) :
    start <+: x.strip ↔ start <+: x.stripStart := by
  refine ⟨fun hp => hp.trans (isPrefix_stripEnd _), fun hp => ?_⟩
  by_cases hne : start = []
  · subst hne
    exact List.nil_prefix
  · obtain ⟨front, c, hc, rfl⟩ := exists_eq_concat_of_stripEnd h hne
    obtain ⟨rest, hrest⟩ := hp
    rw [strip_eq, ← hrest, List.append_assoc, List.singleton_append, stripEnd,
      dropEndWhile_append_cons hc]
    exact ⟨dropEndWhile isBlank rest, by simp⟩

theorem strip_subset (x : Text) : x.strip ⊆ x := by
  rw [strip_eq]
  exact fun c hc => (List.dropWhile_suffix _).subset ((isPrefix_stripEnd _).subset hc)

/-! ### Lines -/

/-- The text holds no line end of any sort. -/
def IsOneLine (x : Text) : Prop := '\n' ∉ x ∧ '\r' ∉ x

theorem IsOneLine.mono {x y : Text} (h : IsOneLine x) (hsub : y ⊆ x) : IsOneLine y :=
  ⟨fun hm => h.1 (hsub hm), fun hm => h.2 (hsub hm)⟩

instance (x : Text) : Decidable (IsOneLine x) := inferInstanceAs (Decidable (_ ∧ _))

theorem IsOneLine.append {x y : Text} (hx : IsOneLine x) (hy : IsOneLine y) : IsOneLine (x ++ y) :=
  ⟨fun hm => (List.mem_append.1 hm).elim hx.1 hy.1,
    fun hm => (List.mem_append.1 hm).elim hx.2 hy.2⟩

theorem IsOneLine.stripEnd {x : Text} (h : IsOneLine x) : IsOneLine x.stripEnd :=
  h.mono (isPrefix_stripEnd x).subset

theorem lines_append_newline (x y : Text) : lines (x ++ '\n' :: y) = lines x ++ lines y :=
  splitWhere_append_cons (by rfl) x y

theorem lines_of_not_mem {x : Text} (h : '\n' ∉ x) : lines x = [x] :=
  splitWhere_of_forall fun _ hc => beq_false_of_ne fun e => h (e ▸ hc)

theorem lines_unlines {pieces : List Text} (hne : pieces ≠ []) (h : ∀ piece ∈ pieces, '\n' ∉ piece) :
    lines (unlines pieces) = pieces :=
  split_joinWith hne h

theorem unlines_lines (x : Text) : unlines (lines x) = x := joinWith_split '\n' x

theorem lines_ne_nil (x : Text) : lines x ≠ [] := splitWhere_ne_nil _ x

theorem not_mem_of_mem_lines {x line : Text} (h : line ∈ lines x) : '\n' ∉ line :=
  forall_mem_split '\n' x line h

theorem unlines_cons {first : Text} {more : List Text} (h : more ≠ []) :
    unlines (first :: more) = first ++ '\n' :: unlines more := by
  cases more with
  | nil => exact absurd rfl h
  | cons second more => simp [unlines, joinWith_cons_cons]

theorem mem_of_mem_unlines {pieces : List Text} {c : Char} (h : c ∈ unlines pieces) :
    c = '\n' ∨ ∃ piece ∈ pieces, c ∈ piece :=
  (mem_of_mem_joinWith h).imp_left List.mem_singleton.1

theorem infix_unlines {pieces : List Text} {piece : Text} (h : piece ∈ pieces) :
    piece <:+: unlines pieces := by
  induction pieces with
  | nil => cases h
  | cons first more ih =>
      by_cases hm : more = []
      · subst hm
        rw [List.mem_singleton.1 h]
        simp [unlines, joinWith]
      · rw [unlines_cons hm]
        rcases List.mem_cons.1 h with rfl | h
        · exact (List.prefix_append piece _).isInfix
        · exact (ih h).trans ((List.suffix_cons '\n' _).trans (List.suffix_append _ _)).isInfix

theorem subset_unlines {pieces : List Text} {piece : Text} (h : piece ∈ pieces) :
    piece ⊆ unlines pieces :=
  (infix_unlines h).subset

theorem infix_of_mem_lines {x line : Text} (h : line ∈ lines x) : line <:+: x := by
  have hinfix := infix_unlines h
  rwa [unlines_lines] at hinfix

theorem isOneLine_of_mem_lines {x line : Text} (hx : '\r' ∉ x) (h : line ∈ lines x) :
    IsOneLine line :=
  ⟨not_mem_of_mem_lines h, fun hm => hx ((infix_of_mem_lines h).subset hm)⟩

/-! ### The first and the last line -/

theorem lines_cons {c : Char} (h : c ≠ '\n') (x : Text) :
    ∃ first more, lines (c :: x) = (c :: first) :: more := by
  have hc : (c == '\n') = false := beq_false_of_ne h
  have hne := lines_ne_nil x
  unfold lines split at hne ⊢
  rw [splitWhere, hc]
  cases e : splitWhere (· == '\n') x with
  | nil => exact absurd e hne
  | cons first more => exact ⟨first, more, rfl⟩

theorem unlines_concat {lines : List Text} (h : lines ≠ []) (last : Text) :
    unlines (lines ++ [last]) = unlines lines ++ '\n' :: last := by
  induction lines with
  | nil => exact absurd rfl h
  | cons first more ih =>
      rw [List.cons_append, unlines_cons (by simp)]
      by_cases hm : more = []
      · subst hm
        simp [unlines, joinWith]
      · rw [ih hm, unlines_cons hm, List.append_assoc, List.cons_append]

/-- A character at the end of a text stands at the end of the last line. -/
theorem lines_concat {x last : Text} {start : List Text} (h : lines x = start ++ [last]) {c : Char}
    (hc : c ≠ '\n') : lines (x ++ [c]) = start ++ [last ++ [c]] := by
  have hmem : ∀ line ∈ start ++ [last], '\n' ∉ line := fun line hl =>
    not_mem_of_mem_lines (h ▸ hl)
  have hx : unlines (start ++ [last]) ++ [c] = unlines (start ++ [last ++ [c]]) := by
    by_cases hs : start = []
    · subst hs
      simp [unlines, joinWith]
    · rw [unlines_concat hs, unlines_concat hs, List.append_assoc, List.cons_append]
  rw [← unlines_lines x, h, hx]
  refine lines_unlines (by simp) fun line hl => ?_
  rcases List.mem_append.1 hl with hl | hl
  · exact hmem line (List.mem_append_left _ hl)
  · rw [List.mem_singleton.1 hl, List.mem_append, List.mem_singleton, not_or]
    exact ⟨hmem last (by simp), fun e => hc e.symm⟩

/-- Where lines are joined, the last line comes last. -/
theorem exists_unlines_concat (lines : List Text) (last : Text) :
    ∃ start, unlines (lines ++ [last]) = start ++ last ∧ (start = [] ∨ ∃ y, start = y ++ ['\n']) := by
  by_cases h : lines = []
  · subst h
    exact ⟨[], by simp [unlines, joinWith], .inl rfl⟩
  · refine ⟨unlines lines ++ ['\n'], ?_, .inr ⟨_, rfl⟩⟩
    rw [unlines_concat h, List.append_assoc, List.singleton_append]

/-! ### Line ends -/

theorem unifyLineEnds_of_not_mem {x : Text} (h : '\r' ∉ x) : unifyLineEnds x = x := by
  induction x with
  | nil => rfl
  | cons c x ih =>
      have hc : c ≠ '\r' := fun e => h (e ▸ List.mem_cons_self)
      rw [unifyLineEnds.eq_3 _ _ fun rest e _ => hc e, if_neg hc,
        ih fun hm => h (List.mem_cons_of_mem _ hm)]

theorem not_mem_unifyLineEnds (x : Text) : '\r' ∉ unifyLineEnds x := by
  fun_induction unifyLineEnds x with
  | case1 => simp
  | case2 rest ih => simpa using ih
  | case3 c rest _ ih =>
      rw [List.mem_cons, not_or]
      refine ⟨?_, ih⟩
      split
      · decide
      · next h => exact fun e => h e.symm

theorem unifyLineEnds_cons {c : Char} (h : isBlank c = false) (x : Text) :
    unifyLineEnds (c :: x) = c :: unifyLineEnds x := by
  have hc : c ≠ '\r' := by
    rintro rfl
    exact absurd h (by decide)
  rw [unifyLineEnds.eq_3 _ _ fun rest e _ => hc e, if_neg hc]

/-- Line ends are unified part by part, unless a line end is cut in two. -/
theorem unifyLineEnds_append {x y : Text} (h : x.getLast? = some '\r' → y.head? ≠ some '\n') :
    unifyLineEnds (x ++ y) = unifyLineEnds x ++ unifyLineEnds y := by
  have hkeep {c : Char} {x : Text} (hx : (c :: x).getLast? = some '\r' → y.head? ≠ some '\n') :
      x.getLast? = some '\r' → y.head? ≠ some '\n' := by
    intro e
    refine hx ?_
    rw [List.getLast?_cons, e]
    rfl
  fun_induction unifyLineEnds x with
  | case1 => rfl
  | case2 rest ih =>
      rw [List.cons_append, List.cons_append, unifyLineEnds, ih (hkeep (hkeep h)),
        List.cons_append]
  | case3 d rest hd ih =>
      have hnext : ∀ more, d = '\r' → rest ++ y = '\n' :: more → False := by
        rintro more rfl e
        cases rest with
        | nil => exact h rfl (by rw [List.nil_append] at e; rw [e]; rfl)
        | cons n rest => exact hd rest rfl (by rw [(List.cons.inj e).1])
      rw [List.cons_append, unifyLineEnds.eq_3 _ _ hnext, ih (hkeep h), List.cons_append]

theorem unifyLineEnds_concat (x : Text) {c : Char} (h : isBlank c = false) :
    unifyLineEnds (x ++ [c]) = unifyLineEnds x ++ [c] := by
  rw [unifyLineEnds_append, unifyLineEnds_cons h]
  · rfl
  · rintro - e
    rw [Option.some.inj e] at h
    exact absurd h (by decide)

end Text

end ApiReference
