import ApiReference.Proofs.CallSentences
import ApiReference.Proofs.OverviewEntries

/-! # Call lines and descriptions

The call form of a signature stands in a literal span at the start of its line, which keeps the
line from serving as a description.  Linking takes the backticks away where a name qualifies for
the span, and then the line does serve (`finish_callLine`, `ShowsCall.descriptionLine?`); it never
reads like the sentence about the function (`ShowsCall.ne_of_saysCall`). -/

namespace ApiReference

/-- The call form stays a literal span: it is no name that leads somewhere, and it holds none in
angle brackets. -/
def StaysLiteral (refs : ReferenceMap) (form : Text) : Prop :=
  ∀ name ∈ refs.names, form ≠ name ∧ ¬ angled name <:+: form

instance (refs : ReferenceMap) (form : Text) : Decidable (StaysLiteral refs form) :=
  inferInstanceAs (Decidable (∀ name ∈ refs.names, _))

/-- A call line that was linked: it has lost its backticks, and it begins with a link or as the call
form did. -/
structure ShowsCall (name y : Text) : Prop where
  span : '\x60' ∉ y
  line : '\n' ∉ y
  starts : (∃ rest, y = '[' :: rest) ∨ ∃ rest, y = name ++ '(' :: rest

/-! ### Linked call lines as descriptions -/

theorem IsPlainName.exists_cons {name : Text} (h : IsPlainName name) :
    ∃ c rest, name = c :: rest ∧ isPlainChar c = true := by
  cases name with
  | nil => exact absurd rfl h.nonempty
  | cons c rest => exact ⟨c, rest, rfl, h.plain c List.mem_cons_self⟩

theorem ne_of_isPlainChar {c d : Char} (hc : isPlainChar c = true) (hd : isPlainChar d = false) :
    c ≠ d := by
  rintro rfl
  rw [hc] at hd
  cases hd

theorem isBlank_of_isPlainChar {c : Char} (h : isPlainChar c = true) : isBlank c = false := by
  unfold isPlainChar at h
  simpa using (Bool.and_eq_true_iff.1 h).1

/-- A trimmed line serves as a description unless it begins with a sign that is passed over. -/
theorem Overview.descriptionLine?_cons {c : Char} {rest : Text}
    (hstrip : Text.strip (c :: rest) = c :: rest) (hstart : [c] ∉ skippedStarts) :
    descriptionLine? [c :: rest] = some (c :: rest) := by
  have hkept : (skippedStarts.any fun start => Text.startsWith (c :: rest) start) = false := by
    rw [List.any_eq_false]
    intro start hm hstarts
    have hsingle : ∀ start ∈ skippedStarts, ∃ d, start = [d] := by
      simp [skippedStarts]
    obtain ⟨d, rfl⟩ := hsingle start hm
    have hprefix : [d] <+: c :: rest := List.isPrefixOf_iff_prefix.1 hstarts
    rw [(List.cons_prefix_cons.1 hprefix).1] at hm
    exact hstart hm
  rw [descriptionLine?, List.map_singleton, hstrip, List.find?_singleton, hkept]
  rfl

namespace ShowsCall

variable {name y : Text}

/-- A linked call line begins with a character that shows and that is not passed over. -/
theorem exists_cons (hname : IsPlainName name) (h : ShowsCall name y) :
    ∃ c rest, y = c :: rest ∧ isBlank c = false ∧ [c] ∉ Overview.skippedStarts := by
  rcases h.starts with ⟨rest, rfl⟩ | ⟨rest, rfl⟩
  · exact ⟨'[', rest, rfl, by decide, by decide⟩
  · obtain ⟨c, more, rfl, hc⟩ := hname.exists_cons
    refine ⟨c, more ++ '(' :: rest, rfl, isBlank_of_isPlainChar hc, fun hm => ?_⟩
    have hsigns : (Overview.skippedStarts.all fun start => !start.any isPlainChar) = true := by
      decide
    have hsign := List.all_eq_true.1 hsigns _ hm
    rw [List.any_cons, hc] at hsign
    cases hsign

/-- A linked call line is trimmed at its end only. -/
theorem strip_eq (hname : IsPlainName name) (h : ShowsCall name y) : y.strip = y.stripEnd := by
  obtain ⟨c, rest, rfl, hc, -⟩ := h.exists_cons hname
  rw [Text.strip_eq, Text.stripStart_cons rest hc]

theorem stripEnd (h : ShowsCall name y) : ShowsCall name y.stripEnd where
  span hm := h.span ((Text.isPrefix_stripEnd y).subset hm)
  line hm := h.line ((Text.isPrefix_stripEnd y).subset hm)
  starts := by
    rcases h.starts with ⟨rest, rfl⟩ | ⟨rest, rfl⟩
    · exact .inl ⟨_, Text.dropEndWhile_append_cons (by decide) [] rest⟩
    · exact .inr ⟨_, Text.dropEndWhile_append_cons (by decide) name rest⟩

/-- A linked call line that is trimmed serves as a description. -/
theorem descriptionLine? (hname : IsPlainName name) (h : ShowsCall name y)
    (htrimmed : y.stripEnd = y) : Overview.descriptionLine? (Text.lines y) = some y := by
  have hstrip : y.strip = y := (h.strip_eq hname).trans htrimmed
  obtain ⟨c, rest, rfl, -, hstart⟩ := h.exists_cons hname
  rw [Text.lines_of_not_mem h.line]
  exact Overview.descriptionLine?_cons hstrip hstart

/-- A linked call line is not the sentence about a function. -/
theorem ne_of_saysCall {x : Text} (hname : IsPlainName name) (h : ShowsCall name y)
    (hx : SaysCall x) : y ≠ x := by
  rintro rfl
  obtain ⟨more, hmore⟩ := hx.starts
  rcases h.starts with ⟨rest, rfl⟩ | ⟨rest, rfl⟩
  · exact absurd (List.cons.inj hmore).1 (by decide)
  · -- the name would be the first word of the sentence, and the bracket after it a blank
    have hword (word : Text) (hplain : ∀ c ∈ word, isPlainChar c = true) (d : Char)
        (hd : isPlainChar d = false) (rest : Text) :
        (word ++ d :: rest).dropWhile isPlainChar = d :: rest := by
      rw [List.dropWhile_append_of_pos hplain, List.dropWhile_cons_of_neg (by simp [hd])]
    have hafter := congrArg (List.dropWhile isPlainChar) hmore
    rw [hword name hname.plain '(' (by decide)] at hafter
    have hcall := hword "Call" (List.all_eq_true.1 (by decide)) ' ' (by decide) more
    exact absurd (List.cons.inj (hcall.symm.trans hafter)).1 (by decide)

end ShowsCall

/-! ### Linking call lines -/

theorem linkBlock_paragraph (table : LinkTable) (x : Text) :
    linkBlock table (Block.paragraph x) = Block.paragraph (linkText table x) := by
  unfold linkBlock
  rw [if_pos (by rfl)]
  dsimp only
  split
  · next h =>
    have hsame : linkText table x = x := beq_iff_eq.1 h
    rw [hsame]
  · rfl

/-- A paragraph of one line is trimmed at its end. -/
theorem cleanBlock?_paragraph {x : Text} (hline : '\n' ∉ x) (hvisible : x.isAllBlank = false) :
    cleanBlock? (Block.paragraph x) = some (Block.paragraph x.stripEnd) := by
  have hclean : cleanText (Block.paragraph x).text = x.stripEnd := cleanText_of_not_mem hline
  have hstill : x.stripEnd.isAllBlank = false := (Text.isAllBlank_stripEnd x).trans hvisible
  unfold cleanBlock?
  rw [if_pos (by rfl), hclean]
  simp only [hstill]
  split
  · next h => contradiction
  · split
    · next h =>
      have hsame : x.stripEnd = x := beq_iff_eq.1 h
      rw [hsame]
    · rfl

section

variable {refs : ReferenceMap} {name form : Text}

theorem staysLiteral_iff : StaysLiteral refs form ↔
    ∀ name, (refs.href? name).isSome = true → ¬ Qualifies ⟨[], form⟩ [] name := by
  have hfree : FreeBefore [] ∧ FreeAfter [] := ⟨endsFree_iff.1 rfl, startsFree_iff.1 rfl⟩
  have hname (name : Text) :
      Qualifies ⟨[], form⟩ [] name ↔ form = name ∨ angled name <:+: form := by
    constructor
    · rintro (⟨hsame, -⟩ | ⟨-, start, rest, hangled⟩)
      · exact .inl hsame
      · exact .inr ⟨start, rest, hangled.symm⟩
    · intro h
      by_cases hsame : form = name
      · exact .inl ⟨hsame, .inr hfree⟩
      · obtain ⟨start, rest, hangled⟩ := h.resolve_left hsame
        exact .inr ⟨hsame, start, rest, hangled.symm⟩
  simp only [StaysLiteral, hname, ReferenceMap.isSome_href?_iff, ReferenceMap.namesLongestFirst,
    List.mem_mergeSort, not_or, ne_eq]

/-- The call form is one span of its line. -/
theorem linkText_inSpan (hspan : '\x60' ∉ form) (hline : '\n' ∉ form) (hfilled : form ≠ []) :
    linkText refs.linkTable (inSpan form) = linkSpan refs.linkTable ⟨[], form⟩ [] := by
  have hread : SpanLine.ofText (inSpan form) = ⟨[⟨[], form⟩], []⟩ := by
    have hline : inSpan form = [] ++ SpanLine.literal form ++ [] := (List.append_nil _).symm
    rw [hline, SpanLine.ofText_span List.not_mem_nil hspan]
    rfl
  have hfence : isFence (inSpan form) = false := by
    obtain ⟨c, rest, rfl⟩ := List.exists_cons_of_ne_nil hfilled
    rw [Bool.eq_false_iff, Ne, isFence_iff]
    intro hmarks
    obtain ⟨-, hsecond⟩ := List.cons_prefix_cons.1 hmarks
    exact hspan ((List.cons_prefix_cons.1 hsecond).1 ▸ List.mem_cons_self)
  have hone : Text.lines (inSpan form) = [inSpan form] :=
    Text.lines_of_not_mem (by simpa [inSpan] using hline)
  rw [linkText, hone, linkLines, if_neg (by simp [hfence]), linkLines, linkLine, hread]
  simp [SpanLine.render, Text.unlines, Text.joinWith]

/-- Escaping leaves what comes before the arguments of a call as it is. -/
theorem escapeInline_append_cons (hname : IsPlainName name) (x : Text) :
    Markup.escapeInline (name ++ '(' :: x) = name ++ '(' :: Markup.escapeInline x := by
  have hchar : ∀ c ∈ name, Markup.escapeInlineChar c = [c] := by
    intro c hc
    have hplain := hname.plain c hc
    have hbrace : c ≠ '\x7b' := ne_of_isPlainChar hplain (by decide)
    have hbrace' : c ≠ '\x7d' := ne_of_isPlainChar hplain (by decide)
    have hless : c ≠ '<' := ne_of_isPlainChar hplain (by decide)
    have hgreater : c ≠ '>' := ne_of_isPlainChar hplain (by decide)
    simp [Markup.escapeInlineChar, hbrace, hbrace', hless, hgreater]
  rw [Markup.escapeInline, List.flatMap_append, List.flatMap_congr hchar, List.flatMap_singleton']
  rfl

/-- A link form of a call begins with the link or as the call does. -/
theorem LinkForm.showsCall {target href image : Text} (h : LinkForm ⟨[], form⟩ [] target href image)
    (hname : IsPlainName name) (hform : name ++ ['('] <+: form) (hspan : '\x60' ∉ form)
    (hline : '\n' ∉ form) (hhref : '\x60' ∉ href ∧ '\n' ∉ href) : ShowsCall name image := by
  have hnewline : '\n' ∉ image := h.newline_not_mem hline hhref.2
  have hfirst : ¬ EndsInParameter [] := fun h => absurd (endsInParameter_iff.2 h) (by decide)
  cases h with
  | parameter _ hends => exact absurd hends hfirst
  | free hsame =>
      exact ⟨not_mem_linkTo (by decide) (hsame ▸ hspan) hhref.1, hnewline, .inl ⟨_, rfl⟩⟩
  | @generic start rest _ hx _ =>
      refine ⟨not_mem_genericForm (by decide) hx hspan hhref.1, hnewline, .inr ?_⟩
      -- the arguments open before the first angle bracket
      have hless : '<' ∉ name ++ ['('] := fun hm => by
        rcases List.mem_append.1 hm with hm | hm
        · exact ne_of_isPlainChar (hname.plain _ hm) (by decide) rfl
        · cases hm with
          | tail _ hm => cases hm
      have hx : form = start ++ '<' :: (target ++ ['>'] ++ rest) := by
        rw [show form = _ from hx, angled]
        simp
      rw [hx] at hform
      obtain ⟨more, rfl⟩ := isPrefix_of_append_cons hform hless
      have hstart : name ++ ['('] ++ more ++ ['<'] = name ++ '(' :: (more ++ ['<']) := by simp
      rw [hstart, escapeInline_append_cons hname, List.append_assoc, List.append_assoc,
        List.cons_append]
      exact ⟨_, rfl⟩

theorem ShowsCall.isAllBlank_eq_false {y : Text} (hname : IsPlainName name) (h : ShowsCall name y) :
    y.isAllBlank = false := by
  obtain ⟨c, rest, rfl, hc, -⟩ := h.exists_cons hname
  rw [Text.isAllBlank, List.all_cons, hc, Bool.false_and]

/-- A linked call line that is trimmed is left alone. -/
theorem ShowsCall.finishBlock? {y : Text} (hname : IsPlainName name) (h : ShowsCall name y)
    (htrimmed : y.stripEnd = y) :
    finishBlock? refs.linkTable (Block.paragraph y) = some (Block.paragraph y) :=
  finishBlock?_paragraph refs h.span h.line htrimmed (h.isAllBlank_eq_false hname)

/-- A call line stays as it is where its form stays a literal span.  Otherwise it is linked, and
then it shows the call without backticks. -/
theorem finish_callLine (hname : IsPlainName name) (hform : name ++ ['('] <+: form)
    (hspan : '\x60' ∉ form) (hline : '\n' ∉ form)
    (hhref : ∀ target href, refs.href? target = some href → '\x60' ∉ href ∧ '\n' ∉ href) :
    StaysLiteral refs form ∧ finishBlock? refs.linkTable (Block.paragraph (inSpan form)) =
        some (Block.paragraph (inSpan form)) ∨
      ¬ StaysLiteral refs form ∧ ∃ y, ShowsCall name y ∧ y.stripEnd = y ∧
        finishBlock? refs.linkTable (Block.paragraph (inSpan form)) = some (Block.paragraph y) := by
  have hfilled : form ≠ [] := fun e => by
    rw [e, List.prefix_nil] at hform
    exact absurd hform (by simp)
  have himage : SpanImage refs.href? ⟨[], form⟩ [] (linkSpan refs.linkTable ⟨[], form⟩ []) :=
    spanImage_iff.2 rfl
  rw [finishBlock?, linkBlock_paragraph, linkText_inSpan hspan hline hfilled, staysLiteral_iff]
  generalize linkSpan refs.linkTable ⟨[], form⟩ [] = image at himage
  cases himage with
  | literal hno =>
      refine .inl ⟨hno, ?_⟩
      have hline' : '\n' ∉ SpanLine.literal form := by simpa [SpanLine.literal] using hline
      rw [cleanBlock?_paragraph hline' rfl]
      have hend : (SpanLine.literal form).stripEnd = SpanLine.literal form :=
        Text.stripEnd_concat (x := '\x60' :: form) (by decide)
      rw [hend]
      rfl
  | @linked target href image hfound hmin himage =>
      refine .inr ⟨fun hno => ?_, image.stripEnd, ?_⟩
      · have hqualifies : Qualifies ⟨[], form⟩ [] target :=
          isSome_linkedSpan?_iff.1
            (Option.isSome_iff_exists.2 ⟨image, linkedSpan?_eq_some_iff.2 himage⟩)
        exact hno target (Option.isSome_iff_exists.2 ⟨href, hfound⟩) hqualifies
      · have hshows := himage.showsCall hname hform hspan hline (hhref target href hfound)
        exact ⟨hshows.stripEnd, Text.stripEnd_stripEnd _,
          cleanBlock?_paragraph hshows.line (hshows.isAllBlank_eq_false hname)⟩

end

end ApiReference
