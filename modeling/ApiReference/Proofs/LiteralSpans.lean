import ApiReference.Proofs.Reread

/-! # Literal spans of linked lines

Literal spans are found by pairing backticks from the left, so one backtick more or less would pair all
later ones anew.  Linking a line does not do that, whatever names are tried in whatever order, as long as
the addresses hold no backticks: the spans of the linked line are those of the line that were left alone
or linked around, in their order and each in its place (`literalSpans_linkLine`). -/

namespace ApiReference

/-! ### Finding literal spans -/

/-- The literal spans from a place on; `opened` holds what was read since a backtick that may open a
span. -/
def literalSpansFrom : Option Text → Text → List Text
  | _, [] => []
  | none, c :: rest => literalSpansFrom (if c = '\x60' then some [] else none) rest
  | some inner, c :: rest =>
    if c = '\x60' then inner :: literalSpansFrom none rest
    else literalSpansFrom (if c = '\n' then none else some (inner ++ [c])) rest

/-- The literal spans of a text from the left: what stands between two backticks on one line. -/
def literalSpans (x : Text) : List Text := literalSpansFrom none x

/-- Going through the text, these spans are found, and none is open at its end. -/
def ScansTo (x : Text) (spans : List Text) : Prop :=
  ∀ rest, literalSpans (x ++ rest) = spans ++ literalSpans rest

namespace ScansTo

variable {x y : Text} {spans more : List Text}

theorem append (hx : ScansTo x spans) (hy : ScansTo y more) : ScansTo (x ++ y) (spans ++ more) := by
  intro rest
  rw [List.append_assoc, hx, hy, List.append_assoc]

theorem of_not_mem (h : '\x60' ∉ x) : ScansTo x [] := by
  induction x with
  | nil => exact fun rest => rfl
  | cons c x ih =>
      rw [List.mem_cons, not_or] at h
      intro rest
      rw [List.cons_append, literalSpans, literalSpansFrom, if_neg (Ne.symm h.1)]
      exact ih h.2 rest

theorem literalSpansFrom_append {inner : Text} (hmark : '\x60' ∉ inner) (hline : '\n' ∉ inner)
    (opened rest : Text) : literalSpansFrom (some opened) (inner ++ '\x60' :: rest) =
      (opened ++ inner) :: literalSpans rest := by
  induction inner generalizing opened with
  | nil => rw [List.nil_append, literalSpansFrom, if_pos rfl, List.append_nil]; rfl
  | cons c inner ih =>
      rw [List.mem_cons, not_or] at hmark hline
      rw [List.cons_append, literalSpansFrom, if_neg (Ne.symm hmark.1), if_neg (Ne.symm hline.1),
        ih hmark.2 hline.2, List.append_assoc, List.singleton_append]

theorem literal {inner : Text} (hmark : '\x60' ∉ inner) (hline : '\n' ∉ inner) :
    ScansTo (SpanLine.literal inner) [inner] := by
  intro rest
  have e : SpanLine.literal inner ++ rest = '\x60' :: (inner ++ '\x60' :: rest) := by
    simp [SpanLine.literal]
  rw [e, literalSpans, literalSpansFrom, if_pos rfl, literalSpansFrom_append hmark hline]
  rfl

end ScansTo

theorem literalSpansFrom_of_not_mem {x : Text} (h : '\x60' ∉ x) (opened : Option Text) :
    literalSpansFrom opened x = [] := by
  induction x generalizing opened with
  | nil => rw [literalSpansFrom]
  | cons c x ih =>
      rw [List.mem_cons, not_or] at h
      cases opened with
      | none => rw [literalSpansFrom, ih h.2]
      | some inner => rw [literalSpansFrom, if_neg (Ne.symm h.1), ih h.2]

/-- One backtick alone makes no span. -/
theorem literalSpans_of_count {x : Text} (h : x.count '\x60' ≤ 1) : literalSpans x = [] := by
  by_cases hm : '\x60' ∈ x
  · obtain ⟨start, rest, rfl⟩ := List.append_of_mem hm
    rw [List.count_append, List.count_cons_self] at h
    have hstart : '\x60' ∉ start := List.count_eq_zero.1 (by omega)
    have hrest : '\x60' ∉ rest := List.count_eq_zero.1 (by omega)
    rw [ScansTo.of_not_mem hstart, literalSpans, literalSpansFrom, literalSpansFrom_of_not_mem hrest]
    rfl
  · exact literalSpansFrom_of_not_mem hm none

/-! ### Spans that are kept -/

/-- The link form is a link around the literal span. -/
def linksAround (table : LinkTable) (inner image : Text) : Bool :=
  table.any fun entry => entry.2.any fun href => image == linkTo (SpanLine.literal inner) href

/-- The span with the text after it is left alone or linked around. -/
def keepsSpan (table : LinkTable) (place : Span × Text) : Bool :=
  (linkSpan? table place.1.inner place.1.before place.2).all (linksAround table place.1.inner)

/-- The spans that are left alone or linked around. -/
def keptSpans (table : LinkTable) (places : List (Span × Text)) : List Text :=
  (places.filter (keepsSpan table)).map (·.1.inner)

theorem keptSpans_append (table : LinkTable) (places more : List (Span × Text)) :
    keptSpans table (places ++ more) = keptSpans table places ++ keptSpans table more := by
  rw [keptSpans, List.filter_append, List.map_append]
  rfl

/-- A link form is that of a name of the table with its address. -/
theorem exists_linkForm_of_linkSpan? {table : LinkTable} {span : Span} {after image : Text}
    (h : linkSpan? table span.inner span.before after = some image) :
    ∃ name href, (name, some href) ∈ table ∧ LinkForm span after name href image := by
  obtain ⟨⟨name, href?⟩, hentry, h⟩ := List.exists_of_findSome?_eq_some h
  cases href? with
  | none => cases h
  | some href =>
      dsimp only at h
      split at h
      · cases h
      · exact ⟨name, href, hentry, linkedSpan?_eq_some_iff.1 h⟩

section places

variable {table : LinkTable} (hplain : ∀ entry ∈ table, ∀ href ∈ entry.2, '\x60' ∉ href)

include hplain

/-- A span that is kept stands between texts without backticks. -/
theorem exists_around_of_keepsSpan {place : Span × Text} (h : keepsSpan table place = true) :
    ∃ front back, linkSpan table place.1 place.2 =
        front ++ SpanLine.literal place.1.inner ++ back ∧ '\x60' ∉ front ∧ '\x60' ∉ back := by
  rw [keepsSpan] at h
  rw [linkSpan]
  cases hlink : linkSpan? table place.1.inner place.1.before place.2 with
  | none => exact ⟨[], [], by simp, List.not_mem_nil, List.not_mem_nil⟩
  | some image =>
      rw [hlink, Option.all_some, linksAround, List.any_eq_true] at h
      obtain ⟨entry, hentry, h⟩ := h
      obtain ⟨href, hhref, h⟩ := (Option.any_eq_true _ _).1 h
      rw [beq_iff_eq] at h
      refine ⟨['['], "](" ++ href ++ [')'], ?_, by decide, ?_⟩
      · rw [h]
        simp [linkTo]
      · simp [hplain entry hentry href hhref]

/-- A link form is a link around the type of a parameter or holds no backticks. -/
theorem linkedParameter_or_not_mem {place : Span × Text} {image : Text} (hi : '\x60' ∉ place.1.inner)
    (h : linkSpan? table place.1.inner place.1.before place.2 = some image) :
    (∃ href, (place.1.inner, some href) ∈ table ∧ EndsInParameter place.1.before ∧
        image = linkTo (SpanLine.literal place.1.inner) href) ∨ '\x60' ∉ image := by
  obtain ⟨name, href, hentry, hform⟩ := exists_linkForm_of_linkSpan? h
  have hhref : '\x60' ∉ href := hplain _ hentry href rfl
  cases hform with
  | parameter hs hp => exact .inl ⟨href, hs ▸ hentry, hp, by rw [hs]⟩
  | free hs => exact .inr (not_mem_linkTo (by decide) (hs ▸ hi) hhref)
  | generic _ hx _ => exact .inr (not_mem_genericForm (by decide) hx hi hhref)

/-- The spans that are kept are those that no name was found for and the types of parameters. -/
theorem keepsSpan_iff {place : Span × Text} (hi : '\x60' ∉ place.1.inner) :
    keepsSpan table place = true ↔
      linkSpan? table place.1.inner place.1.before place.2 = none ∨
        ∃ href, (place.1.inner, some href) ∈ table ∧ EndsInParameter place.1.before ∧
          linkSpan? table place.1.inner place.1.before place.2 =
            some (linkTo (SpanLine.literal place.1.inner) href) := by
  constructor
  · intro h
    obtain ⟨front, back, e, -, -⟩ := exists_around_of_keepsSpan hplain h
    rw [linkSpan] at e
    cases hlink : linkSpan? table place.1.inner place.1.before place.2 with
    | none => exact .inl rfl
    | some image =>
        rcases linkedParameter_or_not_mem hplain hi hlink with ⟨href, hentry, hp, rfl⟩ | hmark
        · exact .inr ⟨href, hentry, hp, rfl⟩
        · rw [hlink, Option.getD_some] at e
          exact absurd (by simp [e, SpanLine.literal]) hmark
  · rintro (hlink | ⟨href, hentry, -, hlink⟩)
    · rw [keepsSpan, hlink, Option.all_none]
    · rw [keepsSpan, hlink, Option.all_some, linksAround, List.any_eq_true]
      exact ⟨_, hentry, by simp⟩

/-- A span that is not kept is running text without backticks. -/
theorem not_mem_linkSpan_of_not_keepsSpan {place : Span × Text} (hi : '\x60' ∉ place.1.inner)
    (h : keepsSpan table place = false) : '\x60' ∉ linkSpan table place.1 place.2 := by
  have hnot := mt (keepsSpan_iff hplain hi).2 (by simp [h])
  rw [not_or] at hnot
  obtain ⟨image, hlink⟩ := Option.ne_none_iff_exists'.1 hnot.1
  rw [linkSpan, hlink, Option.getD_some]
  rcases linkedParameter_or_not_mem hplain hi hlink with ⟨href, hentry, hp, rfl⟩ | hmark
  · exact absurd ⟨href, hentry, hp, hlink⟩ hnot.2
  · exact hmark

/-- Going through what becomes of one span, it is found if it is kept. -/
theorem scansTo_place {place : Span × Text} (hb : '\x60' ∉ place.1.before)
    (hi : '\x60' ∉ place.1.inner) (hline : '\n' ∉ place.1.inner) :
    ScansTo (place.1.before ++ linkSpan table place.1 place.2) (keptSpans table [place]) := by
  have hlinked : ScansTo (linkSpan table place.1 place.2) (keptSpans table [place]) := by
    cases h : keepsSpan table place with
    | true =>
        obtain ⟨front, back, e, hfront, hback⟩ := exists_around_of_keepsSpan hplain h
        have hkept : keptSpans table [place] = [] ++ [place.1.inner] ++ [] := by
          simp [keptSpans, h]
        rw [e, hkept]
        exact ((ScansTo.of_not_mem hfront).append (.literal hi hline)).append (.of_not_mem hback)
    | false =>
        have hkept : keptSpans table [place] = [] := by
          simp [keptSpans, h]
        rw [hkept]
        exact .of_not_mem (not_mem_linkSpan_of_not_keepsSpan hplain hi h)
  exact (ScansTo.of_not_mem hb).append hlinked

end places

/-! ### Linked lines -/

/-- What becomes of spans, each with the text before it. -/
def writtenPlaces (table : LinkTable) (places : List (Span × Text)) : Text :=
  places.flatMap fun place => place.1.before ++ linkSpan table place.1 place.2

theorem writtenPlaces_append (table : LinkTable) (places more : List (Span × Text)) :
    writtenPlaces table (places ++ more) = writtenPlaces table places ++ writtenPlaces table more :=
  List.flatMap_append

theorem linkLine_eq_writtenPlaces (table : LinkTable) (line : Text) :
    linkLine table line =
      writtenPlaces table (SpanLine.placedOf line) ++ (SpanLine.ofText line).tail := by
  have hrender (tail : Text) (spans : List Span) : SpanLine.render (linkSpan table) tail spans =
      writtenPlaces table (SpanLine.placed tail spans) ++ tail := by
    induction spans with
    | nil => rfl
    | cons span more ih =>
        rw [SpanLine.render_cons, ih, SpanLine.placed, writtenPlaces, writtenPlaces,
          List.flatMap_cons]
        simp
  exact hrender _ _

/-- Without names, a line stays as it is. -/
theorem linkLine_nil (line : Text) : linkLine [] line = line := (SpanLine.reads_ofText line).written

/-- The spans of a line and the texts between them hold no marks of spans. -/
theorem plain_of_mem_placedOf {line : Text} (hline : '\n' ∉ line) :
    ∀ place ∈ SpanLine.placedOf line,
      '\x60' ∉ place.1.before ∧ '\x60' ∉ place.1.inner ∧ '\n' ∉ place.1.inner := by
  intro place hp
  obtain ⟨-, hspans, -⟩ := SpanLine.reads_ofText line
  obtain ⟨hb, hi⟩ := hspans place.1 (SpanLine.mem_of_mem_placed hp)
  refine ⟨hb, hi, fun hm => hline ?_⟩
  rw [← linkLine_nil line, linkLine_eq_writtenPlaces]
  refine List.mem_append_left _ (List.mem_flatMap.2 ⟨place, hp, List.mem_append_right _ ?_⟩)
  simp [linkSpan, linkSpan?, SpanLine.literal, hm]

section lines

variable {table : LinkTable} (hplain : ∀ entry ∈ table, ∀ href ∈ entry.2, '\x60' ∉ href)

include hplain

/-- Going through what becomes of spans, those that are kept are found. -/
theorem scansTo_writtenPlaces {places : List (Span × Text)}
    (h : ∀ place ∈ places,
      '\x60' ∉ place.1.before ∧ '\x60' ∉ place.1.inner ∧ '\n' ∉ place.1.inner) :
    ScansTo (writtenPlaces table places) (keptSpans table places) := by
  induction places with
  | nil => exact fun rest => rfl
  | cons place places ih =>
      obtain ⟨hb, hi, hline⟩ := h place List.mem_cons_self
      rw [← List.singleton_append, writtenPlaces_append, keptSpans_append, writtenPlaces,
        List.flatMap_singleton]
      exact (scansTo_place hplain hb hi hline).append
        (ih fun other hm => h other (List.mem_cons_of_mem _ hm))

theorem literalSpans_linkLine_eq {line : Text} (hline : '\n' ∉ line) :
    literalSpans (linkLine table line) = keptSpans table (SpanLine.placedOf line) := by
  rw [linkLine_eq_writtenPlaces, scansTo_writtenPlaces hplain (plain_of_mem_placedOf hline),
    literalSpans_of_count (SpanLine.reads_ofText line).tail, List.append_nil]

end lines

/-- The spans of a line are those that are found from the left. -/
theorem literalSpans_eq_placedOf {line : Text} (hline : '\n' ∉ line) :
    literalSpans line = (SpanLine.placedOf line).map (·.1.inner) := by
  have hall : keptSpans [] (SpanLine.placedOf line) = (SpanLine.placedOf line).map (·.1.inner) := by
    have hkept : ∀ place ∈ SpanLine.placedOf line, keepsSpan [] place = true := fun _ _ => rfl
    rw [keptSpans, List.filter_eq_self.2 hkept]
  rw [← hall, ← literalSpans_linkLine_eq (by simp) hline, linkLine_nil]

/-- The spans of a linked line are, in their order, those spans of the line that were left alone or, as
the types of parameters, linked around.  Each of them is where it was: before it come, with no span left
open, the kept ones of the spans before it, and after it those of the spans after it. -/
theorem literalSpans_linkLine {table : LinkTable}
    (hplain : ∀ entry ∈ table, ∀ href ∈ entry.2, '\x60' ∉ href) {line : Text} (hline : '\n' ∉ line) :
    literalSpans line = (SpanLine.placedOf line).map (·.1.inner) ∧
      literalSpans (linkLine table line) = keptSpans table (SpanLine.placedOf line) ∧
      (∀ place ∈ SpanLine.placedOf line, keepsSpan table place = true ↔
        linkSpan? table place.1.inner place.1.before place.2 = none ∨
          ∃ href, (place.1.inner, some href) ∈ table ∧ EndsInParameter place.1.before ∧
            linkSpan? table place.1.inner place.1.before place.2 =
              some (linkTo (SpanLine.literal place.1.inner) href)) ∧
      ∀ before place after, SpanLine.placedOf line = before ++ place :: after →
        keepsSpan table place = true →
          ∃ start rest, linkLine table line = start ++ SpanLine.literal place.1.inner ++ rest ∧
            ScansTo start (keptSpans table before) ∧ literalSpans rest = keptSpans table after := by
  refine ⟨literalSpans_eq_placedOf hline, literalSpans_linkLine_eq hplain hline,
    fun place hp => keepsSpan_iff hplain (plain_of_mem_placedOf hline place hp).2.1,
    fun before place after hsplit hkept => ?_⟩
  have hplaces := plain_of_mem_placedOf hline
  rw [hsplit, List.forall_mem_append, List.forall_mem_cons] at hplaces
  obtain ⟨hbefore, hplace, hafter⟩ := hplaces
  obtain ⟨front, back, e, hfront, hback⟩ := exists_around_of_keepsSpan hplain hkept
  refine ⟨writtenPlaces table before ++ (place.1.before ++ front),
    back ++ (writtenPlaces table after ++ (SpanLine.ofText line).tail), ?_, ?_, ?_⟩
  · rw [linkLine_eq_writtenPlaces, hsplit, ← List.singleton_append, writtenPlaces_append,
      writtenPlaces_append, writtenPlaces.eq_1 table [place], List.flatMap_singleton, e]
    simp only [List.append_assoc]
  · have hgap : ScansTo (place.1.before ++ front) [] :=
      .of_not_mem (by simp [hplace.1, hfront])
    have hstart := (scansTo_writtenPlaces hplain hbefore).append hgap
    rwa [List.append_nil] at hstart
  · rw [ScansTo.of_not_mem hback, List.nil_append, scansTo_writtenPlaces hplain hafter,
      literalSpans_of_count (SpanLine.reads_ofText line).tail, List.append_nil]

/-- Two names that lead to pages. -/
def userAndStatus : LinkTable := [("User", some "/api/user"), ("Status", some "/api/status")]

/-- A parameter, an empty span right after it, two spans that lose their backticks, with one right after
the second, and a backtick without another. -/
def oddLine : Text :=
  "**a**: \x60User\x60\x60\x60 \x60Status\x60, \x60P<User>\x60\x60c\x60 \x60"

theorem literalSpans_linkLine_oddLine :
    literalSpans oddLine = ["User", "", "Status", "P<User>", "c"] ∧
      literalSpans (linkLine userAndStatus oddLine) = ["User", "", "c"] := by
  have hplain : ∀ entry ∈ userAndStatus, ∀ href ∈ entry.2, '\x60' ∉ href := by
    decide
  obtain ⟨hspans, hkept, -⟩ := literalSpans_linkLine hplain (by decide : '\n' ∉ oddLine)
  exact ⟨hspans.trans (by decide +kernel), hkept.trans (by decide +kernel)⟩

end ApiReference
