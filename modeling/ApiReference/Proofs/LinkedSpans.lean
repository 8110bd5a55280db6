import ApiReference.Proofs.Lines
import ApiReference.Proofs.Names
import ApiReference.Proofs.Spans

/-! # What linking does

Linking is described without the order in which names are tried and without the places where texts
are cut: which names qualify for a span (`Qualifies`), what a span becomes (`SpanImage`), and what
becomes of a line, of lines with fences among them, and of a block (`LinkedLine`, `LinkedLines`,
`LinkedBlock`).  All of it goes by the addresses of names alone, and the linked document is the only
one that fits the description (`Document.link_spec`). -/

namespace ApiReference

/-! ### Where a name stands free -/

/-- The text ends in what introduces the type of a parameter. -/
def EndsInParameter (x : Text) : Prop :=
  ∃ start word : Text, word ≠ [] ∧ (∀ c ∈ word, isWordChar c = true) ∧
    (x = start ++ "**" ++ word ++ "**: " ∨ x = start ++ word ++ ": " ∨ x = start ++ word ++ "?: ")

/-- Nothing or a blank stands before. -/
def FreeBefore (before : Text) : Prop :=
  before = [] ∨ ∃ start c, isBlank c = true ∧ before = start ++ [c]

/-- Nothing, a blank or a mark that ends a phrase stands after. -/
def FreeAfter (after : Text) : Prop :=
  after = [] ∨ ∃ c rest, (isBlank c = true ∨ c ∈ ['.', ',', ';', ':', ')', '>']) ∧ after = c :: rest

theorem endsFree_iff {before : Text} : endsFree before = true ↔ FreeBefore before := by
  unfold endsFree FreeBefore
  obtain rfl | ⟨start, c, rfl⟩ := List.eq_nil_or_concat before
  · simp
  · rw [List.concat_eq_append, List.getLast?_concat, Option.all_some]
    constructor
    · exact fun h => .inr ⟨start, c, h, rfl⟩
    · rintro (h | ⟨start', d, hd, e⟩)
      · simp at h
      · obtain ⟨_, e⟩ := List.append_inj' e rfl
        rwa [(List.cons.inj e).1]

theorem startsFree_iff {after : Text} : startsFree after = true ↔ FreeAfter after := by
  unfold startsFree FreeAfter
  cases after with
  | nil => simp
  | cons c rest => simp [or_assoc]

theorem endsInWord_iff {x : Text} :
    endsInWord x = true ↔ ∃ start c, isWordChar c = true ∧ x = start ++ [c] := by
  unfold endsInWord
  obtain rfl | ⟨start, c, rfl⟩ := List.eq_nil_or_concat x
  · simp
  · rw [List.concat_eq_append, List.getLast?_concat, Option.any_some]
    constructor
    · exact fun h => ⟨start, c, h, rfl⟩
    · rintro ⟨start', d, hd, e⟩
      obtain ⟨_, e⟩ := List.append_inj' e rfl
      rwa [(List.cons.inj e).1]

theorem endsInBoldWord_iff {x : Text} :
    endsInBoldWord x = true ↔ ∃ start word : Text, word ≠ [] ∧ (∀ c ∈ word, isWordChar c = true) ∧
      x = start ++ "**" ++ word ++ "**" := by
  have hstars : ("**" : Text) = ['*', '*'] := rfl
  constructor
  · intro h
    unfold endsInBoldWord at h
    split at h
    · next rest e =>
      simp only [Bool.and_eq_true, Bool.not_eq_true', List.isEmpty_eq_false_iff] at h
      obtain ⟨start, hs⟩ := List.isPrefixOf_iff_prefix.1 h.2
      have hrest : rest = rest.takeWhile isWordChar ++ ("**" ++ start) := by
        rw [hs, List.takeWhile_append_dropWhile]
      refine ⟨start.reverse, (rest.takeWhile isWordChar).reverse, by simpa using h.1, ?_, ?_⟩
      · exact fun c hc => List.mem_takeWhile_imp (List.mem_reverse.1 hc)
      · rw [← List.reverse_reverse x, e]
        conv_lhs => rw [hrest]
        simp [hstars]
    · cases h
  · rintro ⟨start, word, hne, hword, rfl⟩
    have hword' : ∀ c ∈ word.reverse, isWordChar c = true := fun c hc =>
      hword c (List.mem_reverse.1 hc)
    have hstar : isWordChar '*' = false := by decide
    have hrev : (start ++ "**" ++ word ++ "**").reverse =
        '*' :: '*' :: (word.reverse ++ '*' :: '*' :: start.reverse) := by
      simp [hstars]
    unfold endsInBoldWord
    rw [hrev]
    simp [List.takeWhile_append_of_pos hword', List.dropWhile_append_of_pos hword', hstar, hne,
      Text.startsWith]

/-- A parameter is introduced by a word and a question mark, by a word, or by a word in bold. -/
theorem endsInParameter_iff_of_words {x : Text} :
    endsInParameter x = true ↔ ∃ y, x = y ++ "?: " ∧ endsInWord y = true ∨
      x = y ++ ": " ∧ (endsInWord y = true ∨ endsInBoldWord y = true) := by
  have hasked : ("?: " : Text) = ['?', ':', ' '] := rfl
  have hplain : (": " : Text) = [':', ' '] := rfl
  constructor
  · intro h
    unfold endsInParameter at h
    split at h
    · next rest e =>
      exact ⟨rest.reverse, .inl ⟨by rw [← List.reverse_reverse x, e]; simp [hasked], h⟩⟩
    · next rest _ e =>
      rw [Bool.or_eq_true] at h
      exact ⟨rest.reverse, .inr ⟨by rw [← List.reverse_reverse x, e]; simp [hplain], h⟩⟩
    · cases h
  · rintro ⟨y, ⟨rfl, h⟩ | ⟨rfl, h⟩⟩
    · have hrev : (y ++ "?: ").reverse = ' ' :: ':' :: '?' :: y.reverse := by simp [hasked]
      unfold endsInParameter
      rw [hrev]
      show endsInWord y.reverse.reverse = true
      rw [List.reverse_reverse, h]
    · have hrev : (y ++ ": ").reverse = ' ' :: ':' :: y.reverse := by simp [hplain]
      have hfirst : ∀ rest, y.reverse ≠ '?' :: rest := by
        intro rest e
        have hy : y = rest.reverse ++ ['?'] := by rw [← List.reverse_reverse y, e]; simp
        have hquestion : isWordChar '?' = false := by decide
        rcases h with h | h
        · rw [hy, endsInWord, List.getLast?_concat, Option.any_some, hquestion] at h
          cases h
        · rw [hy, endsInBoldWord, List.reverse_append] at h
          cases h
      unfold endsInParameter
      rw [hrev]
      split
      · next rest e => exact absurd (List.cons.inj (List.cons.inj e).2).2 (hfirst rest)
      · next rest _ e =>
        rw [← (List.cons.inj (List.cons.inj e).2).2, List.reverse_reverse, Bool.or_eq_true]
        exact h
      · next _ hno => exact absurd rfl (hno y.reverse)

theorem endsInParameter_iff {x : Text} : endsInParameter x = true ↔ EndsInParameter x := by
  have hbold : ("**: " : Text) = "**" ++ ": " := rfl
  have hword (start : Text) {word : Text} (hne : word ≠ [])
      (h : ∀ c ∈ word, isWordChar c = true) : endsInWord (start ++ word) = true := by
    obtain e | ⟨front, c, rfl⟩ := List.eq_nil_or_concat word
    · exact absurd e hne
    · rw [List.concat_eq_append] at h ⊢
      exact endsInWord_iff.2 ⟨start ++ front, c, h c (by simp), by rw [List.append_assoc]⟩
  rw [endsInParameter_iff_of_words]
  constructor
  · rintro ⟨y, ⟨rfl, h⟩ | ⟨rfl, h | h⟩⟩
    · obtain ⟨start, c, hc, rfl⟩ := endsInWord_iff.1 h
      exact ⟨start, [c], List.cons_ne_nil _ _, by simpa using hc, .inr (.inr rfl)⟩
    · obtain ⟨start, c, hc, rfl⟩ := endsInWord_iff.1 h
      exact ⟨start, [c], List.cons_ne_nil _ _, by simpa using hc, .inr (.inl rfl)⟩
    · obtain ⟨start, word, hne, hall, rfl⟩ := endsInBoldWord_iff.1 h
      exact ⟨start, word, hne, hall, .inl (by rw [hbold, ← List.append_assoc])⟩
  · rintro ⟨start, word, hne, hall, rfl | rfl | rfl⟩
    · refine ⟨start ++ "**" ++ word ++ "**", .inr ⟨by rw [hbold, ← List.append_assoc], .inr ?_⟩⟩
      exact endsInBoldWord_iff.2 ⟨start, word, hne, hall, rfl⟩
    · exact ⟨start ++ word, .inr ⟨rfl, .inl (hword start hne hall)⟩⟩
    · exact ⟨start ++ word, .inl ⟨rfl, hword start hne hall⟩⟩

/-! ### The leftmost place of a text in another -/

theorem Text.cutAt?_eq_some {needle x start rest : Text}
    (h : Text.cutAt? needle x = some (start, rest)) :
    x = start ++ needle ++ rest ∧
      ∀ start' rest', x = start' ++ needle ++ rest' → start.length ≤ start'.length := by
  induction x generalizing start with
  | nil =>
      rw [Text.cutAt?] at h
      split at h
      · next hn =>
        obtain ⟨rfl, rfl⟩ := Prod.mk.inj (Option.some.inj h)
        rw [List.isEmpty_iff] at hn
        exact ⟨by rw [hn]; rfl, fun _ _ _ => Nat.zero_le _⟩
      · cases h
  | cons c x ih =>
      rw [Text.cutAt?] at h
      split at h
      · next hp =>
        obtain ⟨rfl, rfl⟩ := Prod.mk.inj (Option.some.inj h)
        obtain ⟨rest, e⟩ := List.isPrefixOf_iff_prefix.1 hp
        refine ⟨?_, fun _ _ _ => Nat.zero_le _⟩
        rw [← e, List.drop_left, List.nil_append]
      · next hp =>
        obtain ⟨⟨before, after⟩, hc, e⟩ := Option.map_eq_some_iff.1 h
        obtain ⟨rfl, rfl⟩ := Prod.mk.inj e
        obtain ⟨hx, hmin⟩ := ih hc
        refine ⟨by rw [hx]; rfl, fun start' rest' e => ?_⟩
        cases start' with
        | nil =>
            refine absurd (List.isPrefixOf_iff_prefix.2 ⟨rest', ?_⟩) hp
            rw [e, List.nil_append]
        | cons d start' => exact Nat.succ_le_succ (hmin start' rest' (List.cons.inj e).2)

theorem Text.cutAt?_eq_none {needle x : Text} (h : Text.cutAt? needle x = none)
    (start rest : Text) : x ≠ start ++ needle ++ rest := by
  induction x generalizing start with
  | nil =>
      intro e
      rw [Text.cutAt?] at h
      split at h
      · cases h
      · next hn =>
        have hnil := (List.append_eq_nil_iff.1 (List.append_eq_nil_iff.1 e.symm).1).2
        simp [hnil] at hn
  | cons c x ih =>
      intro e
      rw [Text.cutAt?] at h
      split at h
      · cases h
      · next hp =>
        cases start with
        | nil =>
            refine absurd (List.isPrefixOf_iff_prefix.2 ⟨rest, ?_⟩) hp
            rw [e, List.nil_append]
        | cons d start => exact ih (Option.map_eq_none_iff.1 h) start (List.cons.inj e).2

/-- A text is cut at the first place where the given one stands, if there is one. -/
theorem Text.cutAt?_eq_some_iff {needle x start rest : Text} :
    Text.cutAt? needle x = some (start, rest) ↔
      x = start ++ needle ++ rest ∧
        ∀ start' rest', x = start' ++ needle ++ rest' → start.length ≤ start'.length := by
  refine ⟨Text.cutAt?_eq_some, fun ⟨hx, hmin⟩ => ?_⟩
  cases e : Text.cutAt? needle x with
  | none => exact absurd hx (Text.cutAt?_eq_none e start rest)
  | some cut =>
      obtain ⟨start', rest'⟩ := cut
      obtain ⟨hx', hmin'⟩ := Text.cutAt?_eq_some e
      have hlen : start'.length = start.length :=
        Nat.le_antisymm (hmin' start rest hx) (hmin start' rest' hx')
      rw [hx', List.append_assoc, List.append_assoc] at hx
      obtain ⟨rfl, hrest⟩ := List.append_inj hx hlen
      rw [List.append_cancel_left hrest]

/-! ### One span and one name -/

/-- A name in angle brackets. -/
def angled (name : Text) : Text := ['<'] ++ name ++ ['>']

/-- The name is to be linked in the span: the span is the name and names a parameter's type or stands
free, or it holds the name in angle brackets. -/
def Qualifies (span : Span) (after name : Text) : Prop :=
  span.inner = name ∧ (EndsInParameter span.before ∨ FreeBefore span.before ∧ FreeAfter after) ∨
    span.inner ≠ name ∧ ∃ start rest, span.inner = start ++ angled name ++ rest

/-- What the span becomes by a name that qualifies. -/
inductive LinkForm (span : Span) (after name href : Text) : Text → Prop
  /-- The type of a parameter stays a literal span. -/
  | parameter : span.inner = name → EndsInParameter span.before →
      LinkForm span after name href (linkTo (SpanLine.literal name) href)
  | free : span.inner = name → ¬ EndsInParameter span.before → FreeBefore span.before →
      FreeAfter after → LinkForm span after name href (linkTo name href)
  /-- The leftmost name in angle brackets is linked, and the rest is escaped. -/
  | generic {start rest : Text} : span.inner ≠ name → span.inner = start ++ angled name ++ rest →
      (∀ start' rest', span.inner = start' ++ angled name ++ rest' →
        start.length ≤ start'.length) →
      LinkForm span after name href
        (Markup.escapeInline (start ++ ['<']) ++ linkTo name href ++
          Markup.escapeInline ('>' :: rest))

variable {span : Span} {after name href image : Text}

theorem linkedSpan?_eq_some_iff :
    linkedSpan? span.inner span.before after name href = some image ↔
      LinkForm span after name href image := by
  unfold linkedSpan?
  constructor
  · intro h
    split at h
    · next hs =>
      have hs : span.inner = name := by simpa using hs
      split at h
      · next hp =>
        cases h
        exact .parameter hs (endsInParameter_iff.1 hp)
      · next hp =>
        split at h
        · next hf =>
          cases h
          rw [Bool.and_eq_true, endsFree_iff, startsFree_iff] at hf
          exact .free hs (fun he => hp (endsInParameter_iff.2 he)) hf.1 hf.2
        · cases h
    · next hs =>
      obtain ⟨⟨start, rest⟩, hc, rfl⟩ := Option.map_eq_some_iff.1 h
      obtain ⟨hx, hmin⟩ := Text.cutAt?_eq_some_iff.1 hc
      exact .generic (by simpa using hs) hx hmin
  · intro h
    cases h with
    | parameter hs hp => simp [hs, endsInParameter_iff.2 hp]
    | free hs hp hb ha =>
        have hp : endsInParameter span.before = false := by
          rw [← Bool.not_eq_true, endsInParameter_iff]
          exact hp
        simp [hs, hp, endsFree_iff.2 hb, startsFree_iff.2 ha]
    | @generic start rest hs hx hmin =>
        have hc : Text.cutAt? (['<'] ++ name ++ ['>']) span.inner = some (start, rest) :=
          Text.cutAt?_eq_some_iff.2 ⟨hx, hmin⟩
        rw [if_neg (by simpa using hs), hc]
        rfl

/-- A name is linked in a span if and only if it qualifies. -/
theorem isSome_linkedSpan?_iff :
    (linkedSpan? span.inner span.before after name href).isSome = true ↔
      Qualifies span after name := by
  constructor
  · intro h
    obtain ⟨image, h⟩ := Option.isSome_iff_exists.1 h
    cases linkedSpan?_eq_some_iff.1 h with
    | parameter hs hp => exact .inl ⟨hs, .inl hp⟩
    | free hs _ hb ha => exact .inl ⟨hs, .inr ⟨hb, ha⟩⟩
    | generic hs hx _ => exact .inr ⟨hs, _, _, hx⟩
  · intro h
    unfold linkedSpan?
    rcases h with ⟨hs, hp | ⟨hb, ha⟩⟩ | ⟨hs, start, rest, hx⟩
    · simp [hs, endsInParameter_iff.2 hp]
    · rw [if_pos (by simpa using hs)]
      split
      · rfl
      · simp [endsFree_iff.2 hb, startsFree_iff.2 ha]
    · rw [if_neg (by simpa using hs), Option.isSome_map]
      cases e : Text.cutAt? (['<'] ++ name ++ ['>']) span.inner with
      | none => exact absurd hx (Text.cutAt?_eq_none e start rest)
      | some cut => rfl

/-! ### One span and all names -/

/-- What becomes of a span: it is linked by the name that comes first, longer names before shorter
ones, among those that lead somewhere and qualify; if there is none, it stays as it is. -/
inductive SpanImage (href? : Text → Option Text) (span : Span) (after : Text) : Text → Prop
  | linked {name href image : Text} : href? name = some href →
      (∀ other, (href? other).isSome = true → Qualifies span after other →
        longerFirst name other = true) →
      LinkForm span after name href image → SpanImage href? span after image
  | literal : (∀ name, (href? name).isSome = true → ¬ Qualifies span after name) →
      SpanImage href? span after (SpanLine.literal span.inner)

/-- The link form of a span for one name, by the name's address. -/
def imageBy? (refs : ReferenceMap) (span : Span) (after name : Text) : Option Text :=
  (refs.href? name).bind fun href => linkedSpan? span.inner span.before after name href

theorem linkSpan?_linkTable (refs : ReferenceMap) (span : Span) (after : Text) :
    linkSpan? refs.linkTable span.inner span.before after =
      refs.namesLongestFirst.findSome? (imageBy? refs span after) := by
  unfold linkSpan? ReferenceMap.linkTable
  rw [List.findSome?_map]
  congr 1
  funext name
  unfold imageBy?
  cases e : refs.href? name with
  | none => simp only [Function.comp_apply, e, Option.bind_none]
  | some href =>
      have hne : href.isEmpty = false := ReferenceMap.isEmpty_of_href? e
      simp only [Function.comp_apply, e, hne, if_neg Bool.false_ne_true, Option.bind_some]

theorem isSome_imageBy?_iff {refs : ReferenceMap} :
    (imageBy? refs span after name).isSome = true ↔
      (refs.href? name).isSome = true ∧ Qualifies span after name := by
  unfold imageBy?
  cases refs.href? name with
  | none => simp
  | some href => simp [isSome_linkedSpan?_iff]

theorem imageBy?_eq_some_iff {refs : ReferenceMap} :
    imageBy? refs span after name = some image ↔
      ∃ href, refs.href? name = some href ∧ LinkForm span after name href image := by
  simp only [imageBy?, Option.bind_eq_some_iff, linkedSpan?_eq_some_iff]

/-- A span is linked as described, and in no other way. -/
theorem spanImage_iff {refs : ReferenceMap} :
    SpanImage refs.href? span after image ↔ image = linkSpan refs.linkTable span after := by
  rw [linkSpan, linkSpan?_linkTable]
  constructor
  · intro h
    cases h with
    | @linked name href image hhref hmin hform =>
        have hfound : refs.namesLongestFirst.findSome? (imageBy? refs span after) = some image := by
          refine ReferenceMap.findSome?_namesLongestFirst_eq_some_iff.2 ⟨name, by rw [hhref]; rfl,
            imageBy?_eq_some_iff.2 ⟨href, hhref, hform⟩, fun other hmapped hother => ?_⟩
          exact hmin other hmapped (isSome_imageBy?_iff.1 hother).2
        rw [hfound]
        rfl
    | literal hno =>
        have hnone : refs.namesLongestFirst.findSome? (imageBy? refs span after) = none := by
          refine ReferenceMap.findSome?_namesLongestFirst_eq_none_iff.2 fun name hmapped => ?_
          rw [← Option.not_isSome_iff_eq_none, isSome_imageBy?_iff]
          exact fun h => hno name hmapped h.2
        rw [hnone]
        rfl
  · rintro rfl
    cases e : refs.namesLongestFirst.findSome? (imageBy? refs span after) with
    | none =>
        refine .literal fun name hmapped hq => ?_
        have hnone := ReferenceMap.findSome?_namesLongestFirst_eq_none_iff.1 e name hmapped
        rw [← Option.not_isSome_iff_eq_none, isSome_imageBy?_iff] at hnone
        exact hnone ⟨hmapped, hq⟩
    | some found =>
        obtain ⟨name, _, hname, hmin⟩ :=
          ReferenceMap.findSome?_namesLongestFirst_eq_some_iff.1 e
        obtain ⟨href, hhref, hform⟩ := imageBy?_eq_some_iff.1 hname
        exact .linked hhref (fun other hmapped hq =>
          hmin other hmapped (isSome_imageBy?_iff.2 ⟨hmapped, hq⟩)) hform

/-- Escaping brings in the characters of the escapes only. -/
theorem not_mem_escapeInline {x : Text} {c : Char} (hc : c ∉ ['\x5c', '&', 'l', 'g', 't', ';'])
    (h : c ∉ x) : c ∉ Markup.escapeInline x := by
  intro hm
  obtain ⟨d, hd, he⟩ := List.mem_flatMap.1 hm
  have hne : c ≠ d := fun e => h (e ▸ hd)
  simp only [List.mem_cons, List.not_mem_nil, or_false, not_or] at hc
  unfold Markup.escapeInlineChar at he
  split at he
  · simp [hne, hc] at he
  · split at he
    · simp [hc] at he
    · split at he
      · simp [hc] at he
      · simp [hne] at he

/-- A link form begins with no backtick, so it is never the span as it was. -/
theorem LinkForm.ne_literal (h : LinkForm span after name href image)
    (hi : '\x60' ∉ span.inner) : image ≠ SpanLine.literal span.inner := by
  cases h with
  | parameter => exact fun e => absurd (List.cons.inj e).1 (by decide)
  | free => exact fun e => absurd (List.cons.inj e).1 (by decide)
  | @generic start rest _ hx _ =>
      have hstart : '\x60' ∉ start ++ ['<'] := by
        rw [hx, angled] at hi
        intro hm
        rcases List.mem_append.1 hm with hm | hm
        · exact hi (by simp [hm])
        · exact absurd hm (by decide)
      have hfree := not_mem_escapeInline (by decide) hstart
      have hend : Markup.escapeInline (start ++ ['<']) = Markup.escapeInline start ++ "&lt;" := by
        simp [Markup.escapeInline, Markup.escapeInlineChar]
      intro e
      cases hs : Markup.escapeInline (start ++ ['<']) with
      | nil =>
          rw [hend] at hs
          exact absurd (List.append_eq_nil_iff.1 hs).2 (by decide)
      | cons c more =>
          rw [hs] at e hfree
          exact hfree ((List.cons.inj e).1 ▸ List.mem_cons_self)

/-- A span is rewritten if and only if a name that leads somewhere qualifies. -/
theorem SpanImage.ne_literal_iff {href? : Text → Option Text}
    (h : SpanImage href? span after image) (hi : '\x60' ∉ span.inner) :
    image ≠ SpanLine.literal span.inner ↔
      ∃ name, (href? name).isSome = true ∧ Qualifies span after name := by
  cases h with
  | @linked name href image hhref hmin hform =>
      refine ⟨fun _ => ⟨name, by rw [hhref]; rfl, ?_⟩, fun _ => hform.ne_literal hi⟩
      rw [← linkedSpan?_eq_some_iff] at hform
      exact isSome_linkedSpan?_iff.1 (by rw [hform]; rfl)
  | literal hno =>
      refine ⟨fun hne => absurd rfl hne, ?_⟩
      rintro ⟨name, hmapped, hq⟩
      exact absurd hq (hno name hmapped)

/-! ### Lines, blocks and documents -/

/-- The spans of a line are linked one by one; the text between them and after them stays. -/
inductive LinkedSpans (href? : Text → Option Text) (tail : Text) : List Span → Text → Prop
  | nil : LinkedSpans href? tail [] tail
  | cons {span : Span} {more : List Span} {image out : Text} :
      SpanImage href? span (SpanLine.textAfter tail more) image → LinkedSpans href? tail more out →
      LinkedSpans href? tail (span :: more) (span.before ++ image ++ out)

/-- What becomes of a line outside fences. -/
def LinkedLine (href? : Text → Option Text) (line out : Text) : Prop :=
  ∃ spanLine, SpanLine.Reads line spanLine ∧
    LinkedSpans href? spanLine.tail spanLine.spans out

/-- What becomes of lines.  Fences stay, and so do the lines inside them. -/
inductive LinkedLines (href? : Text → Option Text) : Bool → List Text → List Text → Prop
  | nil {inFence : Bool} : LinkedLines href? inFence [] []
  | fence {inFence : Bool} {line : Text} {more out : List Text} : isFence line = true →
      LinkedLines href? (!inFence) more out → LinkedLines href? inFence (line :: more) (line :: out)
  | code {line : Text} {more out : List Text} : isFence line = false →
      LinkedLines href? true more out → LinkedLines href? true (line :: more) (line :: out)
  | prose {line line' : Text} {more out : List Text} : isFence line = false →
      LinkedLine href? line line' → LinkedLines href? false more out →
      LinkedLines href? false (line :: more) (line' :: out)

/-- What becomes of a block.  Only running text changes, and then it is a paragraph. -/
inductive LinkedBlock (href? : Text → Option Text) (block : Block) : Block → Prop
  | other : block.kind ≠ .text → LinkedBlock href? block block
  | same {lines : List Text} : block.kind = .text →
      LinkedLines href? false (Text.lines block.text) lines → Text.unlines lines = block.text →
      LinkedBlock href? block block
  | changed {lines : List Text} : block.kind = .text →
      LinkedLines href? false (Text.lines block.text) lines → Text.unlines lines ≠ block.text →
      LinkedBlock href? block (Block.paragraph (Text.unlines lines))

variable {refs : ReferenceMap}

theorem linkedSpans_iff {tail out : Text} {spans : List Span} :
    LinkedSpans refs.href? tail spans out ↔
      out = SpanLine.render (linkSpan refs.linkTable) tail spans := by
  induction spans generalizing out with
  | nil =>
      constructor
      · intro h
        cases h
        rfl
      · rintro rfl
        exact .nil
  | cons span more ih =>
      rw [SpanLine.render_cons]
      constructor
      · intro h
        cases h with
        | cons himage hmore => rw [← spanImage_iff.1 himage, ← ih.1 hmore]
      · rintro rfl
        exact .cons (spanImage_iff.2 rfl) (ih.2 rfl)

theorem linkedLine_iff {line out : Text} :
    LinkedLine refs.href? line out ↔ out = linkLine refs.linkTable line := by
  constructor
  · rintro ⟨spanLine, hreads, hspans⟩
    rw [SpanLine.reads_iff] at hreads
    subst hreads
    exact linkedSpans_iff.1 hspans
  · rintro rfl
    exact ⟨SpanLine.ofText line, SpanLine.reads_ofText line, linkedSpans_iff.2 rfl⟩

theorem linkedLines_iff {inFence : Bool} {lines out : List Text} :
    LinkedLines refs.href? inFence lines out ↔ out = linkLines refs.linkTable inFence lines := by
  induction lines generalizing inFence out with
  | nil =>
      constructor
      · intro h
        cases h
        rfl
      · rintro rfl
        exact .nil
  | cons line more ih =>
      rw [linkLines]
      constructor
      · intro h
        cases h with
        | fence hf hmore => rw [if_pos hf, ← ih.1 hmore]
        | code hf hmore => simp [hf, ← ih.1 hmore]
        | prose hf hline hmore => simp [hf, ← ih.1 hmore, ← linkedLine_iff.1 hline]
      · rintro rfl
        by_cases hf : isFence line = true
        · rw [if_pos hf]
          exact .fence hf (ih.2 rfl)
        · rw [if_neg hf]
          cases inFence with
          | true => exact .code (by simpa using hf) (ih.2 rfl)
          | false => exact .prose (by simpa using hf) (linkedLine_iff.2 rfl) (ih.2 rfl)

theorem linkedBlock_iff {block block' : Block} :
    LinkedBlock refs.href? block block' ↔ block' = linkBlock refs.linkTable block := by
  unfold linkBlock linkText
  constructor
  · intro h
    cases h with
    | other hk => simp [hk]
    | same hk hlines he => simp [hk, ← linkedLines_iff.1 hlines, he]
    | changed hk hlines he => simp [hk, ← linkedLines_iff.1 hlines, he]
  · rintro rfl
    by_cases hk : block.kind = .text
    · rw [if_pos (by simpa using hk)]
      have hlines : LinkedLines refs.href? false (Text.lines block.text)
          (linkLines refs.linkTable false (Text.lines block.text)) := linkedLines_iff.2 rfl
      by_cases he : Text.unlines (linkLines refs.linkTable false (Text.lines block.text)) = block.text
      · simp only [he, beq_self_eq_true, if_true]
        exact .same hk hlines he
      · rw [if_neg (by simpa using he)]
        exact .changed hk hlines he
    · rw [if_neg (by simpa using hk)]
      exact .other hk

theorem forall₂_linkedBlock_iff {blocks blocks' : List Block} :
    List.Forall₂ (LinkedBlock refs.href?) blocks blocks' ↔
      blocks' = blocks.map (linkBlock refs.linkTable) := by
  induction blocks generalizing blocks' with
  | nil =>
      constructor
      · intro h
        cases h
        rfl
      · rintro rfl
        exact .nil
  | cons block blocks ih =>
      rw [List.map_cons]
      constructor
      · intro h
        cases h with
        | cons hb hmore => rw [linkedBlock_iff.1 hb, ih.1 hmore]
      · rintro rfl
        exact .cons (linkedBlock_iff.2 rfl) (ih.2 rfl)

/-- Linking does what is described, block by block, and nothing else: spans are rewritten if and only
if a name qualifies, and the outcome goes by the locations of names and the base path alone. -/
theorem Document.link_spec (doc : Document) (refs : ReferenceMap) :
    (doc.link refs.linkTable).location = doc.location ∧
      (doc.link refs.linkTable).title = doc.title ∧
      (doc.link refs.linkTable).blocks.length = doc.blocks.length ∧
      (∀ blocks, List.Forall₂ (LinkedBlock refs.href?) doc.blocks blocks ↔
        blocks = (doc.link refs.linkTable).blocks) ∧
      (∀ (span : Span) (after image : Text), '\x60' ∉ span.inner →
        SpanImage refs.href? span after image →
        (image ≠ SpanLine.literal span.inner ↔
          ∃ name, (refs.location? name).isSome = true ∧ Qualifies span after name)) ∧
      ∀ refs' : ReferenceMap, refs'.basePath = refs.basePath →
        (∀ name, refs'.location? name = refs.location? name) →
        doc.link refs'.linkTable = doc.link refs.linkTable := by
  refine ⟨rfl, rfl, List.length_map _, fun blocks => forall₂_linkedBlock_iff, ?_, ?_⟩
  · intro span after image hi himage
    rw [himage.ne_literal_iff hi]
    simp only [ReferenceMap.href?, Option.isSome_map]
  · intro refs' hbase hlocation
    have hurl : refs'.urlFor = refs.urlFor := by
      funext location
      simp only [ReferenceMap.urlFor, ReferenceMap.addressStart, hbase]
    have hhref : refs'.href? = refs.href? := by
      funext name
      simp only [ReferenceMap.href?, hlocation, hurl]
    have hblocks : doc.blocks.map (linkBlock refs'.linkTable) =
        doc.blocks.map (linkBlock refs.linkTable) := by
      have h : List.Forall₂ (LinkedBlock refs'.href?) doc.blocks _ :=
        forall₂_linkedBlock_iff.2 rfl
      rw [hhref] at h
      exact forall₂_linkedBlock_iff.1 h
    rw [Document.link, Document.link, hblocks]

end ApiReference
