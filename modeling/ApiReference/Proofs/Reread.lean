import ApiReference.Proofs.NothingToLink
import Mathlib.Data.List.Chain

/-! # Linking a line twice

What the spans of a linked line are (`Reread`): those that were left alone, with what became of the
spans before them in front, and the types of parameters, as labels of their links.

So a second pass finds something to link in one place only: a name that is left alone, since the text
before it is too short to introduce a parameter, comes after a span that is linked in the middle, and
the end of that span, which is running text then, does introduce one (`MissedParameter`,
`noneQualifies_linkLine_iff`).  A third pass finds nothing (`nothingMissed_linkLine`). -/

namespace ApiReference

/-! ### What introduces a parameter -/

/-- The character is no part of what introduces a parameter. -/
def EndsPhrase (c : Char) : Prop := isWordChar c = false ∧ c ∉ ['*', '?', ':', ' ']

instance (c : Char) : Decidable (EndsPhrase c) :=
  inferInstanceAs (Decidable (isWordChar c = false ∧ c ∉ ['*', '?', ':', ' ']))

/-- A text ends in what introduces a parameter if some ending of it does. -/
theorem EndsInParameter.append_left {y : Text} (x : Text) (h : EndsInParameter y) :
    EndsInParameter (x ++ y) := by
  obtain ⟨start, word, hne, hword, hy⟩ := h
  refine ⟨x ++ start, word, hne, hword, ?_⟩
  simpa only [List.append_assoc, List.append_right_inj] using hy

/-- What comes before a character that is no part of it does not matter. -/
theorem endsInParameter_append_cons {c : Char} (hc : EndsPhrase c) (x y : Text) :
    EndsInParameter (x ++ c :: y) ↔ EndsInParameter y := by
  constructor
  · rintro ⟨start, word, hne, hword, h⟩
    obtain ⟨phrase, hphrase, e⟩ : ∃ phrase : Text, c ∉ phrase ∧ x ++ c :: y = start ++ phrase ∧
        EndsInParameter phrase := by
      have hcw : c ∉ word := fun hm => by
        have := hword c hm
        rw [hc.1] at this
        cases this
      have hcm := hc.2
      simp only [List.mem_cons, List.not_mem_nil, or_false, not_or] at hcm
      obtain ⟨h1, h2, h3, h4⟩ := hcm
      rcases h with h | h | h
      · refine ⟨"**" ++ word ++ "**: ", ?_, by simpa using h, [], word, hne, hword, .inl rfl⟩
        simp [h1, h3, h4, hcw]
      · refine ⟨word ++ ": ", ?_, by simpa using h, [], word, hne, hword, .inr (.inl rfl)⟩
        simp [h3, h4, hcw]
      · refine ⟨word ++ "?: ", ?_, by simpa using h, [], word, hne, hword, .inr (.inr rfl)⟩
        simp [h2, h3, h4, hcw]
    obtain ⟨e, hends⟩ := e
    rcases List.append_eq_append_iff.1 e with ⟨gap, rfl, hy⟩ | ⟨gap, rfl, rfl⟩
    · cases gap with
      | nil =>
          rw [List.nil_append] at hy
          exact absurd (hy ▸ List.mem_cons_self) hphrase
      | cons d gap =>
          rw [(List.cons.inj hy).2]
          exact hends.append_left gap
    · exact absurd (List.mem_append_right _ List.mem_cons_self) hphrase
  · intro h
    rw [← List.singleton_append]
    exact (h.append_left [c]).append_left x

/-- An escape ends in a character that is no part of it, like what is escaped. -/
theorem escapeInlineChar_eq (c : Char) : Markup.escapeInlineChar c = [c] ∨
    EndsPhrase c ∧ ∃ start d, Markup.escapeInlineChar c = start ++ [d] ∧ EndsPhrase d := by
  unfold Markup.escapeInlineChar
  split
  · next hc =>
    rw [Bool.or_eq_true, beq_iff_eq, beq_iff_eq] at hc
    have hends : EndsPhrase c := by rcases hc with rfl | rfl <;> decide
    exact .inr ⟨hends, ['\x5c'], c, rfl, hends⟩
  · split
    · next hc =>
      rw [beq_iff_eq] at hc
      exact .inr ⟨by rw [hc]; decide, "&lt", ';', rfl, by decide⟩
    · split
      · next hc =>
        rw [beq_iff_eq] at hc
        exact .inr ⟨by rw [hc]; decide, "&gt", ';', rfl, by decide⟩
      · exact .inl rfl

theorem endsInParameter_escapeInline (x y : Text) :
    EndsInParameter (Markup.escapeInline x ++ y) ↔ EndsInParameter (x ++ y) := by
  induction x using List.reverseRecOn generalizing y with
  | nil => rfl
  | append_singleton x c ih =>
      have hescape : Markup.escapeInline (x ++ [c]) =
          Markup.escapeInline x ++ Markup.escapeInlineChar c := by simp [Markup.escapeInline]
      rw [hescape, List.append_assoc, List.append_assoc]
      rcases escapeInlineChar_eq c with h | ⟨hc, start, d, h, hd⟩
      · rw [h, ih]
      · rw [h, List.append_assoc, ← List.append_assoc, List.singleton_append,
          endsInParameter_append_cons hd, List.singleton_append, endsInParameter_append_cons hc]

/-- Links are no part of what introduces a parameter. -/
theorem endsInParameter_linkTo_append (start name href x : Text) :
    EndsInParameter (start ++ linkTo name href ++ x) ↔ EndsInParameter x := by
  have e : start ++ linkTo name href ++ x = start ++ '[' :: name ++ "](" ++ href ++ ')' :: x := by
    simp [linkTo]
  rw [e]
  exact endsInParameter_append_cons (by decide) _ x

/-! ### The spans of a linked line -/

/-- A name that leads somewhere stands in the text in angle brackets. -/
def HoldsAngled (href? : Text → Option Text) (x : Text) : Prop :=
  ∃ name start rest, (href? name).isSome = true ∧ x = start ++ angled name ++ rest

/-- What a linked line is read as: `carry` is text that became of the spans before, and the spans and
the tail are those that are found when it is read again. -/
inductive Reread (href? : Text → Option Text) (tail : Text) :
    Text → List Span → List Span → Text → Prop
  /-- Without more spans, what is carried comes before the tail. -/
  | tail {carry : Text} : Reread href? tail carry [] [] (carry ++ tail)
  /-- A span that was left alone is found again, and nothing is carried past it. -/
  | literal {carry rest : Text} {span : Span} {more again : List Span} :
      (∀ name, (href? name).isSome = true →
        ¬ Qualifies span (SpanLine.textAfter tail more) name) →
      Reread href? tail [] more again rest →
      Reread href? tail carry (span :: more) (⟨carry ++ span.before, span.inner⟩ :: again) rest
  /-- The type of a parameter is found in the label of its link. -/
  | parameter {carry rest href : Text} {span : Span} {more again : List Span} :
      href? span.inner = some href → EndsInParameter span.before →
      Reread href? tail ("](" ++ href ++ [')']) more again rest →
      Reread href? tail carry (span :: more)
        (⟨carry ++ span.before ++ ['['], span.inner⟩ :: again) rest
  /-- A name that was linked where it stands free is running text. -/
  | free {carry rest href : Text} {span : Span} {more again : List Span} :
      href? span.inner = some href → FreeAfter (SpanLine.textAfter tail more) →
      Reread href? tail (carry ++ span.before ++ linkTo span.inner href) more again rest →
      Reread href? tail carry (span :: more) again rest
  /-- So is a span that was linked in the middle. -/
  | generic {carry rest name href start ending : Text} {span : Span} {more again : List Span} :
      href? name = some href → span.inner = start ++ angled name ++ ending →
      Reread href? tail (carry ++ span.before ++ (Markup.escapeInline (start ++ ['<']) ++
        linkTo name href ++ Markup.escapeInline ('>' :: ending))) more again rest →
      Reread href? tail carry (span :: more) again rest

variable {href? : Text → Option Text} {tail out carry rest : Text} {spans again : List Span}

/-- The characters that linking brings in. -/
def linkMarks : List Char := ['[', ']', '(', ')', '\x5c', '&', 'l', 'g', 't', ';']

theorem not_mem_linkTo {c : Char} {name href : Text} (hc : c ∉ linkMarks) (hn : c ∉ name)
    (hh : c ∉ href) : c ∉ linkTo name href := by
  simp only [linkMarks, List.mem_cons, not_or] at hc
  simp [linkTo, hc, hn, hh]

/-- A span linked in the middle holds the characters of the span, the address and the marks only. -/
theorem not_mem_genericForm {c : Char} {inner start name ending href : Text} (hc : c ∉ linkMarks)
    (hx : inner = start ++ angled name ++ ending) (hi : c ∉ inner) (hh : c ∉ href) :
    c ∉ Markup.escapeInline (start ++ ['<']) ++ linkTo name href ++
      Markup.escapeInline ('>' :: ending) := by
  have hescapes : c ∉ ['\x5c', '&', 'l', 'g', 't', ';'] := by
    simp only [linkMarks, List.mem_cons, not_or] at hc ⊢
    exact hc.2.2.2.2
  have hinner : c ∉ start ++ ['<'] ∧ c ∉ name ∧ c ∉ '>' :: ending := by
    rw [hx, angled] at hi
    simpa [not_or, and_assoc] using hi
  rw [List.mem_append, List.mem_append, not_or, not_or]
  exact ⟨⟨not_mem_escapeInline hescapes hinner.1, not_mem_linkTo hc hinner.2.1 hh⟩,
    not_mem_escapeInline hescapes hinner.2.2⟩

/-- A linked line is read as described. -/
theorem LinkedSpans.reread (h : LinkedSpans href? tail spans out)
    (hspans : ∀ span ∈ spans, '\x60' ∉ span.before ∧ '\x60' ∉ span.inner)
    (htail : tail.count '\x60' ≤ 1)
    (hplain : ∀ name href, href? name = some href → '\x60' ∉ href) (hcarry : '\x60' ∉ carry) :
    Reread href? tail carry spans (SpanLine.ofText (carry ++ out)).spans
      (SpanLine.ofText (carry ++ out)).tail := by
  induction h generalizing carry with
  | nil =>
      have hcount : (carry ++ tail).count '\x60' ≤ 1 := by
        rwa [List.count_append, List.count_eq_zero.2 hcarry, Nat.zero_add]
      rw [SpanLine.ofText_tail hcount]
      exact .tail
  | @cons span more image out himage _ ih =>
      obtain ⟨hb, hi⟩ := hspans span List.mem_cons_self
      have hmore : ∀ s ∈ more, '\x60' ∉ s.before ∧ '\x60' ∉ s.inner := fun s hs =>
        hspans s (List.mem_cons_of_mem _ hs)
      have hcb : '\x60' ∉ carry ++ span.before := by simp [hcarry, hb]
      -- a link without backticks only adds to the text that is carried on
      have hcarried {image : Text} (h : '\x60' ∉ image) :
          '\x60' ∉ carry ++ span.before ++ image ∧
            carry ++ (span.before ++ image ++ out) = carry ++ span.before ++ image ++ out := by
        exact ⟨by simp [hcarry, hb, h], by simp⟩
      cases himage with
      | literal hno =>
          have e : carry ++ (span.before ++ SpanLine.literal span.inner ++ out) =
              carry ++ span.before ++ SpanLine.literal span.inner ++ out := by simp
          rw [e, SpanLine.ofText_span hcb hi]
          exact .literal hno (ih hmore List.not_mem_nil)
      | @linked name href image hhref _ hform =>
          have hh := hplain name href hhref
          cases hform with
          | parameter hs hp =>
              subst hs
              have e : carry ++ (span.before ++ linkTo (SpanLine.literal span.inner) href ++ out) =
                  carry ++ span.before ++ ['['] ++ SpanLine.literal span.inner ++
                    ("](" ++ href ++ [')'] ++ out) := by simp [linkTo]
              rw [e, SpanLine.ofText_span (by simp [hcarry, hb]) hi]
              exact .parameter hhref hp (ih hmore (by simp [hh]))
          | free hs _ _ ha =>
              subst hs
              obtain ⟨hfree, e⟩ := hcarried (not_mem_linkTo (by decide) hi hh)
              rw [e]
              exact .free hhref ha (ih hmore hfree)
          | @generic start ending _ hx _ =>
              obtain ⟨hfree, e⟩ := hcarried (not_mem_genericForm (by decide) hx hi hh)
              rw [e]
              exact .generic hhref hx (ih hmore hfree)

/-- What came after a span still comes first after it. -/
theorem Reread.prefix_textAfter (h : Reread href? tail carry spans again rest) :
    carry ++ SpanLine.textAfter tail spans <+: SpanLine.textAfter rest again := by
  induction h with
  | tail => exact List.prefix_rfl
  | literal => exact List.prefix_rfl
  | parameter => exact List.prefix_append _ _
  | free _ _ _ ih => exact ((List.prefix_append _ _).trans (List.prefix_append _ _)).trans ih
  | generic _ _ _ ih => exact ((List.prefix_append _ _).trans (List.prefix_append _ _)).trans ih

/-! ### Names that were missed -/

/-- The span is a name that is not linked, and the text before it introduces a parameter only
together with the end of the span before that, which holds a name in angle brackets. -/
structure MissedParameter (href? : Text → Option Text) (before span : Span) (after : Text) :
    Prop where
  angled : HoldsAngled href? before.inner
  named : (href? span.inner).isSome = true
  unfree : ¬ FreeAfter after
  unintroduced : ¬ EndsInParameter span.before
  introduced : EndsInParameter (before.inner ++ span.before)

/-- No span of the line is missed. -/
def NothingMissed (href? : Text → Option Text) (line : Text) : Prop :=
  (SpanLine.placedOf line).IsChain fun before place =>
    ¬ MissedParameter href? before.1 place.1 place.2

/-- What is carried on introduces a parameter like the end of the span before, if that holds a name
in angle brackets, and not at all otherwise. -/
def Carries (href? : Text → Option Text) (carry : Text) (before : Span) : Prop :=
  ∀ x, EndsInParameter (carry ++ x) ↔
    EndsInParameter x ∨ HoldsAngled href? before.inner ∧ EndsInParameter (before.inner ++ x)

theorem carries_of_not_holdsAngled {before : Span} (h : ¬ HoldsAngled href? before.inner)
    (hcarry : ∀ x, EndsInParameter (carry ++ x) ↔ EndsInParameter x) :
    Carries href? carry before := by
  intro x
  rw [hcarry x, or_iff_left fun h' => h h'.1]

theorem FreeBefore.of_append {x y : Text} (h : FreeBefore (x ++ y)) : FreeBefore y := by
  rcases h with h | ⟨start, c, hc, h⟩
  · exact .inl (List.append_eq_nil_iff.1 h).2
  · obtain rfl | ⟨front, d, rfl⟩ := List.eq_nil_or_concat y
    · exact .inl rfl
    · rw [List.concat_eq_append, ← List.append_assoc] at h
      obtain ⟨_, e⟩ := List.append_inj' h rfl
      exact .inr ⟨front, d, (List.cons.inj e).1 ▸ hc, List.concat_eq_append⟩

theorem FreeAfter.of_isPrefix {x y : Text} (h : FreeAfter y) (hp : x <+: y) : FreeAfter x := by
  cases x with
  | nil => exact .inl rfl
  | cons c x =>
      obtain ⟨more, rfl⟩ := hp
      rcases h with h | ⟨d, rest, hd, e⟩
      · cases h
      · exact .inr ⟨c, x, (List.cons.inj e).1 ▸ hd, rfl⟩

theorem EndsInParameter.freeBefore {x : Text} (h : EndsInParameter x) : FreeBefore x := by
  obtain ⟨start, word, _, _, rfl | rfl | rfl⟩ := h
  · exact .inr ⟨start ++ "**" ++ word ++ "**:", ' ', by decide, by simp⟩
  · exact .inr ⟨start ++ word ++ ":", ' ', by decide, by simp⟩
  · exact .inr ⟨start ++ word ++ "?:", ' ', by decide, by simp⟩

/-- A name is longer than what it holds in angle brackets. -/
theorem not_holdsAngled_of_not_qualifies {span : Span} {after : Text}
    (hno : ∀ name, (href? name).isSome = true → ¬ Qualifies span after name) :
    ¬ HoldsAngled href? span.inner := by
  rintro ⟨name, start, ending, hmapped, hx⟩
  refine hno name hmapped (.inr ⟨fun e => ?_, start, ending, hx⟩)
  have hlen := congrArg List.length (e.symm.trans hx)
  simp [angled] at hlen
  omega

/-- A span that was left alone is linked now if and only if it was missed. -/
theorem forall_not_qualifies_iff {before span : Span} {after after' : Text}
    (hcarry : Carries href? carry before)
    (hno : ∀ name, (href? name).isSome = true → ¬ Qualifies span after name)
    (hafter : after <+: after') :
    (∀ name, (href? name).isSome = true →
        ¬ Qualifies ⟨carry ++ span.before, span.inner⟩ after' name) ↔
      ¬ MissedParameter href? before span after := by
  constructor
  · rintro h ⟨hangled, hnamed, -, -, hintroduced⟩
    exact h span.inner hnamed (.inl ⟨rfl, .inl ((hcarry _).2 (.inr ⟨hangled, hintroduced⟩))⟩)
  · rintro h name hmapped (⟨rfl, hp | ⟨hb, ha⟩⟩ | ⟨hne, hx⟩)
    · have hbefore : FreeBefore span.before := hp.freeBefore.of_append
      rcases (hcarry _).1 hp with hp | ⟨hangled, hintroduced⟩
      · exact hno _ hmapped (.inl ⟨rfl, .inl hp⟩)
      · refine h ⟨hangled, hmapped, fun ha => ?_, fun hp => ?_, hintroduced⟩
        · exact hno _ hmapped (.inl ⟨rfl, .inr ⟨hbefore, ha⟩⟩)
        · exact hno _ hmapped (.inl ⟨rfl, .inl hp⟩)
    · exact hno _ hmapped (.inl ⟨rfl, .inr ⟨hb.of_append, ha.of_isPrefix hafter⟩⟩)
    · exact hno _ hmapped (.inr ⟨hne, hx⟩)

section plain

variable (hnames : ∀ name, (href? name).isSome = true → '<' ∉ name)

include hnames

theorem not_holdsAngled_name {name : Text} (h : (href? name).isSome = true) :
    ¬ HoldsAngled href? name := by
  rintro ⟨_, start, ending, -, hx⟩
  refine hnames name h ?_
  rw [hx, angled]
  simp

/-- The type of a parameter, once it is the label of a link, is not linked again. -/
theorem not_qualifies_label {before inner after name : Text} (hi : (href? inner).isSome = true)
    (hmapped : (href? name).isSome = true) : ¬ Qualifies ⟨before ++ ['['], inner⟩ after name := by
  have hbound : ¬ FreeBefore (before ++ ['[']) := by
    rw [← endsFree_iff, endsFree, List.getLast?_concat]
    decide
  rintro (⟨-, hp | ⟨hb, -⟩⟩ | ⟨-, start, ending, hx⟩)
  · exact hbound hp.freeBefore
  · exact hbound hb
  · exact not_holdsAngled_name hnames hi ⟨name, start, ending, hmapped, hx⟩

/-- Nothing is left to link in a linked line if and only if nothing was missed. -/
theorem Reread.noneQualifies_iff (h : Reread href? tail carry spans again rest) {before : Span}
    (text : Text) (hcarry : Carries href? carry before) :
    NoneQualifies href? (SpanLine.placed rest again) ↔
      ((before, text) :: SpanLine.placed tail spans).IsChain fun before place =>
        ¬ MissedParameter href? before.1 place.1 place.2 := by
  induction h generalizing before text with
  | tail => exact iff_of_true (fun place hp => by cases hp) (List.isChain_singleton _)
  | @literal carry rest span more again hno hmore ih =>
      rw [SpanLine.placed, noneQualifies_cons, SpanLine.placed, List.isChain_cons_cons,
        forall_not_qualifies_iff hcarry hno hmore.prefix_textAfter]
      refine and_congr_right fun _ => ih _ ?_
      exact carries_of_not_holdsAngled (not_holdsAngled_of_not_qualifies hno) fun x => Iff.rfl
  | @parameter carry rest href span more again hhref hp _ ih =>
      have hmapped : (href? span.inner).isSome = true := by rw [hhref]; rfl
      rw [SpanLine.placed, noneQualifies_cons, SpanLine.placed, List.isChain_cons_cons,
        and_iff_right fun name hname => not_qualifies_label hnames hmapped hname,
        and_iff_right fun hm => hm.unintroduced hp]
      refine ih _ (carries_of_not_holdsAngled (not_holdsAngled_name hnames hmapped) fun x => ?_)
      rw [List.append_assoc]
      exact endsInParameter_append_cons (by decide) _ x
  | @free carry rest href span more again hhref ha _ ih =>
      have hmapped : (href? span.inner).isSome = true := by rw [hhref]; rfl
      rw [SpanLine.placed, List.isChain_cons_cons, and_iff_right fun hm => hm.unfree ha]
      exact ih _ (carries_of_not_holdsAngled (not_holdsAngled_name hnames hmapped)
        (endsInParameter_linkTo_append _ _ _))
  | @generic carry rest name href start ending span more again hhref hx _ ih =>
      have hholds : HoldsAngled href? span.inner := ⟨name, start, ending, by rw [hhref]; rfl, hx⟩
      rw [SpanLine.placed, List.isChain_cons_cons,
        and_iff_right fun hm => not_holdsAngled_name hnames hm.named hholds]
      refine ih _ fun x => ?_
      have hinner : EndsInParameter (span.inner ++ x) ↔ EndsInParameter (ending ++ x) := by
        have e : span.inner ++ x = start ++ '<' :: name ++ '>' :: (ending ++ x) := by
          simp [hx, angled]
        rw [e]
        exact endsInParameter_append_cons (by decide) _ _
      have e : carry ++ span.before ++ (Markup.escapeInline (start ++ ['<']) ++ linkTo name href ++
            Markup.escapeInline ('>' :: ending)) ++ x =
          carry ++ span.before ++ Markup.escapeInline (start ++ ['<']) ++ linkTo name href ++
            (Markup.escapeInline ('>' :: ending) ++ x) := by simp
      rw [and_iff_right hholds, or_iff_right_of_imp (EndsInParameter.append_left _), hinner, e,
        endsInParameter_linkTo_append, endsInParameter_escapeInline]
      exact endsInParameter_append_cons (by decide) [] _

/-- No span of a linked line holds a name in angle brackets. -/
theorem Reread.not_holdsAngled (h : Reread href? tail carry spans again rest) :
    ∀ span ∈ again, ¬ HoldsAngled href? span.inner := by
  induction h with
  | tail => exact fun span hs => by cases hs
  | literal hno _ ih =>
      have hspan := not_holdsAngled_of_not_qualifies hno
      exact List.forall_mem_cons.2 ⟨hspan, ih⟩
  | parameter hhref _ _ ih =>
      exact List.forall_mem_cons.2 ⟨not_holdsAngled_name hnames (by rw [hhref]; rfl), ih⟩
  | free _ _ _ ih => exact ih
  | generic _ _ _ ih => exact ih

end plain

/-! ### Linked lines -/

section lines

variable {refs : ReferenceMap} (hnames : ∀ name, (refs.href? name).isSome = true → '<' ∉ name)
  (hplain : ∀ name href, refs.href? name = some href → '\x60' ∉ href)

include hplain

theorem reread_linkLine (line : Text) :
    Reread refs.href? (SpanLine.ofText line).tail [] (SpanLine.ofText line).spans
      (SpanLine.ofText (linkLine refs.linkTable line)).spans
      (SpanLine.ofText (linkLine refs.linkTable line)).tail := by
  obtain ⟨_, hspans, htail⟩ := SpanLine.reads_ofText line
  exact (linkedSpans_linkLine refs line).reread hspans htail hplain (List.not_mem_nil)

include hnames

/-- A second pass finds nothing to link in a line if and only if the first one missed nothing. -/
theorem noneQualifies_linkLine_iff (line : Text) :
    NoneQualifies refs.href? (SpanLine.placedOf (linkLine refs.linkTable line)) ↔
      NothingMissed refs.href? line := by
  -- before the first span stands one that holds nothing
  have hnone : ¬ HoldsAngled refs.href? (Span.mk [] []).inner := by
    rintro ⟨name, start, ending, -, hx⟩
    simp [angled] at hx
  have hcarry : Carries refs.href? [] ⟨[], []⟩ := carries_of_not_holdsAngled hnone fun x => Iff.rfl
  rw [SpanLine.placedOf, (reread_linkLine hplain line).noneQualifies_iff hnames []
    hcarry, List.isChain_cons, and_iff_right fun place _ hm => hnone hm.angled]
  exact Iff.rfl

/-- In a linked line nothing is missed. -/
theorem nothingMissed_linkLine (line : Text) :
    NothingMissed refs.href? (linkLine refs.linkTable line) := by
  refine List.isChain_iff_forall_rel_of_append_cons_cons.2 fun before place start ending e hm => ?_
  have hbefore : before ∈ SpanLine.placedOf (linkLine refs.linkTable line) := by
    rw [e]
    simp
  exact (reread_linkLine hplain line).not_holdsAngled hnames before.1
    (SpanLine.mem_of_mem_placed hbefore) hm.angled

end lines

end ApiReference
