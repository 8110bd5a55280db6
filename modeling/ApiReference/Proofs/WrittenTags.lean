import ApiReference.Page.Fragment
import ApiReference.Proofs.PageText

/-! # Tags that are written and read

Which of the opening tags that pages are built with are read as the tags that they are.

Reading attributes, only three signs count: a quotation mark begins a run up to the next mark of its
sort, and a closing angle bracket outside such runs is the end of the tag (`Lexed`).  A backslash is
a character like any other, so the escape of a quotation mark in a value does not keep the mark from
ending the value (`signsOf_attributeValue`).  A tag is read back if and only if the values that it
quotes are lexed, taken as they are and each between two marks
(`Document.blocks_parse_built`); so are values without quotation marks (`lexed_of_not_mem`). -/

namespace ApiReference

/-- The marks around values. -/
def quotationMarks : List Char := ['\x22', '\x27']

/-- The signs that attributes are read by. -/
def attributeSigns : List Char := '>' :: quotationMarks

/-- The text consists of characters that are no signs, and of runs from a quotation mark to the next
one of its sort. -/
inductive Lexed : Text → Prop
  | nil : Lexed []
  | plain {c : Char} {rest : Text} (hc : c ∉ attributeSigns) (h : Lexed rest) : Lexed (c :: rest)
  | run {mark : Char} {inner rest : Text} (hmark : mark ∈ quotationMarks) (hinner : mark ∉ inner)
      (h : Lexed rest) : Lexed (mark :: (inner ++ mark :: rest))

/-- The text begins inside a run, which the next such mark closes. -/
def ClosesRun (mark : Char) (x : Text) : Prop :=
  ∃ inner rest, x = inner ++ mark :: rest ∧ mark ∉ inner ∧ Lexed rest

/-- The text is lexed to its end; `mark?` is the mark of the run that it begins inside, if any. -/
def LexedFrom : Option Char → Text → Prop
  | none, x => Lexed x
  | some mark, x => ClosesRun mark x

/-! ### One character -/

theorem lexed_cons_plain {c : Char} (hc : c ∉ attributeSigns) {x : Text} :
    Lexed (c :: x) ↔ Lexed x := by
  refine ⟨fun h => ?_, .plain hc⟩
  cases h with
  | plain _ h => exact h
  | run hmark => exact absurd (List.mem_cons_of_mem _ hmark) hc

theorem lexed_cons_mark {mark : Char} (hmark : mark ∈ quotationMarks) {x : Text} :
    Lexed (mark :: x) ↔ ClosesRun mark x := by
  constructor
  · intro h
    cases h with
    | plain hc => exact absurd (List.mem_cons_of_mem _ hmark) hc
    | run _ hinner h => exact ⟨_, _, rfl, hinner, h⟩
  · rintro ⟨inner, rest, rfl, hinner, h⟩
    exact .run hmark hinner h

theorem not_lexed_cons_bracket (x : Text) : ¬ Lexed ('>' :: x) := by
  intro h
  cases h with
  | plain hc => exact hc List.mem_cons_self
  | run hmark => exact absurd hmark (by decide)

theorem not_closesRun_nil (mark : Char) : ¬ ClosesRun mark [] := by
  rintro ⟨inner, rest, e, -⟩
  exact List.append_ne_nil_of_right_ne_nil inner (List.cons_ne_nil mark rest) e.symm

theorem closesRun_cons_self {mark : Char} {x : Text} : ClosesRun mark (mark :: x) ↔ Lexed x := by
  constructor
  · rintro ⟨inner, rest, e, hinner, h⟩
    cases inner with
    | nil => exact (List.cons.inj e).2 ▸ h
    | cons c inner => exact absurd ((List.cons.inj e).1 ▸ List.mem_cons_self) hinner
  · exact fun h => ⟨[], x, rfl, nofun, h⟩

theorem closesRun_cons {c mark : Char} (hc : c ≠ mark) {x : Text} :
    ClosesRun mark (c :: x) ↔ ClosesRun mark x := by
  constructor
  · rintro ⟨inner, rest, e, hinner, h⟩
    cases inner with
    | nil => exact absurd (List.cons.inj e).1 hc
    | cons d inner =>
        exact ⟨inner, rest, (List.cons.inj e).2, fun hm => hinner (List.mem_cons_of_mem _ hm), h⟩
  · rintro ⟨inner, rest, rfl, hinner, h⟩
    exact ⟨c :: inner, rest, rfl, by simpa [Ne.symm hc] using hinner, h⟩

/-- Whether a text is lexed is found character by character. -/
def decidableLexedFrom : (mark? : Option Char) → (x : Text) → Decidable (LexedFrom mark? x)
  | none, [] => .isTrue .nil
  | some mark, [] => .isFalse (not_closesRun_nil mark)
  | some mark, c :: rest =>
    if h : c = mark then
      @decidable_of_iff _ _ (h ▸ closesRun_cons_self.symm) (decidableLexedFrom none rest)
    else @decidable_of_iff _ _ (closesRun_cons h).symm (decidableLexedFrom (some mark) rest)
  | none, c :: rest =>
    if h : c ∈ quotationMarks then
      @decidable_of_iff _ _ (lexed_cons_mark h).symm (decidableLexedFrom (some c) rest)
    else if h' : c = '>' then .isFalse (h' ▸ not_lexed_cons_bracket rest)
    else
      @decidable_of_iff _ _ (lexed_cons_plain (List.not_mem_cons_of_ne_of_not_mem h' h)).symm
        (decidableLexedFrom none rest)

instance (x : Text) : Decidable (Lexed x) := decidableLexedFrom none x

/-! ### The end of a tag -/

/-- The text ends neither in a blank nor in a slash. -/
def EndsPlain (x : Text) : Prop := ∀ c ∈ x.getLast?, isBlank c = false ∧ c ≠ '/'

theorem EndsPlain.tail {c : Char} {x : Text} (h : EndsPlain (c :: x)) : EndsPlain x := by
  intro d hd
  cases x with
  | nil => cases hd
  | cons e x => exact h d (by rwa [List.getLast?_cons_cons])

/-- A slash is the last thing in a tag only if it is the last thing among the attributes. -/
theorem not_lexed_of_meetsTagEnd {x : Text} (hb : x.isAllBlank = false)
    (h : meetsTagEnd (x ++ ['>']) = true) : ¬ Lexed x := by
  induction x with
  | nil => cases hb
  | cons c x ih =>
      by_cases hc : isBlank c = true
      · have hplain : c ∉ attributeSigns := by
          intro hm
          simp only [attributeSigns, quotationMarks, List.mem_cons, List.not_mem_nil, or_false] at hm
          rcases hm with rfl | rfl | rfl <;> exact absurd hc (by decide)
        rw [lexed_cons_plain hplain]
        refine ih ?_ ?_
        · simpa [Text.isAllBlank, hc] using hb
        · simpa [meetsTagEnd, hc] using h
      · have hbracket : c = '>' := by simpa [meetsTagEnd, hc] using h
        rw [hbracket]
        exact not_lexed_cons_bracket x

theorem isAllBlank_of_endsPlain {x : Text} (h : EndsPlain ('/' :: x)) : x.isAllBlank = false := by
  by_contra hb
  have hb : x.isAllBlank = true := by simpa using hb
  obtain e | ⟨start, c, e⟩ := List.eq_nil_or_concat x
  · subst e
    exact (h '/' rfl).2 rfl
  · rw [List.concat_eq_append] at e
    subst e
    have hlast := (h c (by rw [← List.cons_append, List.getLast?_concat]; rfl)).1
    rw [Text.isAllBlank_iff.1 hb c (by simp)] at hlast
    cases hlast

/-- Attributes end with the tag if and only if they are lexed. -/
theorem tagEnd?_append {mark? : Option Char} (hmark : ∀ mark ∈ mark?, mark ∈ quotationMarks)
    {x : Text} (hx : EndsPlain x) :
    LexedFrom mark? x ∧ tagEnd? mark? (x ++ ['>']) = some false ∨
      ¬ LexedFrom mark? x ∧ tagEnd? mark? (x ++ ['>']) = none := by
  induction x generalizing mark? with
  | nil =>
      cases mark? with
      | none => exact .inl ⟨.nil, rfl⟩
      | some mark => exact .inr ⟨not_closesRun_nil mark, by simp [tagEnd?]⟩
  | cons c x ih =>
      have ih := fun mark? hmark => @ih mark? hmark hx.tail
      cases mark? with
      | some mark =>
          by_cases hc : c = mark
          · subst hc
            simpa [LexedFrom, closesRun_cons_self, tagEnd?] using ih none nofun
          · simpa [LexedFrom, closesRun_cons hc, tagEnd?, hc] using ih (some mark) hmark
      | none =>
          by_cases hq : c ∈ quotationMarks
          · have hbracket : c ≠ '>' := by
              rintro rfl
              exact absurd hq (by decide)
            have hquote : c = '\x22' ∨ c = '\x27' := by simpa [quotationMarks] using hq
            simpa [LexedFrom, lexed_cons_mark hq, tagEnd?, hbracket, hquote] using
              ih (some c) (by simpa using hq)
          have hquote : ¬ (c = '\x22' ∨ c = '\x27') := by simpa [quotationMarks] using hq
          by_cases hbracket : c = '>'
          · subst hbracket
            exact .inr ⟨not_lexed_cons_bracket x, by simp [tagEnd?]⟩
          have hplain : c ∉ attributeSigns := by simpa [attributeSigns, hbracket] using hq
          by_cases hslash : c = '/' ∧ meetsTagEnd (x ++ ['>']) = true
          · obtain ⟨rfl, hmeets⟩ := hslash
            have hb := isAllBlank_of_endsPlain hx
            have hne : x ≠ [] := by
              rintro rfl
              cases hb
            right
            refine ⟨?_, by simp [tagEnd?, hmeets, hne]⟩
            rw [LexedFrom, lexed_cons_plain hplain]
            exact not_lexed_of_meetsTagEnd hb hmeets
          · simpa [LexedFrom, lexed_cons_plain hplain, tagEnd?, hbracket, hquote, hslash] using
              ih none nofun

/-! ### Only signs count -/

/-- The signs of a text, in their order. -/
def signsOf (x : Text) : Text := x.filter fun c => attributeSigns.contains c

theorem signsOf_append (x y : Text) : signsOf (x ++ y) = signsOf x ++ signsOf y :=
  List.filter_append x y

theorem signsOf_of_forall {x : Text} (h : ∀ c ∈ x, c ∉ attributeSigns) : signsOf x = [] := by
  simpa [signsOf] using h

theorem lexedFrom_signsOf {mark? : Option Char} (hmark : ∀ mark ∈ mark?, mark ∈ quotationMarks)
    (x : Text) : LexedFrom mark? (signsOf x) ↔ LexedFrom mark? x := by
  induction x generalizing mark? with
  | nil => rfl
  | cons c x ih =>
      by_cases hc : c ∈ attributeSigns
      · have hsigns : signsOf (c :: x) = c :: signsOf x := by simp [signsOf, hc]
        rw [hsigns]
        cases mark? with
        | some mark =>
            by_cases he : c = mark
            · subst he
              exact closesRun_cons_self.trans ((@ih none nofun).trans closesRun_cons_self.symm)
            · exact (closesRun_cons he).trans ((ih hmark).trans (closesRun_cons he).symm)
        | none =>
            rcases List.mem_cons.1 hc with rfl | hq
            · exact iff_of_false (not_lexed_cons_bracket _) (not_lexed_cons_bracket _)
            · have hmore := @ih (some c) (by simpa using hq)
              exact (lexed_cons_mark hq).trans (hmore.trans (lexed_cons_mark hq).symm)
      · have hsigns : signsOf (c :: x) = signsOf x := by simp [signsOf, hc]
        rw [hsigns]
        cases mark? with
        | some mark =>
            have he : c ≠ mark := by
              rintro rfl
              exact hc (List.mem_cons_of_mem _ (hmark c rfl))
            exact (ih hmark).trans (closesRun_cons he).symm
        | none => exact (@ih none nofun).trans (lexed_cons_plain hc).symm

theorem lexed_iff_of_signsOf {x y : Text} (h : signsOf x = signsOf y) : Lexed x ↔ Lexed y := by
  have hx := @lexedFrom_signsOf none nofun x
  have hy := @lexedFrom_signsOf none nofun y
  rw [h] at hx
  exact hx.symm.trans hy

/-- Escapes leave the signs of a value as they are. -/
theorem signsOf_attributeValue (x : Text) : signsOf (Markup.attributeValue x) = signsOf x := by
  have hchar (c : Char) : signsOf (Markup.attributeChar c) = signsOf [c] := by
    unfold Markup.attributeChar
    split
    · next h =>
      have hc : c = '\x22' := by simpa using h
      rw [hc]
      decide
    · split
      · next h =>
        have hc : c = '\n' := by simpa using h
        rw [hc]
        decide
      · split
        · next h =>
          have hc : c = '\r' := by simpa using h
          rw [hc]
          decide
        · rfl
  induction x with
  | nil => rfl
  | cons c x ih =>
      rw [Markup.attributeValue, List.flatMap_cons, signsOf_append, hchar, ← Markup.attributeValue,
        ih, ← signsOf_append, List.singleton_append]

/-! ### Attributes -/

/-- A value between two quotation marks, as it is. -/
def inMarks (value : Text) : Text := '\x22' :: value ++ ['\x22']

/-- Values without quotation marks are lexed. -/
theorem lexed_of_not_mem {values : List Text} (h : ∀ value ∈ values, '\x22' ∉ value) :
    Lexed (values.flatMap inMarks) := by
  induction values with
  | nil => exact .nil
  | cons value values ih =>
      rw [List.forall_mem_cons] at h
      have hrun : (value :: values).flatMap inMarks =
          '\x22' :: (value ++ '\x22' :: values.flatMap inMarks) := by
        simp [inMarks]
      rw [hrun]
      exact .run (by decide) h.1 (ih h.2)

/-- The name of an attribute holds no blanks and no signs. -/
def IsKey (key : Text) : Prop := ∀ c ∈ key, isBlank c = false ∧ c ∉ attributeSigns

instance (key : Text) : Decidable (IsKey key) :=
  List.decidableBAll (fun c => isBlank c = false ∧ c ∉ attributeSigns) key

/-- Attributes that quote values: on one line, without blanks at either end and without a slash at
their end. -/
structure Quotes (values : List Text) (attributes : Text) : Prop where
  oneLine : attributes.IsOneLine
  starts : ∃ c rest, attributes = c :: rest ∧ isBlank c = false
  ends : ∃ start c, attributes = start ++ [c] ∧ isBlank c = false ∧ c ≠ '/'
  signs : signsOf attributes = signsOf (values.flatMap inMarks)

theorem quotes_attr (key : Text) (hkey : IsKey key) (value : Text) :
    Quotes [value] (Fragment.attr key value) where
  oneLine := by
    have hline : key.IsOneLine :=
      ⟨fun hm => absurd (hkey _ hm).1 (by decide), fun hm => absurd (hkey _ hm).1 (by decide)⟩
    exact ((hline.append (by decide)).append (isOneLine_attributeValue value)).append (by decide)
  starts := by
    cases key with
    | nil => exact ⟨'=', _, rfl, by decide⟩
    | cons c key => exact ⟨c, _, rfl, (hkey c List.mem_cons_self).1⟩
  ends := ⟨_, '\x22', rfl, by decide, by decide⟩
  signs := by
    have hnone : signsOf key = [] := signsOf_of_forall fun c hc => (hkey c hc).2
    have hopen : signsOf ("=\"" : Text) = ['\x22'] := by decide
    have hall : [value].flatMap inMarks = ['\x22'] ++ value ++ ['\x22'] := by simp [inMarks]
    have hclose : signsOf ['\x22'] = ['\x22'] := by decide
    rw [Fragment.attr, hall]
    simp only [signsOf_append, hnone, hopen, hclose, signsOf_attributeValue, List.nil_append]

namespace Quotes

variable {values more : List Text} {a b : Text}

/-- Attributes are parted by a blank. -/
theorem spaced (ha : Quotes values a) (hb : Quotes more b) :
    Quotes (values ++ more) (a ++ ' ' :: b) where
  oneLine := ha.oneLine.append (Text.IsOneLine.append (x := [' ']) (by decide) hb.oneLine)
  starts := by
    obtain ⟨c, rest, rfl, hc⟩ := ha.starts
    exact ⟨c, _, rfl, hc⟩
  ends := by
    obtain ⟨start, c, rfl, hc⟩ := hb.ends
    exact ⟨a ++ ' ' :: start, c, by simp, hc⟩
  signs := by
    have hblank : signsOf (' ' :: b) = signsOf b := rfl
    rw [signsOf_append, hblank, ha.signs, hb.signs, List.flatMap_append, signsOf_append]

theorem flag (ha : Quotes values a) {word : Text} (hword : Quotes [] word) (isSet : Bool) :
    Quotes values (a ++ Fragment.flag word isSet) := by
  cases isSet with
  | true =>
      have hset := ha.spaced hword
      rwa [List.append_nil] at hset
  | false => rwa [Fragment.flag, if_neg Bool.false_ne_true, List.append_nil]

theorem strip_eq (h : Quotes values a) : a.strip = a := by
  obtain ⟨c, rest, e, hc⟩ := h.starts
  obtain ⟨start, d, e', hd, -⟩ := h.ends
  rw [Text.strip_eq, e, Text.stripStart_cons _ hc, ← e, e', Text.stripEnd_concat hd]

theorem endsPlain (h : Quotes values a) : EndsPlain a := by
  obtain ⟨start, c, rfl, hc⟩ := h.ends
  intro d hd
  rw [List.getLast?_concat, Option.mem_some_iff] at hd
  exact hd ▸ hc

theorem lexed_iff (h : Quotes values a) : Lexed a ↔ Lexed (values.flatMap inMarks) :=
  lexed_iff_of_signsOf h.signs

end Quotes

theorem quotes_defaultOpen : Quotes [] "defaultOpen" :=
  ⟨by decide, ⟨'d', _, rfl, by decide⟩, ⟨"defaultOpe", 'n', rfl, by decide, by decide⟩, by decide⟩

theorem quotes_required : Quotes [] "required" :=
  ⟨by decide, ⟨'r', _, rfl, by decide⟩, ⟨"require", 'd', rfl, by decide, by decide⟩, by decide⟩

/-! ### Opening tags -/

/-- The name of a component: a capital letter of ASCII and word characters. -/
def IsComponent (name : Text) : Prop :=
  ∃ c word, name = c :: word ∧ isAsciiCapital c = true ∧ word.all isWordChar = true

theorem IsComponent.isOneLine {name : Text} (h : IsComponent name) : name.IsOneLine := by
  obtain ⟨c, word, rfl, hc, hword⟩ := h
  refine isOneLine_of_isWordChar fun d hd => ?_
  rcases List.mem_cons.1 hd with rfl | hd
  · have hupper : d.isUpper = true := hc
    have hletter : d.isAlpha = true := Bool.or_eq_true_iff.2 (.inl hupper)
    simp [isWordChar, isAlphanumeric, Char.isAlphanum, hletter]
  · exact List.all_eq_true.1 hword d hd

theorem componentName?_append {name : Text} (h : IsComponent name) {c : Char}
    (hc : isWordChar c = false) (rest : Text) :
    componentName? (name ++ c :: rest) = some (name, c :: rest) := by
  obtain ⟨first, word, rfl, hfirst, hall⟩ := h
  have hword := List.all_eq_true.1 hall
  rw [List.cons_append, componentName?, if_pos hfirst, List.takeWhile_append_of_pos hword,
    List.dropWhile_append_of_pos hword, List.takeWhile_cons_of_neg (by simp [hc]),
    List.dropWhile_cons_of_neg (by simp [hc]), List.append_nil]

/-- An opening tag as it is written, whatever stands between its name and its end. -/
def tagText (name shown : Text) : Text := '<' :: (name ++ (shown ++ ['>']))

theorem strip_tagText (name shown : Text) : (tagText name shown).strip = tagText name shown := by
  have hend : tagText name shown = ('<' :: (name ++ shown)) ++ ['>'] := by simp [tagText]
  rw [Text.strip_eq, tagText, Text.stripStart_cons _ (by decide), ← tagText, hend,
    Text.stripEnd_concat (by decide)]

/-- A line that begins with the name of a component is a tag or nothing. -/
theorem lineBlock?_tagText {name : Text} (hname : IsComponent name) (shown : Text) :
    lineBlock? (tagText name shown) = openingLine? (tagText name shown) := by
  obtain ⟨c, word, rfl, hc, -⟩ := hname
  have hslash : c ≠ '/' := by
    rintro rfl
    cases hc
  have hheading : headingLine? (tagText (c :: word) shown) = none := rfl
  have hclosing : closingLine? (tagText (c :: word) shown) = none := by
    simp [tagText, closingLine?, hslash]
  rw [lineBlock?_eq_or, strip_tagText, hheading, hclosing]
  rfl

theorem openingLine?_attributes {name : Text} (hname : IsComponent name) (attributes : Text) :
    openingLine? (tagText name (' ' :: attributes)) =
      (tagEnd? none (attributes ++ ['>'])).map fun selfClosing =>
        { kind := .opening, text := tagText name (' ' :: attributes), name, selfClosing } := by
  have hcomponent : componentName? (name ++ ' ' :: (attributes ++ ['>'])) =
      some (name, ' ' :: (attributes ++ ['>'])) :=
    componentName?_append hname (by decide) _
  have hblank : isBlank ' ' = true := by decide
  simp [tagText, openingLine?, hcomponent, hblank]

theorem openingLine?_bare {name : Text} (hname : IsComponent name) :
    openingLine? (tagText name []) =
      some { kind := .opening, text := tagText name [], name, selfClosing := false } := by
  have hcomponent : componentName? (name ++ ['>']) = some (name, ['>']) :=
    componentName?_append hname (by decide) _
  simp [tagText, openingLine?, hcomponent]

/-- How an opening tag that quotes values is read from its text. -/
structure ReadsTag (values : List Text) (tag : Block) : Prop where
  reads : Lexed (values.flatMap inMarks) → Document.blocksOf tag.text = [tag]
  misreads : ¬ Lexed (values.flatMap inMarks) →
    Document.blocksOf tag.text = [Block.paragraph tag.text]

/-- The blocks of a tag's text are the block of that one line, or a paragraph. -/
theorem blocksOf_tagText {name shown : Text} (hname : IsComponent name)
    (hshown : shown.IsOneLine) :
    Document.blocksOf (tagText name shown) =
      [(lineBlock? (tagText name shown)).getD (Block.paragraph (tagText name shown))] := by
  have hline : (tagText name shown).IsOneLine :=
    Text.IsOneLine.append (x := ['<']) (by decide)
      (hname.isOneLine.append (hshown.append (by decide)))
  have hstrip := strip_tagText name shown
  have hfence : isFence (tagText name shown) = false := by
    rw [isFence, hstrip]
    rfl
  have hrule : isRule (tagText name shown) = false := by
    rw [isRule, hstrip]
    rfl
  have hb : (tagText name shown).isAllBlank = false := by
    rw [Text.isAllBlank_eq_strip, hstrip]
    rfl
  have htrim : (tagText name shown).stripEnd = tagText name shown := by
    rw [← hstrip, Text.stripEnd_strip]
  rw [Document.blocksOf, Text.unifyLineEnds_of_not_mem hline.2, Text.lines_of_not_mem hline.1,
    blocksOfAll, hrule]
  show blocksOfLines (.paragraph []) [tagText name shown] = _
  cases hblock : lineBlock? (tagText name shown) with
  | some block => rw [blocksOfLines_mark hblock]; rfl
  | none =>
      rw [blocksOfLines_prose hfence hb hblock, htrim]
      simp [blocksOfLines, paragraphOf, Text.unlines, Text.joinWith]

theorem readsTag_openTag {name : Text} (hname : IsComponent name) {values : List Text}
    {attributes : Text} (h : Quotes values attributes) :
    ReadsTag values (Block.openTag name attributes false) := by
  have hne : attributes ≠ [] := by
    obtain ⟨c, rest, rfl, -⟩ := h.starts
    exact List.cons_ne_nil c rest
  have htag : Block.openTag name attributes false =
      { kind := .opening, text := tagText name (' ' :: attributes), name, selfClosing := false } := by
    simp [Block.openTag, h.strip_eq, hne, tagText]
  have hshown : Text.IsOneLine (' ' :: attributes) :=
    Text.IsOneLine.append (x := [' ']) (by decide) h.oneLine
  have hread := blocksOf_tagText hname hshown
  rw [lineBlock?_tagText hname, openingLine?_attributes hname] at hread
  rw [htag]
  rcases @tagEnd?_append none nofun _ h.endsPlain with ⟨hlexed, hend⟩ | ⟨hnot, hend⟩
  · rw [hend] at hread
    exact ⟨fun _ => hread, fun hnot => absurd (h.lexed_iff.1 hlexed) hnot⟩
  · rw [hend] at hread
    exact ⟨fun hlexed => absurd (h.lexed_iff.2 hlexed) hnot, fun _ => hread⟩

theorem readsTag_bare {name : Text} (hname : IsComponent name) :
    ReadsTag [] (Block.openTag name [] false) := by
  have hstrip : Text.strip [] = [] := rfl
  have htag : Block.openTag name [] false =
      { kind := .opening, text := tagText name [], name, selfClosing := false } := by
    simp [Block.openTag, hstrip, tagText]
  have hread := @blocksOf_tagText name [] hname (by decide)
  rw [lineBlock?_tagText hname, openingLine?_bare hname] at hread
  rw [htag]
  exact ⟨fun _ => hread, fun hnot => absurd .nil hnot⟩

/-! ### The containers of pages -/

/-- The containers that are built on pages, each with the values that its opening tag quotes. -/
inductive Built : List Block → List Text → Prop
  | accordion (title : Text) (content : List Block) :
      Built (Fragment.accordion title content) [title]
  | expandable (title : Text) (content : List Block) (isOpen : Bool) :
      Built (Fragment.expandable title content isOpen) [title]
  | paramField {place : Text} (hplace : IsKey place) (name type : Text) (content : List Block)
      (required : Bool) : Built (Fragment.paramField place name type content required) [name, type]
  | responseField (name type : Text) (content : List Block) (required : Bool) :
      Built (Fragment.responseField name type content required) [name, type]
  | callout (sort title : Text) (content : List Block) :
      Built (Fragment.callout sort content title) (if title.isEmpty then [] else [title])

theorem isComponent_calloutName (sort : Text) : IsComponent (Fragment.calloutName sort) := by
  unfold Fragment.calloutName
  split
  · exact ⟨'I', "nfo", rfl, by decide, by decide⟩
  split
  · exact ⟨'W', "arning", rfl, by decide, by decide⟩
  split
  · exact ⟨'T', "ip", rfl, by decide, by decide⟩
  split
  · exact ⟨'C', "heck", rfl, by decide, by decide⟩
  · exact ⟨'N', "ote", rfl, by decide, by decide⟩

/-- A container begins with a tag, which is read as what it is if and only if the values that it
quotes are lexed, each taken as it is; otherwise it is read as a paragraph. -/
theorem Document.blocks_parse_built {built : List Block} {values : List Text}
    (h : Built built values) (location title : Text) :
    ∃ tag content, built = tag :: content ∧ tag.kind = .opening ∧
      (Lexed (values.flatMap inMarks) → (parse tag.text location title).blocks = [tag]) ∧
      (¬ Lexed (values.flatMap inMarks) →
        (parse tag.text location title).blocks = [Block.paragraph tag.text]) := by
  obtain ⟨tag, content, rfl, hkind, hread⟩ : ∃ tag content, built = tag :: content ∧
      tag.kind = .opening ∧ ReadsTag values tag := by
    cases h with
    | accordion name content =>
        refine ⟨_, _, rfl, rfl, readsTag_openTag ⟨'A', "ccordion", rfl, by decide, by decide⟩ ?_⟩
        exact quotes_attr "title" (by decide) name
    | expandable name content isOpen =>
        refine ⟨_, _, rfl, rfl, readsTag_openTag ⟨'E', "xpandable", rfl, by decide, by decide⟩ ?_⟩
        exact (quotes_attr "title" (by decide) name).flag quotes_defaultOpen isOpen
    | @paramField place hplace name type content required =>
        refine ⟨_, _, rfl, rfl, readsTag_openTag ⟨'P', "aramField", rfl, by decide, by decide⟩ ?_⟩
        have hquotes := (quotes_attr place hplace name).spaced
          (quotes_attr "type" (by decide) type)
        rw [List.append_assoc (Fragment.attr place name), List.singleton_append]
        exact hquotes.flag quotes_required required
    | responseField name type content required =>
        refine ⟨_, _, rfl, rfl, readsTag_openTag ⟨'R', "esponseField", rfl, by decide, by decide⟩ ?_⟩
        have hquotes := (quotes_attr "name" (by decide) name).spaced
          (quotes_attr "type" (by decide) type)
        rw [List.append_assoc (Fragment.attr "name" name), List.singleton_append]
        exact hquotes.flag quotes_required required
    | callout sort name content =>
        refine ⟨_, _, rfl, rfl, ?_⟩
        by_cases hname : name.isEmpty = true
        · rw [if_pos hname, if_pos hname]
          exact readsTag_bare (isComponent_calloutName sort)
        · rw [if_neg hname, if_neg hname]
          exact readsTag_openTag (isComponent_calloutName sort) (quotes_attr "title" (by decide) name)
  exact ⟨tag, content, rfl, hkind, hread.reads, hread.misreads⟩

/-- Brackets and apostrophes in a value are read, and so are quotation marks that stand in pairs, but
not a bracket between two of them. -/
theorem Document.blocks_parse_built_literalTypes :
    (∃ tag content, Fragment.accordion "Map<K, V>'s" [] = tag :: content ∧
      (parse tag.text [] []).blocks = [tag]) ∧
    (∃ tag content, Fragment.paramField "query" "mode" "\"on\" | \"off\"" [] true = tag :: content ∧
      (parse tag.text [] []).blocks = [tag]) ∧
    ∃ tag content, Fragment.paramField "query" "operator" "\">\"" [] true = tag :: content ∧
      tag.kind = .opening ∧ (parse tag.text [] []).blocks = [Block.paragraph tag.text] := by
  have hkey : IsKey "query" := by decide
  refine ⟨?_, ?_, ?_⟩
  · obtain ⟨tag, content, hbuilt, -, hread, -⟩ :=
      blocks_parse_built (.accordion "Map<K, V>'s" []) [] []
    exact ⟨tag, content, hbuilt, hread (lexed_of_not_mem (by decide))⟩
  · obtain ⟨tag, content, hbuilt, -, hread, -⟩ :=
      blocks_parse_built (.paramField hkey "mode" "\"on\" | \"off\"" [] true) [] []
    exact ⟨tag, content, hbuilt, hread (by decide)⟩
  · obtain ⟨tag, content, hbuilt, hkind, -, hread⟩ :=
      blocks_parse_built (.paramField hkey "operator" "\">\"" [] true) [] []
    exact ⟨tag, content, hbuilt, hkind, hread (by decide)⟩

end ApiReference
