import ApiReference.Proofs.WellNamed

/-! # Displayed types, glyph by glyph

What shows a type before its names are looked up: a row of glyphs, each a character or a name that
may have a page (`TypeExpr.glyphs`).  With any links, a type is shown as its glyphs are written
(`show_eq`), so linking changes nothing but its names.

The names among the glyphs are those of the references at the places that are shown
(`name_mem_glyphs_iff`).  Signs stand between any two parts of a type, so a closing bracket is never
followed by a name or an opening parenthesis (`parted_glyphs`). -/

namespace ApiReference

/-- A glyph of a displayed type. -/
inductive Glyph
  | char (c : Char)
  /-- The name of a reference, which may be linked. -/
  | name (x : Text)
deriving DecidableEq

namespace Glyph

/-- The glyphs of a text without names to link. -/
def ofText (x : Text) : List Glyph := x.map .char

/-- Rows of glyphs with a text between each two. -/
def joinWith (sep : Text) (rows : List (List Glyph)) : List Glyph :=
  List.intercalate (ofText sep) rows

/-- A glyph as it is written. -/
def write (links : Links) : Glyph → Text
  | char c => [c]
  | name x => shownName links x

/-- Glyphs as they are written. -/
def writeAll (links : Links) (glyphs : List Glyph) : Text := glyphs.flatMap (write links)

end Glyph

/-! ### The glyphs of a type -/

open Glyph (ofText)

mutual

/-- The glyphs of a type. -/
def TypeExpr.glyphs : TypeExpr → List Glyph
  | .intrinsic name => ofText name
  | .reference name arguments =>
    match arguments with
    | [] => [.name name]
    | first :: more =>
      .name name ::
        (ofText ['<'] ++ Glyph.joinWith ", " (glyphsAll (first :: more)) ++ ofText ['>'])
  | .array element => glyphsPart element ++ ofText "[]"
  | .union members => Glyph.joinWith " | " (glyphsAll members)
  | .intersection members => Glyph.joinWith " & " (glyphsAll members)
  | .literal value => ofText value.render
  | .tuple elements => ofText ['['] ++ Glyph.joinWith ", " (glyphsAll elements) ++ ofText [']']
  | .reflection (some ⟨_, parameters, type, _⟩) _ =>
    ofText ['('] ++ Glyph.joinWith ", " (glyphsParameters parameters) ++ ofText ") => " ++
      glyphsPart type
  | .reflection none members =>
    match members with
    | [] => ofText "object"
    | first :: more =>
      ofText ['\x7b', ' '] ++ Glyph.joinWith "; " (glyphsMembers (first :: more)) ++
        ofText [' ', '\x7d']
  | .conditional check bound whenTrue whenFalse =>
    glyphsPart check ++ ofText " extends " ++ glyphsPart bound ++ ofText " ? " ++
      glyphsPart whenTrue ++ ofText " : " ++ glyphsPart whenFalse
  | .indexedAccess object index =>
    glyphsPart object ++ ofText ['['] ++ glyphsPart index ++ ofText [']']
  | .query name => ofText ("typeof " ++ (if name.isEmpty then ("unknown" : Text) else name))
  | .predicate name target =>
    ofText ((name.orText "this").display ++ " is ") ++ glyphsPart target
  | .unknown _ text => ofText (text.orText "any").display

/-- The glyphs of a part of a type that may be missing. -/
def glyphsPart : Option TypeExpr → List Glyph
  | none => ofText "any"
  | some type => type.glyphs

/-- The glyphs of each type. -/
def glyphsAll : List TypeExpr → List (List Glyph)
  | [] => []
  | type :: more => type.glyphs :: glyphsAll more

/-- The glyphs of each parameter. -/
def glyphsParameters : List Parameter → List (List Glyph)
  | [] => []
  | ⟨name, type, flags, _⟩ :: more =>
    (ofText (name ++ optionalMark flags ++ ": ") ++ glyphsPart type) :: glyphsParameters more

/-- The glyphs of each member of an object type. -/
def glyphsMembers : List Declaration → List (List Glyph)
  | [] => []
  | ⟨name, _, _, ⟨_, parameters, result, _⟩ :: _, _, none, flags, _⟩ :: more =>
    (ofText (name ++ optionalMark flags ++ ['(']) ++
      Glyph.joinWith ", " (glyphsParameters parameters) ++ ofText "): " ++ glyphsPart result) ::
        glyphsMembers more
  | ⟨name, _, _, _, _, type, flags, _⟩ :: more =>
    (ofText (name ++ optionalMark flags ++ ": ") ++ glyphsPart type) :: glyphsMembers more

end

/-! ### The words of a type -/

section

variable (isName isWord : Text → Bool)

mutual

/-- At the places of a type that are shown, every name satisfies `isName`, and every literal and
every text of an unknown variant satisfies `isWord`. -/
def TypeExpr.wordedBy : TypeExpr → Bool
  | .intrinsic name | .query name => isName name
  | .reference name arguments => isName name && wordedByAll arguments
  | .array element => wordedByPart element
  | .union members | .intersection members | .tuple members => wordedByAll members
  | .literal value => isWord value.render
  | .reflection (some ⟨_, parameters, type, _⟩) _ =>
    wordedByParameters parameters && wordedByPart type
  | .reflection none members => wordedByMembers members
  | .conditional check bound whenTrue whenFalse =>
    wordedByPart check && wordedByPart bound && wordedByPart whenTrue && wordedByPart whenFalse
  | .indexedAccess object index => wordedByPart object && wordedByPart index
  | .predicate name target => (name.isVoid || isName name.display) && wordedByPart target
  | .unknown _ (.str x) => isWord x
  | .unknown _ text => text.isVoid

/-- The same for a part of a type that may be missing. -/
def wordedByPart : Option TypeExpr → Bool
  | none => true
  | some type => type.wordedBy

/-- The same for types. -/
def wordedByAll : List TypeExpr → Bool
  | [] => true
  | type :: more => type.wordedBy && wordedByAll more

/-- The same for parameters. -/
def wordedByParameters : List Parameter → Bool
  | [] => true
  | ⟨name, type, _, _⟩ :: more => isName name && wordedByPart type && wordedByParameters more

/-- The same for the members of an object type. -/
def wordedByMembers : List Declaration → Bool
  | [] => true
  | ⟨name, _, _, ⟨_, parameters, result, _⟩ :: _, _, none, _, _⟩ :: more =>
    isName name && wordedByParameters parameters && wordedByPart result && wordedByMembers more
  | ⟨name, _, _, _, _, type, _, _⟩ :: more =>
    isName name && wordedByPart type && wordedByMembers more

end

end

/-! ### Types are shown as their glyphs are written -/

namespace Glyph

variable (links : Links)

theorem writeAll_append (a b : List Glyph) :
    writeAll links (a ++ b) = writeAll links a ++ writeAll links b := List.flatMap_append

theorem writeAll_ofText (x : Text) : writeAll links (ofText x) = x := by
  rw [writeAll, ofText, List.flatMap_map]
  exact List.flatMap_singleton' x

theorem joinWith_singleton (sep : Text) (row : List Glyph) : joinWith sep [row] = row :=
  List.intercalate_singleton

theorem joinWith_cons_cons (sep : Text) (first second : List Glyph) (more : List (List Glyph)) :
    joinWith sep (first :: second :: more) =
      first ++ ofText sep ++ joinWith sep (second :: more) :=
  List.intercalate_cons_cons

theorem writeAll_joinWith (sep : Text) (rows : List (List Glyph)) :
    writeAll links (joinWith sep rows) = Text.joinWith sep (rows.map (writeAll links)) := by
  induction rows with
  | nil => rfl
  | cons row rows ih =>
      cases rows with
      | nil =>
          rw [joinWith_singleton]
          exact List.intercalate_singleton.symm
      | cons second rows =>
          rw [joinWith_cons_cons, writeAll_append, writeAll_append, writeAll_ofText, ih,
            List.map_cons]
          exact (Text.joinWith_cons_cons _ _ _ _).symm

end Glyph

open Glyph (writeAll writeAll_append writeAll_ofText writeAll_joinWith)

section

variable {isName isWord : Text → Bool} (links : Links)

mutual

theorem show_eq : ∀ (type : TypeExpr), type.wordedBy isName isWord = true →
    type.show links = .ok (.str (writeAll links type.glyphs))
  | .intrinsic name, _ => by rw [TypeExpr.show, TypeExpr.glyphs, writeAll_ofText]
  | .literal value, _ => by rw [TypeExpr.show, TypeExpr.glyphs, writeAll_ofText]
  | .query name, _ => by rw [TypeExpr.show, TypeExpr.glyphs, writeAll_ofText]
  | .reference name [], _ => by
      rw [TypeExpr.show, TypeExpr.glyphs]
      exact congrArg (fun x => Except.ok (Json.str x)) (List.append_nil _).symm
  | .reference name (first :: more), h => by
      rw [TypeExpr.wordedBy, Bool.and_eq_true] at h
      have hall := showAll_eq (first :: more) h.2
      rw [TypeExpr.show, TypeExpr.glyphs, hall, ok_bind, joinTexts_str, ← writeAll_joinWith]
      simp [writeAll, Glyph.write, ofText]
  | .array element, h => by
      rw [TypeExpr.wordedBy] at h
      rw [TypeExpr.show, TypeExpr.glyphs, showPart_eq element h, writeAll_append, writeAll_ofText]
      rfl
  | .union members, h => by
      rw [TypeExpr.wordedBy] at h
      rw [TypeExpr.show, TypeExpr.glyphs, showAll_eq members h, ok_bind, joinTexts_str,
        writeAll_joinWith]
      rfl
  | .intersection members, h => by
      rw [TypeExpr.wordedBy] at h
      rw [TypeExpr.show, TypeExpr.glyphs, showAll_eq members h, ok_bind, joinTexts_str,
        writeAll_joinWith]
      rfl
  | .tuple elements, h => by
      rw [TypeExpr.wordedBy] at h
      rw [TypeExpr.show, TypeExpr.glyphs, showAll_eq elements h, ok_bind, joinTexts_str,
        writeAll_append, writeAll_append, writeAll_joinWith, writeAll_ofText, writeAll_ofText]
      rfl
  | .reflection none [], _ => by rw [TypeExpr.show, TypeExpr.glyphs, writeAll_ofText]
  | .reflection none (first :: more), h => by
      rw [TypeExpr.wordedBy] at h
      rw [TypeExpr.show, TypeExpr.glyphs, showMembers_eq (first :: more) h, writeAll_append,
        writeAll_append, writeAll_joinWith, writeAll_ofText, writeAll_ofText]
      rfl
  | .reflection (some ⟨_, parameters, type, _⟩) _, h => by
      rw [TypeExpr.wordedBy, Bool.and_eq_true] at h
      rw [TypeExpr.show, TypeExpr.glyphs, showParameters_eq parameters h.1, showPart_eq type h.2,
        writeAll_append, writeAll_append, writeAll_append, writeAll_joinWith, writeAll_ofText,
        writeAll_ofText]
      rfl
  | .conditional check bound whenTrue whenFalse, h => by
      rw [TypeExpr.wordedBy, Bool.and_eq_true, Bool.and_eq_true, Bool.and_eq_true] at h
      rw [TypeExpr.show, TypeExpr.glyphs, showPart_eq check h.1.1.1, showPart_eq bound h.1.1.2,
        showPart_eq whenTrue h.1.2, showPart_eq whenFalse h.2]
      simp only [writeAll_append, writeAll_ofText]
      rfl
  | .indexedAccess object index, h => by
      rw [TypeExpr.wordedBy, Bool.and_eq_true] at h
      rw [TypeExpr.show, TypeExpr.glyphs, showPart_eq object h.1, showPart_eq index h.2]
      simp only [writeAll_append, writeAll_ofText]
      rfl
  | .predicate name target, h => by
      rw [TypeExpr.wordedBy, Bool.and_eq_true] at h
      rw [TypeExpr.show, TypeExpr.glyphs, showPart_eq target h.2, writeAll_append, writeAll_ofText]
      rfl
  | .unknown _ text, h => by
      rw [TypeExpr.show, TypeExpr.glyphs, writeAll_ofText]
      by_cases hvoid : text.isVoid = true
      · rw [Json.orText, if_pos hvoid]
        rfl
      · rw [Json.orText, if_neg hvoid]
        cases text with
        | str x => rfl
        | _ => exact absurd h hvoid

theorem showPart_eq : ∀ (type : Option TypeExpr), wordedByPart isName isWord type = true →
    showPart links type = .ok (.str (writeAll links (glyphsPart type)))
  | none, _ => by rw [showPart, glyphsPart, writeAll_ofText]
  | some type, h => by
      rw [wordedByPart] at h
      rw [showPart, glyphsPart, show_eq type h]

theorem showAll_eq : ∀ (types : List TypeExpr), wordedByAll isName isWord types = true →
    showAll links types = .ok (((glyphsAll types).map (writeAll links)).map .str)
  | [], _ => by rw [showAll, glyphsAll]; rfl
  | type :: more, h => by
      rw [wordedByAll, Bool.and_eq_true] at h
      rw [showAll, glyphsAll, show_eq type h.1, showAll_eq more h.2]
      rfl

theorem showParameters_eq : ∀ (parameters : List Parameter),
    wordedByParameters isName isWord parameters = true →
    showParameters links parameters = .ok ((glyphsParameters parameters).map (writeAll links))
  | [], _ => by rw [showParameters, glyphsParameters]; rfl
  | ⟨name, type, flags, _⟩ :: more, h => by
      rw [wordedByParameters, Bool.and_eq_true, Bool.and_eq_true] at h
      rw [showParameters, glyphsParameters, showPart_eq type h.1.2, showParameters_eq more h.2,
        List.map_cons, writeAll_append, writeAll_ofText]
      rfl

theorem showMembers_eq : ∀ (members : List Declaration),
    wordedByMembers isName isWord members = true →
    showMembers links members = .ok ((glyphsMembers members).map (writeAll links))
  | [], _ => by rw [showMembers, glyphsMembers]; rfl
  | ⟨name, _, _, ⟨_, parameters, result, _⟩ :: _, _, none, flags, _⟩ :: more, h => by
      rw [wordedByMembers, Bool.and_eq_true, Bool.and_eq_true, Bool.and_eq_true] at h
      rw [showMembers, glyphsMembers, showParameters_eq parameters h.1.1.2,
        showPart_eq result h.1.2, showMembers_eq more h.2, List.map_cons]
      simp only [writeAll_append, writeAll_joinWith, writeAll_ofText]
      rfl
  | ⟨name, _, _, _, _, some type, flags, _⟩ :: more, h => by
      rw [wordedByMembers, Bool.and_eq_true, Bool.and_eq_true] at h
      · rw [showMembers, glyphsMembers, showPart_eq (some type) h.1.2, showMembers_eq more h.2,
          List.map_cons, writeAll_append, writeAll_ofText]
        · rfl
        · nofun
        · nofun
      · nofun
  | ⟨name, _, _, [], _, none, flags, _⟩ :: more, h => by
      rw [wordedByMembers, Bool.and_eq_true, Bool.and_eq_true] at h
      · rw [showMembers, glyphsMembers, showPart_eq none h.1.2, showMembers_eq more h.2,
          List.map_cons, writeAll_append, writeAll_ofText]
        · rfl
        · nofun
        · nofun
      · nofun

end

end

/-! ### Signs between the parts of a type -/

/-- The text holds neither brackets nor parentheses. -/
def isBracketFree (x : Text) : Bool := x.all fun c => c != '[' && c != ']' && c != '(' && c != ')'

theorem not_mem_of_isBracketFree {x : Text} (h : isBracketFree x = true) :
    '[' ∉ x ∧ ']' ∉ x ∧ '(' ∉ x ∧ ')' ∉ x := by
  have hall : ∀ c ∈ x, c ≠ '[' ∧ c ≠ ']' ∧ c ≠ '(' ∧ c ≠ ')' := by
    intro c hm
    have hc := List.all_eq_true.1 h c hm
    simpa [and_assoc] using hc
  refine ⟨?_, ?_, ?_, ?_⟩
  · exact fun hm => (hall _ hm).1 rfl
  · exact fun hm => (hall _ hm).2.1 rfl
  · exact fun hm => (hall _ hm).2.2.1 rfl
  · exact fun hm => (hall _ hm).2.2.2 rfl

namespace Glyph

/-- After a closing bracket comes a character, but no opening parenthesis. -/
def mayFollow : Glyph → Glyph → Bool
  | .char a, .char b => a != ']' || b != '('
  | .char a, .name _ => a != ']'
  | .name _, _ => true

/-- Glyphs in which signs part a closing bracket from names and from opening parentheses, and whose
names satisfy `isName`. -/
structure Parted (isName : Text → Bool) (row : List Glyph) : Prop where
  chain : row.IsChain fun a b => mayFollow a b = true
  names : ∀ x, .name x ∈ row → isName x = true

theorem name_not_mem_ofText (x y : Text) : .name x ∉ ofText y := by
  intro hm
  obtain ⟨c, _, hc⟩ := List.mem_map.1 hm
  cases hc

namespace Parted

variable {isName : Text → Bool} {a b : List Glyph}

theorem nil : Parted isName [] := ⟨.nil, nofun⟩

theorem name {x : Text} (h : isName x = true) : Parted isName [.name x] where
  chain := .singleton _
  names := by
    intro y hm
    cases List.mem_singleton.1 hm
    exact h

/-- A text in which no closing bracket comes before the end. -/
theorem ofText {x : Text} (h : ']' ∉ x.dropLast) : Parted isName (ofText x) where
  chain := by
    induction x with
    | nil => exact .nil
    | cons c x ih =>
        cases x with
        | nil => exact .singleton _
        | cons d x =>
            rw [List.dropLast_cons_cons, List.mem_cons, not_or] at h
            refine List.isChain_cons_cons.2 ⟨?_, ih h.2⟩
            have hc : c ≠ ']' := fun e => h.1 e.symm
            simp [mayFollow, hc]
  names := fun y hm => absurd hm (name_not_mem_ofText y x)

theorem append (ha : Parted isName a) (hb : Parted isName b)
    (h : ∀ g ∈ a.getLast?, ∀ g' ∈ b.head?, mayFollow g g' = true) :
    Parted isName (a ++ b) where
  chain := List.isChain_append.2 ⟨ha.chain, hb.chain, h⟩
  names := by
    intro x hm
    rcases List.mem_append.1 hm with hm | hm
    · exact ha.names x hm
    · exact hb.names x hm

/-- Glyphs after a text that ends in no closing bracket. -/
theorem after {x : Text} (h : ']' ∉ x) (hb : Parted isName b) :
    Parted isName (Glyph.ofText x ++ b) := by
  apply (Parted.ofText fun hm => h (List.dropLast_subset x hm)).append hb
  intro g hg g' _
  obtain ⟨c, hc, rfl⟩ := List.mem_map.1 (List.mem_of_getLast? hg)
  have hne : c ≠ ']' := fun e => h (e ▸ hc)
  cases g' <;> simp [mayFollow, hne]

/-- Glyphs before a text that does not begin with an opening parenthesis. -/
theorem before {c : Char} {x : Text} (ha : Parted isName a) (hc : c ≠ '(')
    (hx : ']' ∉ (c :: x).dropLast) : Parted isName (a ++ Glyph.ofText (c :: x)) := by
  apply ha.append (.ofText hx)
  intro g _ g' hg'
  cases Option.some.inj hg'
  cases g <;> simp [mayFollow, hc]

/-- Glyphs on both sides of a text that does neither. -/
theorem between {c : Char} {x : Text} (ha : Parted isName a) (hc : c ≠ '(') (hx : ']' ∉ c :: x)
    (hb : Parted isName b) : Parted isName (a ++ Glyph.ofText (c :: x) ++ b) := by
  rw [List.append_assoc]
  apply ha.append (after hx hb)
  intro g _ g' hg'
  cases Option.some.inj hg'
  cases g <;> simp [mayFollow, hc]

/-- Rows of glyphs with such a text between each two. -/
theorem joinWith {c : Char} {sep : Text} (hc : c ≠ '(') (hsep : ']' ∉ c :: sep)
    {rows : List (List Glyph)} (h : ∀ row ∈ rows, Parted isName row) :
    Parted isName (joinWith (c :: sep) rows) := by
  induction rows with
  | nil => exact nil
  | cons row rows ih =>
      obtain ⟨hrow, hrows⟩ := List.forall_mem_cons.1 h
      cases rows with
      | nil => rwa [joinWith_singleton]
      | cons second rows =>
          rw [joinWith_cons_cons]
          exact hrow.between hc hsep (ih hrows)

end Parted

end Glyph

open Glyph (Parted)

/-- Words that satisfy one of two conditions hold no brackets. -/
structure Unbracketed (isName isWord : Text → Bool) : Prop where
  name : ∀ x, isName x = true → isBracketFree x = true
  word : ∀ x, isWord x = true → isBracketFree x = true

section

variable {isName isWord : Text → Bool}

theorem closing_not_mem_label (hw : Unbracketed isName isWord) {name : Text}
    (h : isName name = true) (flags : Flags) {sign : Text} (hsign : ']' ∉ sign) :
    ']' ∉ name ++ optionalMark flags ++ sign := by
  have hn : ']' ∉ name := (not_mem_of_isBracketFree (hw.name name h)).2.1
  have hmark : ']' ∉ optionalMark flags := by
    unfold optionalMark
    split <;> decide
  simp [hn, hmark, hsign]

mutual

theorem parted_glyphs (hw : Unbracketed isName isWord) :
    ∀ (type : TypeExpr), type.wordedBy isName isWord = true →
    Parted isName type.glyphs
  | .intrinsic name, h => by
      rw [TypeExpr.wordedBy] at h
      rw [TypeExpr.glyphs]
      have hn : ']' ∉ name := (not_mem_of_isBracketFree (hw.name name h)).2.1
      exact .ofText fun hm => hn (List.dropLast_subset name hm)
  | .query name, h => by
      rw [TypeExpr.wordedBy] at h
      rw [TypeExpr.glyphs]
      have hn : ']' ∉ name := (not_mem_of_isBracketFree (hw.name name h)).2.1
      have hall :
          ']' ∉ "typeof ".toList ++ (if name.isEmpty then ("unknown" : Text) else name) := by
        split
        · decide
        · simpa using hn
      exact .ofText fun hm => hall (List.dropLast_subset _ hm)
  | .reference name [], h => by
      rw [TypeExpr.wordedBy, Bool.and_eq_true] at h
      rw [TypeExpr.glyphs]
      exact .name h.1
  | .reference name (first :: more), h => by
      rw [TypeExpr.wordedBy, Bool.and_eq_true] at h
      rw [TypeExpr.glyphs]
      have harguments : Parted isName (Glyph.joinWith ", " (glyphsAll (first :: more))) :=
        .joinWith (by decide) (by decide) (parted_glyphsAll hw (first :: more) h.2)
      have hbody := (harguments.after (x := ['<']) (by decide)).before (c := '>') (x := [])
        (by decide) (by decide)
      refine (Parted.name h.1).append hbody ?_
      intro g hg g' _
      cases Option.some.inj hg
      rfl
  | .array element, h => by
      rw [TypeExpr.wordedBy] at h
      rw [TypeExpr.glyphs]
      exact (parted_glyphsPart hw element h).before (by decide) (by decide)
  | .union members, h => by
      rw [TypeExpr.wordedBy] at h
      rw [TypeExpr.glyphs]
      exact .joinWith (by decide) (by decide) (parted_glyphsAll hw members h)
  | .intersection members, h => by
      rw [TypeExpr.wordedBy] at h
      rw [TypeExpr.glyphs]
      exact .joinWith (by decide) (by decide) (parted_glyphsAll hw members h)
  | .literal value, h => by
      rw [TypeExpr.wordedBy] at h
      rw [TypeExpr.glyphs]
      have hn := (not_mem_of_isBracketFree (hw.word _ h)).2.1
      exact .ofText fun hm => hn (List.dropLast_subset _ hm)
  | .tuple elements, h => by
      rw [TypeExpr.wordedBy] at h
      rw [TypeExpr.glyphs]
      have helements : Parted isName (Glyph.joinWith ", " (glyphsAll elements)) :=
        .joinWith (by decide) (by decide) (parted_glyphsAll hw elements h)
      exact (helements.after (by decide)).before (by decide) (by decide)
  | .reflection none [], _ => by
      rw [TypeExpr.glyphs]
      exact .ofText (by decide)
  | .reflection none (first :: more), h => by
      rw [TypeExpr.wordedBy] at h
      rw [TypeExpr.glyphs]
      have hmembers : Parted isName (Glyph.joinWith "; " (glyphsMembers (first :: more))) :=
        .joinWith (by decide) (by decide) (parted_glyphsMembers hw (first :: more) h)
      exact (hmembers.after (by decide)).before (by decide) (by decide)
  | .reflection (some ⟨_, parameters, type, _⟩) _, h => by
      rw [TypeExpr.wordedBy, Bool.and_eq_true] at h
      rw [TypeExpr.glyphs]
      have hparameters : Parted isName (Glyph.joinWith ", " (glyphsParameters parameters)) :=
        .joinWith (by decide) (by decide) (parted_glyphsParameters hw parameters h.1)
      exact (hparameters.after (by decide)).between (by decide) (by decide)
        (parted_glyphsPart hw type h.2)
  | .conditional check bound whenTrue whenFalse, h => by
      rw [TypeExpr.wordedBy, Bool.and_eq_true, Bool.and_eq_true, Bool.and_eq_true] at h
      rw [TypeExpr.glyphs]
      have hbound := (parted_glyphsPart hw check h.1.1.1).between (c := ' ')
        (x := "extends ".toList) (by decide) (by decide) (parted_glyphsPart hw bound h.1.1.2)
      have htrue := hbound.between (c := ' ') (x := "? ".toList) (by decide) (by decide)
        (parted_glyphsPart hw whenTrue h.1.2)
      exact htrue.between (by decide) (by decide) (parted_glyphsPart hw whenFalse h.2)
  | .indexedAccess object index, h => by
      rw [TypeExpr.wordedBy, Bool.and_eq_true] at h
      rw [TypeExpr.glyphs]
      have hindex := (parted_glyphsPart hw object h.1).between (c := '[') (x := []) (by decide)
        (by decide) (parted_glyphsPart hw index h.2)
      exact hindex.before (by decide) (by decide)
  | .predicate name target, h => by
      rw [TypeExpr.wordedBy, Bool.and_eq_true] at h
      rw [TypeExpr.glyphs]
      have hsubject : ']' ∉ (name.orText "this").display := by
        unfold Json.orText
        split
        · decide
        · next hvoid =>
          have hn : isName name.display = true := by simpa [hvoid] using h.1
          exact (not_mem_of_isBracketFree (hw.name _ hn)).2.1
      refine .after ?_ (parted_glyphsPart hw target h.2)
      rw [List.mem_append, not_or]
      exact ⟨hsubject, by decide⟩
  | .unknown _ text, h => by
      rw [TypeExpr.glyphs]
      have hn : ']' ∉ (text.orText "any").display := by
        unfold Json.orText
        split
        · decide
        · next hvoid =>
          cases text with
          | str x =>
              rw [TypeExpr.wordedBy] at h
              exact (not_mem_of_isBracketFree (hw.word x h)).2.1
          | _ => exact absurd h hvoid
      exact .ofText fun hm => hn (List.dropLast_subset _ hm)

theorem parted_glyphsPart (hw : Unbracketed isName isWord) :
    ∀ (type : Option TypeExpr), wordedByPart isName isWord type = true →
    Parted isName (glyphsPart type)
  | none, _ => by
      rw [glyphsPart]
      exact .ofText (by decide)
  | some type, h => by
      rw [wordedByPart] at h
      rw [glyphsPart]
      exact parted_glyphs hw type h

theorem parted_glyphsAll (hw : Unbracketed isName isWord) :
    ∀ (types : List TypeExpr), wordedByAll isName isWord types = true →
    ∀ row ∈ glyphsAll types, Parted isName row
  | [], _ => by
      rw [glyphsAll]
      exact nofun
  | type :: more, h => by
      rw [wordedByAll, Bool.and_eq_true] at h
      rw [glyphsAll, List.forall_mem_cons]
      exact ⟨parted_glyphs hw type h.1, parted_glyphsAll hw more h.2⟩

theorem parted_glyphsParameters (hw : Unbracketed isName isWord) :
    ∀ (parameters : List Parameter),
    wordedByParameters isName isWord parameters = true →
    ∀ row ∈ glyphsParameters parameters, Parted isName row
  | [], _ => by
      rw [glyphsParameters]
      exact nofun
  | ⟨name, type, flags, _⟩ :: more, h => by
      rw [wordedByParameters, Bool.and_eq_true, Bool.and_eq_true] at h
      rw [glyphsParameters, List.forall_mem_cons]
      have hlabel := closing_not_mem_label hw h.1.1 flags (by decide : ']' ∉ (": " : Text))
      have hrow := (parted_glyphsPart hw type h.1.2).after hlabel
      exact ⟨hrow, parted_glyphsParameters hw more h.2⟩

theorem parted_glyphsMembers (hw : Unbracketed isName isWord) :
    ∀ (members : List Declaration),
    wordedByMembers isName isWord members = true →
    ∀ row ∈ glyphsMembers members, Parted isName row
  | [], _ => by
      rw [glyphsMembers]
      exact nofun
  | ⟨name, _, _, ⟨_, parameters, result, _⟩ :: _, _, none, flags, _⟩ :: more, h => by
      rw [wordedByMembers, Bool.and_eq_true, Bool.and_eq_true, Bool.and_eq_true] at h
      rw [glyphsMembers, List.forall_mem_cons]
      have hlabel := closing_not_mem_label hw h.1.1.1 flags (by decide : ']' ∉ ['('])
      have hparameters : Parted isName (Glyph.joinWith ", " (glyphsParameters parameters)) :=
        .joinWith (by decide) (by decide) (parted_glyphsParameters hw parameters h.1.1.2)
      exact ⟨(hparameters.after hlabel).between (by decide) (by decide)
        (parted_glyphsPart hw result h.1.2), parted_glyphsMembers hw more h.2⟩
  | ⟨name, _, _, _, _, some type, flags, _⟩ :: more, h => by
      rw [wordedByMembers, Bool.and_eq_true, Bool.and_eq_true] at h
      · rw [glyphsMembers, List.forall_mem_cons]
        · have hlabel := closing_not_mem_label hw h.1.1 flags (by decide : ']' ∉ (": " : Text))
          have hrow := (parted_glyphsPart hw (some type) h.1.2).after hlabel
          exact ⟨hrow, parted_glyphsMembers hw more h.2⟩
        · nofun
      · nofun
  | ⟨name, _, _, [], _, none, flags, _⟩ :: more, h => by
      rw [wordedByMembers, Bool.and_eq_true, Bool.and_eq_true] at h
      · rw [glyphsMembers, List.forall_mem_cons]
        · have hlabel := closing_not_mem_label hw h.1.1 flags (by decide : ']' ∉ (": " : Text))
          have hrow := (parted_glyphsPart hw none h.1.2).after hlabel
          exact ⟨hrow, parted_glyphsMembers hw more h.2⟩
        · nofun
      · nofun

end

end

/-! ### The names among the glyphs -/

/-- The types that a signature shows: those of its parameters and of its result. -/
def Signature.shownTypes (signature : Signature) : List TypeExpr :=
  signature.parameters.filterMap (·.type) ++ signature.type.toList

/-- The types that a member of an object type shows: its own one or, if it has none, those of its
first signature. -/
def Declaration.shownTypes (member : Declaration) : List TypeExpr :=
  match member.type with
  | some type => [type]
  | none => (member.signatures.head?.map Signature.shownTypes).getD []

/-- The types that are shown as parts of a type. -/
def TypeExpr.shownParts : TypeExpr → List TypeExpr
  | .intrinsic _ | .literal _ | .query _ | .unknown _ _ => []
  | .reference _ arguments => arguments
  | .array element => element.toList
  | .union members | .intersection members | .tuple members => members
  | .reflection (some signature) _ => signature.shownTypes
  | .reflection none members => members.flatMap Declaration.shownTypes
  | .conditional check bound whenTrue whenFalse =>
    check.toList ++ bound.toList ++ whenTrue.toList ++ whenFalse.toList
  | .indexedAccess object index => object.toList ++ index.toList
  | .predicate _ target => target.toList

/-- A reference of that name is shown somewhere in a type. -/
inductive TypeExpr.Mentions (name : Text) : TypeExpr → Prop
  | here (arguments : List TypeExpr) : Mentions name (.reference name arguments)
  | inside {type part : TypeExpr} (h : part ∈ type.shownParts) (hpart : Mentions name part) :
      Mentions name type

theorem mentions_iff_of_ne {name : Text} {type : TypeExpr}
    (h : ∀ arguments, type ≠ .reference name arguments) :
    type.Mentions name ↔ ∃ part ∈ type.shownParts, part.Mentions name := by
  constructor
  · intro hm
    cases hm with
    | here arguments => exact absurd rfl (h arguments)
    | inside hpart hm => exact ⟨_, hpart, hm⟩
  · rintro ⟨part, hpart, hm⟩
    exact .inside hpart hm

theorem mentions_reference_iff {name other : Text} {arguments : List TypeExpr} :
    (TypeExpr.reference other arguments).Mentions name ↔
      name = other ∨ ∃ part ∈ arguments, part.Mentions name := by
  constructor
  · intro hm
    cases hm with
    | here => exact .inl rfl
    | inside hpart hm => exact .inr ⟨_, hpart, hm⟩
  · rintro (rfl | ⟨part, hpart, hm⟩)
    · exact .here arguments
    · exact .inside hpart hm

theorem Glyph.name_mem_joinWith_iff {x sep : Text} {rows : List (List Glyph)} :
    .name x ∈ Glyph.joinWith sep rows ↔ ∃ row ∈ rows, .name x ∈ row := by
  induction rows with
  | nil => exact ⟨nofun, nofun⟩
  | cons row rows ih =>
      cases rows with
      | nil =>
          simp [joinWith_singleton]
      | cons second rows =>
          rw [joinWith_cons_cons, List.mem_append, List.mem_append, ih,
            iff_false_intro (Glyph.name_not_mem_ofText x sep), or_false]
          simp

theorem Glyph.name_mem_between_iff {x : Text} {opening closing : Text} {row : List Glyph} :
    .name x ∈ ofText opening ++ row ++ ofText closing ↔ .name x ∈ row := by
  simp [Glyph.name_not_mem_ofText]

/-- A type without parts that is no reference is shown by a text. -/
theorem name_mem_ofText_iff {x y : Text} {type : TypeExpr} (hparts : type.shownParts = [])
    (h : ∀ arguments, type ≠ .reference x arguments) : .name x ∈ ofText y ↔ type.Mentions x := by
  rw [mentions_iff_of_ne h, hparts]
  refine iff_of_false (Glyph.name_not_mem_ofText x y) ?_
  rintro ⟨part, hpart, -⟩
  cases hpart

mutual

theorem name_mem_glyphs_iff {x : Text} : ∀ (type : TypeExpr),
    .name x ∈ type.glyphs ↔ type.Mentions x
  | .intrinsic _ | .literal _ | .query _ | .unknown _ _ => by
      rw [TypeExpr.glyphs]
      exact name_mem_ofText_iff rfl nofun
  | .reference name [] => by
      rw [TypeExpr.glyphs, mentions_reference_iff]
      simp
  | .reference name (first :: more) => by
      rw [TypeExpr.glyphs, mentions_reference_iff, List.mem_cons, Glyph.name_mem_between_iff,
        Glyph.name_mem_joinWith_iff, name_mem_glyphsAll_iff (first :: more), Glyph.name.injEq]
  | .array element => by
      rw [TypeExpr.glyphs, mentions_iff_of_ne (by nofun), List.mem_append,
        name_mem_glyphsPart_iff element]
      simp [Glyph.name_not_mem_ofText, TypeExpr.shownParts]
  | .union members | .intersection members => by
      rw [TypeExpr.glyphs, mentions_iff_of_ne (by nofun), Glyph.name_mem_joinWith_iff,
        name_mem_glyphsAll_iff members]
      rfl
  | .tuple elements => by
      rw [TypeExpr.glyphs, mentions_iff_of_ne (by nofun), Glyph.name_mem_between_iff,
        Glyph.name_mem_joinWith_iff, name_mem_glyphsAll_iff elements]
      rfl
  | .reflection none [] => by
      rw [TypeExpr.glyphs]
      exact name_mem_ofText_iff rfl nofun
  | .reflection none (first :: more) => by
      rw [TypeExpr.glyphs, mentions_iff_of_ne (by nofun), Glyph.name_mem_between_iff,
        Glyph.name_mem_joinWith_iff, name_mem_glyphsMembers_iff (first :: more)]
      rfl
  | .reflection (some ⟨_, parameters, type, _⟩) _ => by
      rw [TypeExpr.glyphs, mentions_iff_of_ne (by nofun), List.mem_append,
        Glyph.name_mem_between_iff, Glyph.name_mem_joinWith_iff,
        name_mem_glyphsParameters_iff parameters, name_mem_glyphsPart_iff type, TypeExpr.shownParts,
        Signature.shownTypes]
      simp only [List.mem_append, or_and_right, exists_or]
  | .conditional check bound whenTrue whenFalse => by
      rw [TypeExpr.glyphs, mentions_iff_of_ne (by nofun), TypeExpr.shownParts]
      simp only [List.mem_append, Glyph.name_not_mem_ofText, or_false, or_and_right, exists_or,
        name_mem_glyphsPart_iff check, name_mem_glyphsPart_iff bound,
        name_mem_glyphsPart_iff whenTrue, name_mem_glyphsPart_iff whenFalse]
  | .indexedAccess object index => by
      rw [TypeExpr.glyphs, mentions_iff_of_ne (by nofun), TypeExpr.shownParts]
      simp only [List.mem_append, Glyph.name_not_mem_ofText, or_false, or_and_right, exists_or,
        name_mem_glyphsPart_iff object, name_mem_glyphsPart_iff index]
  | .predicate _ target => by
      rw [TypeExpr.glyphs, mentions_iff_of_ne (by nofun), List.mem_append,
        name_mem_glyphsPart_iff target]
      simp [Glyph.name_not_mem_ofText, TypeExpr.shownParts]

theorem name_mem_glyphsPart_iff {x : Text} : ∀ (type : Option TypeExpr),
    .name x ∈ glyphsPart type ↔ ∃ part ∈ type.toList, part.Mentions x
  | none => by
      rw [glyphsPart]
      simp [Glyph.name_not_mem_ofText]
  | some type => by
      rw [glyphsPart, name_mem_glyphs_iff type]
      simp

theorem name_mem_glyphsAll_iff {x : Text} : ∀ (types : List TypeExpr),
    (∃ row ∈ glyphsAll types, .name x ∈ row) ↔ ∃ type ∈ types, type.Mentions x
  | [] => by
      rw [glyphsAll]
      simp
  | type :: more => by
      rw [glyphsAll, List.exists_mem_cons_iff, List.exists_mem_cons_iff, name_mem_glyphs_iff type,
        name_mem_glyphsAll_iff more]

theorem name_mem_glyphsParameters_iff {x : Text} : ∀ (parameters : List Parameter),
    (∃ row ∈ glyphsParameters parameters, .name x ∈ row) ↔
      ∃ type ∈ parameters.filterMap (·.type), type.Mentions x
  | [] => by
      rw [glyphsParameters]
      simp
  | ⟨name, type, flags, _⟩ :: more => by
      rw [glyphsParameters, List.exists_mem_cons_iff, List.mem_append,
        iff_false_intro (Glyph.name_not_mem_ofText x _), false_or, name_mem_glyphsPart_iff type,
        name_mem_glyphsParameters_iff more]
      cases type <;> simp

theorem name_mem_glyphsMembers_iff {x : Text} : ∀ (members : List Declaration),
    (∃ row ∈ glyphsMembers members, .name x ∈ row) ↔
      ∃ type ∈ members.flatMap Declaration.shownTypes, type.Mentions x
  | [] => by
      rw [glyphsMembers]
      simp
  | ⟨name, _, _, ⟨_, parameters, result, _⟩ :: _, _, none, flags, _⟩ :: more => by
      rw [glyphsMembers, List.exists_mem_cons_iff, List.mem_append, Glyph.name_mem_between_iff,
        Glyph.name_mem_joinWith_iff, name_mem_glyphsParameters_iff parameters,
        name_mem_glyphsPart_iff result, name_mem_glyphsMembers_iff more, List.flatMap_cons]
      simp only [List.mem_append, or_and_right, exists_or, Declaration.shownTypes,
        Signature.shownTypes, List.head?_cons, Option.map_some, Option.getD_some]
  | ⟨name, _, _, _, _, some type, flags, _⟩ :: more => by
      rw [glyphsMembers, List.exists_mem_cons_iff, List.mem_append,
        iff_false_intro (Glyph.name_not_mem_ofText x _), false_or,
        name_mem_glyphsPart_iff (some type), name_mem_glyphsMembers_iff more, List.flatMap_cons]
      · simp only [List.mem_append, or_and_right, exists_or, Declaration.shownTypes,
          Option.toList_some]
      · nofun
  | ⟨name, _, _, [], _, none, flags, _⟩ :: more => by
      rw [glyphsMembers, List.exists_mem_cons_iff, List.mem_append,
        iff_false_intro (Glyph.name_not_mem_ofText x _), false_or,
        name_mem_glyphsPart_iff none, name_mem_glyphsMembers_iff more, List.flatMap_cons]
      · simp [Declaration.shownTypes]
      · nofun

end

end ApiReference
