import ApiReference.Proofs.TypeGlyphs

/-! # Reading a displayed type

No parentheses are written around unions and intersections, so what is read off a displayed type is
grouped by precedence: an array takes the operand before it, an intersection the operands between
two bars, and a union the rest.  `TypeExpr.regrouped` is the type in that grouping.

For types composed of names, arrays, unions and intersections, it is what the display says: it can
be read back off the text (`readType_spelled`), and it is displayed alike (`spelled_regrouped`). -/

namespace ApiReference

open Glyph (ofText writeAll)

/-! ### Composed types -/

/-- The text holds no sign that a display puts between names. -/
def isSignFree (x : Text) : Bool :=
  x.all fun c => !((" |&[]<>," : Text).contains c)

/-- Types composed of references, arrays, and unions and intersections of two members or more. -/
inductive TypeExpr.Composed : TypeExpr → Prop
  | reference {name : Text} {arguments : List TypeExpr} (hname : isSignFree name = true)
      (h : ∀ type ∈ arguments, Composed type) : Composed (.reference name arguments)
  | array {element : TypeExpr} (h : Composed element) : Composed (.array (some element))
  | union {members : List TypeExpr} (hlength : 2 ≤ members.length)
      (h : ∀ type ∈ members, Composed type) : Composed (.union members)
  | intersection {members : List TypeExpr} (hlength : 2 ≤ members.length)
      (h : ∀ type ∈ members, Composed type) : Composed (.intersection members)

/-- The union of types, or the only one of them. -/
def unionOf : List TypeExpr → TypeExpr
  | [type] => type
  | types => .union types

/-- The intersection of types, or the only one of them. -/
def intersectionOf : List TypeExpr → TypeExpr
  | [type] => type
  | types => .intersection types

/-! ### Types grouped by precedence -/

/-- The sign between two operands. -/
inductive Sign
  | union
  | intersection
deriving DecidableEq

/-- The sign as it is displayed. -/
def Sign.text : Sign → Text
  | .union => " | "
  | .intersection => " & "

/-- A type as far as it is read: operands, each with the sign after it, and the last operand. -/
structure Draft where
  before : List (TypeExpr × Sign) := []
  operand : TypeExpr

namespace Draft

/-- Nothing is read yet. -/
def blank : Draft := ⟨[], .reference [] []⟩

/-- The sign ends an operand. -/
def sign (s : Sign) (d : Draft) : Draft := ⟨d.before ++ [(d.operand, s)], blank.operand⟩

/-- A draft goes on where the operand of another one would begin. -/
def place (d e : Draft) : Draft := ⟨d.before ++ e.before, e.operand⟩

/-- Drafts with a sign between each two. -/
def join (s : Sign) : List Draft → Draft
  | [] => blank
  | [d] => d
  | d :: e :: more => (d.sign s).place (join s (e :: more))

/-- The last operand becomes the element of an array. -/
def toArray (d : Draft) : Draft := { d with operand := .array (some d.operand) }

/-- The operands in rows: those of one row have the sign of intersections between them. -/
def rowsOf : List (TypeExpr × Sign) → TypeExpr → List (List TypeExpr)
  | [], last => [[last]]
  | (operand, .union) :: more, last => [operand] :: rowsOf more last
  | (operand, .intersection) :: more, last =>
    match rowsOf more last with
    | [] => [[operand]]
    | row :: rows => (operand :: row) :: rows

/-- The type that is read: a union of the intersections of the rows. -/
def type (d : Draft) : TypeExpr := unionOf ((rowsOf d.before d.operand).map intersectionOf)

end Draft

mutual

/-- What is read off a displayed type. -/
def TypeExpr.draft : TypeExpr → Draft
  | .reference name arguments => ⟨[], .reference name ((draftAll arguments).map Draft.type)⟩
  | .array (some element) => element.draft.toArray
  | .union members => Draft.join .union (draftAll members)
  | .intersection members => Draft.join .intersection (draftAll members)
  | type => ⟨[], type⟩

/-- The same for types. -/
def draftAll : List TypeExpr → List Draft
  | [] => []
  | type :: more => type.draft :: draftAll more

end

/-- The type as its display groups it. -/
def TypeExpr.regrouped (type : TypeExpr) : TypeExpr := type.draft.type

/-! ### Reading a displayed type -/

/-- A displayed type as far as it is read: the arguments before the one that is being read, that
one, and the same for what stands around the list of arguments. -/
structure TypeReading where
  arguments : List TypeExpr := []
  draft : Draft
  outer : List (List TypeExpr × Draft) := []

namespace TypeReading

/-- The operand is a name with one more character. -/
def extend (c : Char) : TypeExpr → TypeExpr
  | .reference name arguments => .reference (name ++ [c]) arguments
  | type => type

/-- The operand is a name with arguments. -/
def takeArguments (arguments : List TypeExpr) : TypeExpr → TypeExpr
  | .reference name _ => .reference name arguments
  | type => type

/-- Reads a character. -/
def step (r : TypeReading) (c : Char) : TypeReading :=
  match c with
  | '|' => { r with draft := r.draft.sign .union }
  | '&' => { r with draft := r.draft.sign .intersection }
  | '[' => { r with draft := r.draft.toArray }
  | ']' | ' ' => r
  | '<' => ⟨[], .blank, (r.arguments, r.draft) :: r.outer⟩
  | ',' => ⟨r.arguments ++ [r.draft.type], .blank, r.outer⟩
  | '>' =>
    match r.outer with
    | [] => r
    | (arguments, draft) :: outer =>
      ⟨arguments, { draft with
        operand := takeArguments (r.arguments ++ [r.draft.type]) draft.operand }, outer⟩
  | c => { r with draft := { r.draft with operand := extend c r.draft.operand } }

end TypeReading

/-- The type that a displayed type says. -/
def readType (x : Text) : TypeExpr := (x.foldl TypeReading.step ⟨[], .blank, []⟩).draft.type

/-! ### The text of a type -/

/-- The text of a type without links. -/
def TypeExpr.spelled (type : TypeExpr) : Text := writeAll Links.none type.glyphs

theorem glyphsAll_eq_map (types : List TypeExpr) : glyphsAll types = types.map TypeExpr.glyphs := by
  induction types with
  | nil => rw [glyphsAll, List.map_nil]
  | cons type more ih => rw [glyphsAll, ih, List.map_cons]

theorem draftAll_eq_map (types : List TypeExpr) : draftAll types = types.map TypeExpr.draft := by
  induction types with
  | nil => rw [draftAll, List.map_nil]
  | cons type more ih => rw [draftAll, ih, List.map_cons]

theorem spelled_join (sep : Text) (types : List TypeExpr) :
    writeAll Links.none (Glyph.joinWith sep (glyphsAll types)) =
      Text.joinWith sep (types.map TypeExpr.spelled) := by
  rw [Glyph.writeAll_joinWith, glyphsAll_eq_map, List.map_map]
  rfl

theorem spelled_reference (name : Text) : (TypeExpr.reference name []).spelled = name := by
  rw [TypeExpr.spelled, TypeExpr.glyphs]
  exact List.append_nil name

theorem spelled_reference_cons (name : Text) (first : TypeExpr) (more : List TypeExpr) :
    (TypeExpr.reference name (first :: more)).spelled =
      name ++ ['<'] ++ Text.joinWith ", " ((first :: more).map TypeExpr.spelled) ++ ['>'] := by
  have hcons (row : List Glyph) :
      writeAll Links.none (.name name :: row) = name ++ writeAll Links.none row := rfl
  rw [TypeExpr.spelled, TypeExpr.glyphs, hcons, Glyph.writeAll_append, Glyph.writeAll_append,
    Glyph.writeAll_ofText, Glyph.writeAll_ofText, spelled_join]
  simp

theorem spelled_array (element : TypeExpr) :
    (TypeExpr.array (some element)).spelled = element.spelled ++ "[]" := by
  rw [TypeExpr.spelled, TypeExpr.glyphs, glyphsPart, Glyph.writeAll_append, Glyph.writeAll_ofText]
  rfl

theorem spelled_union (members : List TypeExpr) :
    (TypeExpr.union members).spelled =
      Text.joinWith Sign.union.text (members.map TypeExpr.spelled) := by
  rw [TypeExpr.spelled, TypeExpr.glyphs, spelled_join]
  rfl

theorem spelled_intersection (members : List TypeExpr) :
    (TypeExpr.intersection members).spelled =
      Text.joinWith Sign.intersection.text (members.map TypeExpr.spelled) := by
  rw [TypeExpr.spelled, TypeExpr.glyphs, spelled_join]
  rfl

theorem wordedByAll_iff {isName isWord : Text → Bool} {types : List TypeExpr} :
    wordedByAll isName isWord types = true ↔
      ∀ type ∈ types, type.wordedBy isName isWord = true := by
  induction types with
  | nil => simp [wordedByAll]
  | cons type more ih => rw [wordedByAll, Bool.and_eq_true, ih, List.forall_mem_cons]

theorem TypeExpr.Composed.wordedBy {type : TypeExpr} (h : type.Composed) :
    type.wordedBy (fun _ => true) (fun _ => true) = true := by
  induction h with
  | reference _ _ ih =>
      rw [TypeExpr.wordedBy, Bool.true_and]
      exact wordedByAll_iff.2 ih
  | array _ ih =>
      rw [TypeExpr.wordedBy, wordedByPart]
      exact ih
  | union _ _ ih | intersection _ _ ih =>
      rw [TypeExpr.wordedBy]
      exact wordedByAll_iff.2 ih

theorem TypeExpr.Composed.show_eq_spelled {type : TypeExpr} (h : type.Composed) :
    type.show Links.none = .ok (.str type.spelled) := show_eq Links.none type h.wordedBy

/-! ### What is read -/

namespace TypeReading

theorem step_of_signFree {c : Char} (hc : c ∉ (" |&[]<>," : Text)) (r : TypeReading) :
    r.step c = { r with draft := { r.draft with operand := extend c r.draft.operand } } := by
  unfold step
  split
  all_goals first
    | rfl
    | exact absurd (by decide) hc

theorem foldl_step_name {x : Text} (hx : isSignFree x = true) (read : List TypeExpr)
    (before : List (TypeExpr × Sign)) (name : Text) (outer : List (List TypeExpr × Draft)) :
    x.foldl step ⟨read, ⟨before, .reference name []⟩, outer⟩ =
      ⟨read, ⟨before, .reference (name ++ x) []⟩, outer⟩ := by
  induction x generalizing name with
  | nil => rw [List.foldl_nil, List.append_nil]
  | cons c x ih =>
      rw [isSignFree, List.all_cons, Bool.and_eq_true] at hx
      have hc : c ∉ (" |&[]<>," : Text) := by simpa using hx.1
      rw [List.foldl_cons, step_of_signFree hc]
      have hrest := ih hx.2 (name ++ [c])
      rw [List.append_assoc] at hrest
      exact hrest

theorem foldl_step_text (s : Sign) (r : TypeReading) :
    s.text.foldl step r = { r with draft := r.draft.sign s } := by
  cases s <;> rfl

end TypeReading

/-- Where an operand begins, the text is read as the draft. -/
def Reads (x : Text) (d : Draft) : Prop :=
  ∀ read before outer, x.foldl TypeReading.step ⟨read, ⟨before, Draft.blank.operand⟩, outer⟩ =
    ⟨read, ⟨before ++ d.before, d.operand⟩, outer⟩

namespace Reads

theorem name {x : Text} (hx : isSignFree x = true) : Reads x ⟨[], .reference x []⟩ := by
  intro read before outer
  rw [List.append_nil]
  exact TypeReading.foldl_step_name hx read before [] outer

theorem array {x : Text} {d : Draft} (h : Reads x d) : Reads (x ++ "[]") d.toArray := by
  intro read before outer
  rw [List.foldl_append, h read before outer]
  rfl

/-- After a draft and a sign, what follows is read on. -/
theorem sign {x y : Text} {d e : Draft} (hd : Reads x d) (s : Sign) (he : Reads y e) :
    Reads (x ++ s.text ++ y) ((d.sign s).place e) := by
  intro read before outer
  rw [List.foldl_append, List.foldl_append, hd read before outer, TypeReading.foldl_step_text]
  have hbefore : before ++ ((d.sign s).place e).before =
      before ++ d.before ++ [(d.operand, s)] ++ e.before := by
    simp [Draft.place, Draft.sign]
  rw [hbefore]
  exact he read (before ++ d.before ++ [(d.operand, s)]) outer

theorem join (s : Sign) {types : List TypeExpr} (hne : types ≠ [])
    (h : ∀ type ∈ types, Reads type.spelled type.draft) :
    Reads (Text.joinWith s.text (types.map TypeExpr.spelled))
      (Draft.join s (types.map TypeExpr.draft)) := by
  induction types with
  | nil => exact absurd rfl hne
  | cons first more ih =>
      obtain ⟨hfirst, hmore⟩ := List.forall_mem_cons.1 h
      cases more with
      | nil =>
          rw [List.map_singleton, Text.joinWith_singleton]
          exact hfirst
      | cons second more =>
          rw [List.map_cons, List.map_cons, Text.joinWith_cons_cons]
          exact hfirst.sign s (ih (List.cons_ne_nil _ _) hmore)

/-- Arguments are read one after the other, each as its type. -/
theorem arguments {types : List TypeExpr} (hne : types ≠ [])
    (h : ∀ type ∈ types, Reads type.spelled type.draft) (read : List TypeExpr)
    (outer : List (List TypeExpr × Draft)) :
    ∃ read' d, (Text.joinWith ", " (types.map TypeExpr.spelled)).foldl TypeReading.step
        ⟨read, .blank, outer⟩ = ⟨read', d, outer⟩ ∧
      read' ++ [d.type] = read ++ types.map TypeExpr.regrouped := by
  induction types generalizing read with
  | nil => exact absurd rfl hne
  | cons first more ih =>
      obtain ⟨hfirst, hmore⟩ := List.forall_mem_cons.1 h
      have hread : first.spelled.foldl TypeReading.step ⟨read, .blank, outer⟩ =
          ⟨read, first.draft, outer⟩ := hfirst read [] outer
      cases more with
      | nil =>
          refine ⟨read, first.draft, ?_, rfl⟩
          rw [List.map_singleton, Text.joinWith_singleton, hread]
      | cons second more =>
          obtain ⟨read', d, hrest, hall⟩ :=
            ih (List.cons_ne_nil _ _) hmore (read ++ [first.regrouped])
          refine ⟨read', d, ?_, ?_⟩
          · rw [List.map_cons, List.map_cons, Text.joinWith_cons_cons, List.foldl_append,
              List.foldl_append, hread]
            exact hrest
          · rw [hall, List.append_assoc]
            rfl

theorem reference {name : Text} (hname : isSignFree name = true) {types : List TypeExpr}
    (h : ∀ type ∈ types, Reads type.spelled type.draft) :
    Reads (TypeExpr.reference name types).spelled (TypeExpr.reference name types).draft := by
  have hdraft : (TypeExpr.reference name types).draft =
      ⟨[], .reference name (types.map TypeExpr.regrouped)⟩ := by
    rw [TypeExpr.draft, draftAll_eq_map, List.map_map]
    rfl
  rw [hdraft]
  cases types with
  | nil =>
      rw [spelled_reference]
      exact .name hname
  | cons first more =>
      intro read before outer
      obtain ⟨read', d, hread, hall⟩ := arguments (List.cons_ne_nil first more) h []
        ((read, ⟨before, .reference name []⟩) :: outer)
      have hstart := TypeReading.foldl_step_name hname read before [] outer
      rw [spelled_reference_cons, List.foldl_append, List.foldl_append, List.foldl_append]
      have hopen : ['<'].foldl TypeReading.step (name.foldl TypeReading.step
          ⟨read, ⟨before, Draft.blank.operand⟩, outer⟩) =
            ⟨[], .blank, (read, ⟨before, .reference name []⟩) :: outer⟩ := by
        rw [Draft.blank, hstart]
        rfl
      rw [hopen, hread, List.append_nil]
      have hclose : ['>'].foldl TypeReading.step
          ⟨read', d, (read, ⟨before, .reference name []⟩) :: outer⟩ =
            ⟨read, ⟨before, .reference name (read' ++ [d.type])⟩, outer⟩ := rfl
      rw [hclose, hall]
      rfl

end Reads

theorem ne_nil_of_two_le {types : List TypeExpr} (h : 2 ≤ types.length) : types ≠ [] := by
  rintro rfl
  simp at h

/-- A composed type is read off its text as its draft. -/
theorem TypeExpr.Composed.reads {type : TypeExpr} (h : type.Composed) :
    Reads type.spelled type.draft := by
  induction h with
  | reference hname _ ih => exact .reference hname ih
  | array _ ih =>
      rw [spelled_array, TypeExpr.draft]
      exact ih.array
  | union hlength _ ih =>
      rw [spelled_union, TypeExpr.draft, draftAll_eq_map]
      exact .join .union (ne_nil_of_two_le hlength) ih
  | intersection hlength _ ih =>
      rw [spelled_intersection, TypeExpr.draft, draftAll_eq_map]
      exact .join .intersection (ne_nil_of_two_le hlength) ih

theorem TypeExpr.Composed.readType_spelled {type : TypeExpr} (h : type.Composed) :
    readType type.spelled = type.regrouped := by
  have hread : type.spelled.foldl TypeReading.step ⟨[], .blank, []⟩ = ⟨[], type.draft, []⟩ :=
    h.reads [] [] []
  rw [readType, hread]
  rfl

/-! ### A regrouped type is displayed alike -/

/-- The text of a draft. -/
def Draft.spelled (d : Draft) : Text :=
  d.before.flatMap (fun read => read.1.spelled ++ read.2.text) ++ d.operand.spelled

theorem spelled_unionOf {types : List TypeExpr} :
    (unionOf types).spelled = Text.joinWith Sign.union.text (types.map TypeExpr.spelled) := by
  unfold unionOf
  split
  · exact (Text.joinWith_singleton _ _).symm
  · exact spelled_union types

theorem spelled_intersectionOf {types : List TypeExpr} :
    (intersectionOf types).spelled =
      Text.joinWith Sign.intersection.text (types.map TypeExpr.spelled) := by
  unfold intersectionOf
  split
  · exact (Text.joinWith_singleton _ _).symm
  · exact spelled_intersection types

/-- The text of a row. -/
def spelledRow (row : List TypeExpr) : Text :=
  Text.joinWith Sign.intersection.text (row.map TypeExpr.spelled)

/-- There is a row, and it has an operand. -/
theorem Draft.rowsOf_eq_cons (before : List (TypeExpr × Sign)) (last : TypeExpr) :
    ∃ operand row rows, rowsOf before last = (operand :: row) :: rows := by
  induction before with
  | nil => exact ⟨last, [], [], rfl⟩
  | cons read more ih =>
      obtain ⟨operand, s⟩ := read
      obtain ⟨next, row, rows, e⟩ := ih
      cases s with
      | union => exact ⟨operand, [], rowsOf more last, rfl⟩
      | intersection => exact ⟨operand, next :: row, rows, by rw [rowsOf, e]⟩

theorem Draft.spelled_rowsOf (before : List (TypeExpr × Sign)) (last : TypeExpr) :
    Text.joinWith Sign.union.text ((rowsOf before last).map spelledRow) =
      (Draft.mk before last).spelled := by
  have hone (type : TypeExpr) : spelledRow [type] = type.spelled := Text.joinWith_singleton _ _
  induction before with
  | nil =>
      have hrow : Text.joinWith Sign.union.text [spelledRow [last]] = spelledRow [last] :=
        Text.joinWith_singleton _ _
      exact hrow.trans (hone last)
  | cons read more ih =>
      obtain ⟨operand, s⟩ := read
      obtain ⟨next, row, rows, e⟩ := rowsOf_eq_cons more last
      have hspelled : (Draft.mk ((operand, s) :: more) last).spelled =
          operand.spelled ++ s.text ++ (Draft.mk more last).spelled := by
        simp [Draft.spelled]
      rw [hspelled, ← ih, e]
      cases s with
      | union =>
          rw [rowsOf, e, List.map_cons, List.map_cons, Text.joinWith_cons_cons, hone]
      | intersection =>
          have hrow : spelledRow (operand :: next :: row) =
              operand.spelled ++ Sign.intersection.text ++ spelledRow (next :: row) :=
            Text.joinWith_cons_cons _ _ _ _
          rw [rowsOf, e]
          cases rows with
          | nil =>
              rw [List.map_singleton, List.map_singleton, Text.joinWith_singleton,
                Text.joinWith_singleton, hrow]
          | cons other rows =>
              simp only [List.map_cons, Text.joinWith_cons_cons, hrow, List.append_assoc]

theorem Draft.spelled_type (d : Draft) : d.type.spelled = d.spelled := by
  rw [Draft.type, spelled_unionOf, List.map_map]
  have hrow : TypeExpr.spelled ∘ intersectionOf = spelledRow := by
    funext row
    exact spelled_intersectionOf
  rw [hrow]
  exact spelled_rowsOf d.before d.operand

theorem Draft.spelled_join (s : Sign) {ds : List Draft} (hne : ds ≠ []) :
    (Draft.join s ds).spelled = Text.joinWith s.text (ds.map Draft.spelled) := by
  induction ds with
  | nil => exact absurd rfl hne
  | cons d more ih =>
      cases more with
      | nil => exact (Text.joinWith_singleton _ _).symm
      | cons e more =>
          have hsign : ((d.sign s).place (Draft.join s (e :: more))).spelled =
              d.spelled ++ s.text ++ (Draft.join s (e :: more)).spelled := by
            simp [Draft.spelled, Draft.place, Draft.sign]
          rw [Draft.join, hsign, ih (List.cons_ne_nil _ _)]
          exact (Text.joinWith_cons_cons _ _ _ _).symm

/-- Members with a sign between each two are displayed as the drafts are. -/
theorem Draft.spelled_join_map (s : Sign) {types : List TypeExpr} (hne : types ≠ [])
    (h : ∀ type ∈ types, type.draft.spelled = type.spelled) :
    (Draft.join s (types.map TypeExpr.draft)).spelled =
      Text.joinWith s.text (types.map TypeExpr.spelled) := by
  have hmap : (types.map TypeExpr.draft).map Draft.spelled = types.map TypeExpr.spelled := by
    rw [List.map_map]
    exact List.map_congr_left h
  rw [spelled_join s (by simpa using hne), hmap]

/-- A composed type is displayed as its draft. -/
theorem TypeExpr.Composed.spelled_draft {type : TypeExpr} (h : type.Composed) :
    type.draft.spelled = type.spelled := by
  induction h with
  | @reference name arguments _ _ ih =>
      have hdraft : (TypeExpr.reference name arguments).draft.spelled =
          (TypeExpr.reference name (arguments.map TypeExpr.regrouped)).spelled := by
        rw [TypeExpr.draft, draftAll_eq_map, List.map_map]
        rfl
      have hmap : (arguments.map TypeExpr.regrouped).map TypeExpr.spelled =
          arguments.map TypeExpr.spelled := by
        rw [List.map_map]
        exact List.map_congr_left fun type hm => (Draft.spelled_type type.draft).trans (ih type hm)
      rw [hdraft]
      cases arguments with
      | nil => rfl
      | cons first more =>
          rw [List.map_cons, spelled_reference_cons, spelled_reference_cons, ← List.map_cons, hmap]
  | array _ ih =>
      rw [spelled_array, TypeExpr.draft, ← ih]
      simp [Draft.toArray, Draft.spelled, spelled_array]
  | union hlength _ ih =>
      rw [spelled_union, TypeExpr.draft, draftAll_eq_map]
      exact Draft.spelled_join_map .union (ne_nil_of_two_le hlength) ih
  | intersection hlength _ ih =>
      rw [spelled_intersection, TypeExpr.draft, draftAll_eq_map]
      exact Draft.spelled_join_map .intersection (ne_nil_of_two_le hlength) ih

theorem TypeExpr.Composed.spelled_regrouped {type : TypeExpr} (h : type.Composed) :
    type.regrouped.spelled = type.spelled :=
  (Draft.spelled_type type.draft).trans h.spelled_draft

end ApiReference
