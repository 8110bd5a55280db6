import ApiReference.Proofs.ReadTypes

/-! # Types that are displayed alike

Two types composed of names, arrays, unions and intersections are displayed alike if and only if
their displays group them alike.  Where no parentheses would be needed, that is the case if and only
if they are equal up to flattening: unions directly inside unions, and intersections directly inside
intersections, put into one (`show_eq_show_iff`). -/

namespace ApiReference

/-! ### Flattened types -/

/-- The members of a union, or the type as the only one. -/
def TypeExpr.unionMembers : TypeExpr → List TypeExpr
  | .union members => members
  | type => [type]

/-- The members of an intersection, or the type as the only one. -/
def TypeExpr.intersectionMembers : TypeExpr → List TypeExpr
  | .intersection members => members
  | type => [type]

mutual

/-- The type with unions directly inside unions, and intersections directly inside intersections,
put into one. -/
def TypeExpr.flattened : TypeExpr → TypeExpr
  | .reference name arguments => .reference name (flattenedAll arguments)
  | .array element => .array (flattenedPart element)
  | .union members => .union ((flattenedAll members).flatMap TypeExpr.unionMembers)
  | .intersection members =>
    .intersection ((flattenedAll members).flatMap TypeExpr.intersectionMembers)
  | type => type

/-- The same for a part of a type that may be missing. -/
def flattenedPart : Option TypeExpr → Option TypeExpr
  | none => none
  | some type => some type.flattened

/-- The same for types. -/
def flattenedAll : List TypeExpr → List TypeExpr
  | [] => []
  | type :: more => type.flattened :: flattenedAll more

end

theorem flattenedAll_eq_map (types : List TypeExpr) :
    flattenedAll types = types.map TypeExpr.flattened := by
  induction types with
  | nil => rw [flattenedAll, List.map_nil]
  | cons type more ih => rw [flattenedAll, ih, List.map_cons]

/-! ### Types that need no parentheses -/


/-- The type is a union. -/
def TypeExpr.isUnion : TypeExpr → Bool
  | .union _ => true
  | _ => false

/-- The type is an intersection. -/
def TypeExpr.isIntersection : TypeExpr → Bool
  | .intersection _ => true
  | _ => false

mutual

/-- No array has a union or an intersection as its element, and no intersection has a union as a
member. -/
def TypeExpr.needsNoParentheses : TypeExpr → Bool
  | .reference _ arguments => noneNeedsParentheses arguments
  | .array (some element) =>
    !element.isUnion && !element.isIntersection && element.needsNoParentheses
  | .union members => noneNeedsParentheses members
  | .intersection members =>
    members.all (fun member => !member.isUnion) && noneNeedsParentheses members
  | _ => true

/-- The same for types. -/
def noneNeedsParentheses : List TypeExpr → Bool
  | [] => true
  | type :: more => type.needsNoParentheses && noneNeedsParentheses more

end

theorem noneNeedsParentheses_iff {types : List TypeExpr} :
    noneNeedsParentheses types = true ↔ ∀ type ∈ types, type.needsNoParentheses = true := by
  induction types with
  | nil => simp [noneNeedsParentheses]
  | cons type more ih =>
      rw [noneNeedsParentheses, Bool.and_eq_true, ih, List.forall_mem_cons]

/-! ### Members of flattened types -/

theorem length_le_length_flatMap {α β : Type} {f : α → List β} {l : List α}
    (h : ∀ x ∈ l, f x ≠ []) : l.length ≤ (l.flatMap f).length := by
  induction l with
  | nil => exact Nat.zero_le _
  | cons x l ih =>
      obtain ⟨hx, hl⟩ := List.forall_mem_cons.1 h
      have hfirst := List.length_pos_of_ne_nil hx
      have hrest := ih hl
      rw [List.flatMap_cons, List.length_append, List.length_cons]
      omega

/-- If the type is a union or an intersection, it has two members or more. -/
structure Full (type : TypeExpr) : Prop where
  union : ∀ members, type = .union members → 2 ≤ members.length
  intersection : ∀ members, type = .intersection members → 2 ≤ members.length

namespace Full

variable {type : TypeExpr}

theorem unionMembers_ne_nil (h : Full type) : type.unionMembers ≠ [] := by
  unfold TypeExpr.unionMembers
  split
  · next members => exact ne_nil_of_two_le (h.union members rfl)
  · exact List.cons_ne_nil _ _

theorem intersectionMembers_ne_nil (h : Full type) : type.intersectionMembers ≠ [] := by
  unfold TypeExpr.intersectionMembers
  split
  · next members => exact ne_nil_of_two_le (h.intersection members rfl)
  · exact List.cons_ne_nil _ _

theorem unionOf_unionMembers (h : Full type) : unionOf type.unionMembers = type := by
  unfold TypeExpr.unionMembers
  split
  · next members =>
    have hlength := h.union members rfl
    unfold unionOf
    split
    · simp at hlength
    · rfl
  · rfl

theorem intersectionOf_intersectionMembers (h : Full type) :
    intersectionOf type.intersectionMembers = type := by
  unfold TypeExpr.intersectionMembers
  split
  · next members =>
    have hlength := h.intersection members rfl
    unfold intersectionOf
    split
    · simp at hlength
    · rfl
  · rfl

end Full

theorem flattened_union (members : List TypeExpr) :
    (TypeExpr.union members).flattened =
      .union (members.flatMap fun member => member.flattened.unionMembers) := by
  rw [TypeExpr.flattened, flattenedAll_eq_map, List.flatMap_map]

theorem flattened_intersection (members : List TypeExpr) :
    (TypeExpr.intersection members).flattened =
      .intersection (members.flatMap fun member => member.flattened.intersectionMembers) := by
  rw [TypeExpr.flattened, flattenedAll_eq_map, List.flatMap_map]

/-- Flattening leaves unions and intersections of two members or more. -/
theorem TypeExpr.Composed.full_flattened {type : TypeExpr} (h : type.Composed) :
    Full type.flattened ∧ ∀ member ∈ type.flattened.unionMembers, Full member := by
  -- A type that is no union is its own only member.
  have hsingle {other : TypeExpr} (hfull : Full other) (hunion : other.unionMembers = [other]) :
      Full other ∧ ∀ member ∈ other.unionMembers, Full member := by
    refine ⟨hfull, ?_⟩
    rw [hunion, List.forall_mem_singleton]
    exact hfull
  induction h with
  | reference _ _ _ =>
      rw [TypeExpr.flattened]
      exact hsingle ⟨nofun, nofun⟩ rfl
  | array _ _ =>
      rw [TypeExpr.flattened]
      exact hsingle ⟨nofun, nofun⟩ rfl
  | @union members hlength _ ih =>
      have hne : ∀ member ∈ members, member.flattened.unionMembers ≠ [] :=
        fun member hm => (ih member hm).1.unionMembers_ne_nil
      rw [flattened_union]
      constructor
      · refine ⟨?_, nofun⟩
        rintro _ ⟨⟩
        exact hlength.trans (length_le_length_flatMap hne)
      · intro member hm
        obtain ⟨outer, houter, hm⟩ := List.mem_flatMap.1 hm
        exact (ih outer houter).2 member hm
  | @intersection members hlength _ ih =>
      have hne : ∀ member ∈ members, member.flattened.intersectionMembers ≠ [] :=
        fun member hm => (ih member hm).1.intersectionMembers_ne_nil
      rw [flattened_intersection]
      refine hsingle ⟨nofun, ?_⟩ rfl
      rintro _ ⟨⟩
      exact hlength.trans (length_le_length_flatMap hne)

/-! ### Flattened drafts -/

namespace Draft

/-- One operand. -/
def ofOperand (operand : TypeExpr) : Draft := ⟨[], operand⟩

/-- The operands of one row. -/
def ofRow (member : TypeExpr) : Draft :=
  join .intersection (member.intersectionMembers.map ofOperand)

/-- The rows of a type. -/
def ofRows (type : TypeExpr) : Draft := join .union (type.unionMembers.map ofRow)

theorem join_append (s : Sign) {ds es : List Draft} (hds : ds ≠ []) (hes : es ≠ []) :
    join s (ds ++ es) = ((join s ds).sign s).place (join s es) := by
  induction ds with
  | nil => exact absurd rfl hds
  | cons d more ih =>
      obtain ⟨e, es, rfl⟩ := List.exists_cons_of_ne_nil hes
      cases more with
      | nil => rfl
      | cons next more =>
          have hrest := ih (List.cons_ne_nil _ _)
          rw [List.cons_append, List.cons_append, join, ← List.cons_append, hrest, join]
          simp [place, sign]

/-- Drafts that are joined in parts by one sign are joined. -/
theorem join_map_join {α : Type} (s : Sign) {f : α → List Draft} {xs : List α}
    (h : ∀ x ∈ xs, f x ≠ []) : join s (xs.map fun x => join s (f x)) = join s (xs.flatMap f) := by
  induction xs with
  | nil => rfl
  | cons x xs ih =>
      obtain ⟨hx, hxs⟩ := List.forall_mem_cons.1 h
      cases xs with
      | nil => simp [join]
      | cons y xs =>
          have hne : (y :: xs).flatMap f ≠ [] := by
            rw [List.flatMap_cons]
            simp [hxs y List.mem_cons_self]
          rw [List.flatMap_cons, join_append s hx hne, ← ih hxs]
          rfl

theorem rowsOf_union (before more : List (TypeExpr × Sign)) (operand last : TypeExpr) :
    rowsOf (before ++ (operand, .union) :: more) last =
      rowsOf before operand ++ rowsOf more last := by
  induction before with
  | nil => rfl
  | cons read before ih =>
      obtain ⟨first, s⟩ := read
      cases s with
      | union => rw [List.cons_append, rowsOf, ih, rowsOf, List.cons_append]
      | intersection =>
          obtain ⟨next, row, rows, e⟩ := rowsOf_eq_cons before operand
          rw [List.cons_append, rowsOf, ih, rowsOf, e]
          rfl

/-- The rows of a draft. -/
def rows (d : Draft) : List (List TypeExpr) := rowsOf d.before d.operand

theorem rows_join_union {ds : List Draft} (hne : ds ≠ []) :
    (join .union ds).rows = ds.flatMap rows := by
  induction ds with
  | nil => exact absurd rfl hne
  | cons d more ih =>
      cases more with
      | nil => simp [join]
      | cons e more =>
          have hrest := ih (List.cons_ne_nil _ _)
          rw [List.flatMap_cons, ← hrest, join, rows, place, sign, List.append_assoc]
          exact rowsOf_union _ _ _ _

theorem rows_ofRow {member : TypeExpr} (h : Full member) :
    (ofRow member).rows = [member.intersectionMembers] := by
  have hrow {types : List TypeExpr} (hne : types ≠ []) :
      (join .intersection (types.map ofOperand)).rows = [types] := by
    induction types with
    | nil => exact absurd rfl hne
    | cons first more ih =>
        cases more with
        | nil => rfl
        | cons second more =>
            have hrest := ih (List.cons_ne_nil _ _)
            rw [rows] at hrest
            rw [List.map_cons, List.map_cons, join, rows, place, sign, ofOperand, List.nil_append,
              List.singleton_append, rowsOf, ← List.map_cons, hrest]
  exact hrow h.intersectionMembers_ne_nil

/-- A flattened type is read off its rows. -/
theorem type_ofRows {type : TypeExpr} (h : Full type)
    (hmembers : ∀ member ∈ type.unionMembers, Full member) : (ofRows type).type = type := by
  have hrows : (ofRows type).rows = type.unionMembers.map TypeExpr.intersectionMembers := by
    rw [ofRows, rows_join_union (by simpa using h.unionMembers_ne_nil), List.flatMap_map]
    rw [← List.flatMap_singleton' (type.unionMembers.map _), List.flatMap_map]
    exact List.flatMap_congr fun member hm => rows_ofRow (hmembers member hm)
  have hmap : (type.unionMembers.map TypeExpr.intersectionMembers).map intersectionOf =
      type.unionMembers := by
    rw [List.map_map]
    refine (List.map_congr_left fun member hm => ?_).trans (List.map_id _)
    exact (hmembers member hm).intersectionOf_intersectionMembers
  have htype : (ofRows type).type = unionOf ((ofRows type).rows.map intersectionOf) := rfl
  rw [htype, hrows, hmap, h.unionOf_unionMembers]

end Draft

theorem unionMembers_flattened {type : TypeExpr} (h : type.isUnion = false) :
    type.flattened.unionMembers = [type.flattened] := by
  cases type with
  | union _ => cases h
  | _ => rw [TypeExpr.flattened] <;> first | rfl | nofun

theorem intersectionMembers_flattened {type : TypeExpr} (h : type.isIntersection = false) :
    type.flattened.intersectionMembers = [type.flattened] := by
  cases type with
  | intersection _ => cases h
  | _ => rw [TypeExpr.flattened] <;> first | rfl | nofun

/-- A type that is no union is one row. -/
theorem Draft.ofRows_flattened {type : TypeExpr} (h : type.isUnion = false) :
    ofRows type.flattened = ofRow type.flattened := by
  rw [ofRows, unionMembers_flattened h]
  rfl

/-- What needs no parentheses is read as the flattened type. -/
theorem TypeExpr.Composed.draft_eq_ofRows {type : TypeExpr} (h : type.Composed)
    (hplain : type.needsNoParentheses = true) : type.draft = Draft.ofRows type.flattened := by
  induction h with
  | @reference name arguments _ hcomposed ih =>
      rw [TypeExpr.needsNoParentheses, noneNeedsParentheses_iff] at hplain
      have harguments : arguments.map TypeExpr.regrouped = arguments.map TypeExpr.flattened := by
        apply List.map_congr_left
        intro argument hm
        obtain ⟨hfull, hmembers⟩ := (hcomposed argument hm).full_flattened
        rw [TypeExpr.regrouped, ih argument hm (hplain argument hm)]
        exact Draft.type_ofRows hfull hmembers
      rw [TypeExpr.draft, TypeExpr.flattened, draftAll_eq_map, flattenedAll_eq_map, List.map_map]
      exact congrArg (fun types => Draft.ofOperand (.reference name types)) harguments
  | @array element _ ih =>
      rw [TypeExpr.needsNoParentheses, Bool.and_eq_true, Bool.and_eq_true, Bool.not_eq_true',
        Bool.not_eq_true'] at hplain
      obtain ⟨⟨hunion, hintersection⟩, hplain⟩ := hplain
      rw [TypeExpr.draft, ih hplain, Draft.ofRows_flattened hunion, Draft.ofRow,
        intersectionMembers_flattened hintersection, TypeExpr.flattened, flattenedPart]
      rfl
  | @union members _ hcomposed ih =>
      rw [TypeExpr.needsNoParentheses, noneNeedsParentheses_iff] at hplain
      have hdrafts : members.map TypeExpr.draft = members.map fun member =>
          Draft.join .union (member.flattened.unionMembers.map Draft.ofRow) :=
        List.map_congr_left fun member hm => ih member hm (hplain member hm)
      rw [TypeExpr.draft, draftAll_eq_map, hdrafts, Draft.join_map_join, flattened_union,
        Draft.ofRows, TypeExpr.unionMembers, List.map_flatMap]
      intro member hm
      simpa using (hcomposed member hm).full_flattened.1.unionMembers_ne_nil
  | @intersection members _ hcomposed ih =>
      rw [TypeExpr.needsNoParentheses, Bool.and_eq_true, noneNeedsParentheses_iff,
        List.all_eq_true] at hplain
      obtain ⟨hunion, hplain⟩ := hplain
      have hdrafts : members.map TypeExpr.draft = members.map fun member =>
          Draft.join .intersection
            (member.flattened.intersectionMembers.map Draft.ofOperand) := by
        apply List.map_congr_left
        intro member hm
        have hnounion : member.isUnion = false := by simpa using hunion member hm
        rw [ih member hm (hplain member hm), Draft.ofRows_flattened hnounion]
        rfl
      rw [TypeExpr.draft, draftAll_eq_map, hdrafts, Draft.join_map_join, flattened_intersection,
        Draft.ofRows, TypeExpr.unionMembers, List.map_singleton, Draft.join, Draft.ofRow,
        TypeExpr.intersectionMembers, List.map_flatMap]
      · intro other e
        cases e
      · intro member hm
        simpa using (hcomposed member hm).full_flattened.1.intersectionMembers_ne_nil

/-- What needs no parentheses is grouped by flattening. -/
theorem TypeExpr.Composed.regrouped_eq_flattened {type : TypeExpr} (h : type.Composed)
    (hplain : type.needsNoParentheses = true) : type.regrouped = type.flattened := by
  obtain ⟨hfull, hmembers⟩ := h.full_flattened
  rw [TypeExpr.regrouped, h.draft_eq_ofRows hplain]
  exact Draft.type_ofRows hfull hmembers

/-! ### Types that are displayed alike -/

/-- Two composed types are displayed alike if and only if they are regrouped alike, so two that need
no parentheses are displayed alike if and only if they are equal up to flattening. -/
theorem show_eq_show_iff {first second : TypeExpr} (hfirst : first.Composed)
    (hsecond : second.Composed) :
    (first.show Links.none = second.show Links.none ↔ first.regrouped = second.regrouped) ∧
      (first.needsNoParentheses = true → second.needsNoParentheses = true →
        (first.show Links.none = second.show Links.none ↔
          first.flattened = second.flattened)) := by
  have hregrouped : first.show Links.none = second.show Links.none ↔
      first.regrouped = second.regrouped := by
    rw [hfirst.show_eq_spelled, hsecond.show_eq_spelled]
    constructor
    · intro h
      have hspelled := Json.str.inj (Except.ok.inj h)
      rw [← hfirst.readType_spelled, ← hsecond.readType_spelled, hspelled]
    · intro h
      rw [← hfirst.spelled_regrouped, ← hsecond.spelled_regrouped, h]
  refine ⟨hregrouped, fun hplain hplain' => ?_⟩
  rw [hregrouped, hfirst.regrouped_eq_flattened hplain, hsecond.regrouped_eq_flattened hplain']

/-- A reference without arguments. -/
def named (name : Text) : TypeExpr := .reference name []

theorem composed_named {name : Text} (h : isSignFree name = true) : (named name).Composed :=
  .reference h nofun

theorem composed_pair {first second : TypeExpr} (hfirst : first.Composed)
    (hsecond : second.Composed) : ∀ type ∈ [first, second], type.Composed :=
  List.forall_mem_cons.2 ⟨hfirst, List.forall_mem_singleton.2 hsecond⟩

/-- Only the grouping of the members is lost here. -/
theorem show_eq_show_iff_nestedMembers :
    let first : TypeExpr := .union [named "A",
      .union [.intersection [named "B", .intersection [named "C", named "D"]], named "E"]]
    let second : TypeExpr := .union [.union [named "A",
      .intersection [.intersection [named "B", named "C"], named "D"]], named "E"]
    first.Composed ∧ second.Composed ∧ first.needsNoParentheses = true ∧
      second.needsNoParentheses = true ∧ first ≠ second ∧
      first.show Links.none = second.show Links.none ∧ first.flattened = second.flattened := by
  intro first second
  have ha : (named "A").Composed := composed_named (by decide)
  have hb : (named "B").Composed := composed_named (by decide)
  have hc : (named "C").Composed := composed_named (by decide)
  have hd : (named "D").Composed := composed_named (by decide)
  have he : (named "E").Composed := composed_named (by decide)
  have hinner : ∀ {x y z : TypeExpr}, x.Composed → y.Composed → z.Composed →
      (TypeExpr.intersection [x, .intersection [y, z]]).Composed ∧
        (TypeExpr.intersection [.intersection [x, y], z]).Composed := by
    intro x y z hx hy hz
    have hleft : (TypeExpr.intersection [x, y]).Composed :=
      .intersection (by simp) (composed_pair hx hy)
    have hright : (TypeExpr.intersection [y, z]).Composed :=
      .intersection (by simp) (composed_pair hy hz)
    exact ⟨.intersection (by simp) (composed_pair hx hright),
      .intersection (by simp) (composed_pair hleft hz)⟩
  obtain ⟨hright, hleft⟩ := hinner hb hc hd
  have hfirst : first.Composed :=
    .union (by simp) (composed_pair ha (.union (by simp) (composed_pair hright he)))
  have hsecond : second.Composed :=
    .union (by simp) (composed_pair (.union (by simp) (composed_pair ha hleft)) he)
  have hplain : first.needsNoParentheses = true := by decide
  have hplain' : second.needsNoParentheses = true := by decide
  have hshown : first.show Links.none = second.show Links.none := by rfl
  have hflattened := ((show_eq_show_iff hfirst hsecond).2 hplain hplain').1 hshown
  exact ⟨hfirst, hsecond, hplain, hplain', by simp [first, second, named], hshown, hflattened⟩

/-- Without parentheses, an array of a union is displayed as a union with an array. -/
theorem exists_shown_alike_arrayOfUnion :
    let first : TypeExpr := .array (some (.union [named "A", named "B"]))
    let second : TypeExpr := .union [named "A", .array (some (named "B"))]
    first.Composed ∧ second.Composed ∧ first.show Links.none = second.show Links.none ∧
      first.flattened ≠ second.flattened := by
  intro first second
  have ha : (named "A").Composed := composed_named (by decide)
  have hb : (named "B").Composed := composed_named (by decide)
  have hfirst : first.Composed := .array (.union (by simp) (composed_pair ha hb))
  have hsecond : second.Composed := .union (by simp) (composed_pair ha hb.array)
  exact ⟨hfirst, hsecond, by rfl, nofun⟩

end ApiReference
