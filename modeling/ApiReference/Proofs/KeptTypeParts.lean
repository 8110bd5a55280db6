import ApiReference.Proofs.InputShapes
import ApiReference.Proofs.Loading

/-! # The parts of types that are kept

A type is read as nothing if and only if nothing is left of it once its wrappers are taken off
(`eq_none_iff_of_loadType`).  So a type that lists others keeps, in order, those of them that are
something without their wrappers (`kept_of_loadType`). -/

namespace ApiReference

open Load

/-! ### Wrappers -/

/-- The type is only a wrapper of its element. -/
def isWrapper (object : List (Text × Json)) : Bool :=
  let variant := fieldOr object "type"
  variant.isText "optional" || variant.isText "rest" || variant.isText "namedTupleMember"

namespace Json

/-- What is inside no more than so many wrappers. -/
def unwrapWithin : Nat → Json → Json
  | depth + 1, obj object =>
    if isWrapper object then unwrapWithin depth (fieldOr object "elementType") else obj object
  | _, value => value

/-- What is inside all wrappers of a type. -/
def unwrapped (value : Json) : Json := value.unwrapWithin value.depth

theorem unwrapWithin_of_not_isObject {value : Json} (h : value.isObject = false) (depth : Nat) :
    value.unwrapWithin depth = value := by
  cases value with
  | obj => cases h
  | _ => cases depth <;> rfl

theorem unwrapWithin_eq {value : Json} {m n : Nat} (hm : value.depth ≤ m) (hn : value.depth ≤ n) :
    value.unwrapWithin m = value.unwrapWithin n := by
  induction m generalizing value n with
  | zero => exact absurd (depth_pos value) (Nat.not_lt.2 hm)
  | succ m ih =>
      cases value with
      | obj object =>
          cases n with
          | zero => exact absurd (depth_pos (obj object)) (Nat.not_lt.2 hn)
          | succ n =>
              rw [unwrapWithin, unwrapWithin]
              split
              · by_cases hnull : fieldOr object "elementType" = null
                · rw [hnull, unwrapWithin_of_not_isObject rfl, unwrapWithin_of_not_isObject rfl]
                · have hless := depth_fieldOr_lt hnull
                  exact ih (Nat.le_of_lt_succ (Nat.lt_of_lt_of_le hless hm))
                    (Nat.le_of_lt_succ (Nat.lt_of_lt_of_le hless hn))
              · rfl
      | _ => rw [unwrapWithin_of_not_isObject rfl, unwrapWithin_of_not_isObject rfl]

theorem unwrapped_of_not_isObject {value : Json} (h : value.isObject = false) :
    value.unwrapped = value := unwrapWithin_of_not_isObject h _

theorem unwrapped_of_not_isWrapper {object : List (Text × Json)} (h : isWrapper object = false) :
    (obj object).unwrapped = obj object := by
  rw [unwrapped, depth, unwrapWithin, h, if_neg Bool.false_ne_true]

theorem unwrapped_of_isWrapper {object : List (Text × Json)} (h : isWrapper object = true) :
    (obj object).unwrapped = (fieldOr object "elementType").unwrapped := by
  rw [unwrapped, depth, unwrapWithin, if_pos h]
  by_cases hnull : fieldOr object "elementType" = null
  · rw [hnull, unwrapWithin_of_not_isObject rfl, unwrapped_of_not_isObject rfl]
  · exact unwrapWithin_eq (Nat.le_of_lt_succ (depth_fieldOr_lt hnull)) (Nat.le_refl _)

/-- An empty object is no wrapper. -/
theorem unwrapped_of_isVoid {value : Json} (h : value.isVoid = true) : value.unwrapped = value := by
  cases value with
  | obj object =>
      obtain rfl : object = [] := List.isEmpty_iff.1 h
      exact unwrapped_of_not_isWrapper rfl
  | _ => exact unwrapped_of_not_isObject rfl

end Json

/-! ### Types that are read as nothing -/

variable {most : Option Nat} {depth : Nat} {object : List (Text × Json)}

/-- A type that is no wrapper is read as something. -/
theorem returns_some_of_not_isWrapper (hfilled : object ≠ []) (h : isWrapper object = false) :
    (loadType most (depth + 1) (.obj object)).Returns fun type => type.isSome = true := by
  rw [loadType]
  refine .ite (fun hvoid => absurd (List.isEmpty_iff.1 hvoid) hfilled) fun _ => ?_
  rw [Load.fields, pure_bind]
  extract_lets +onlyGivenNames part parts variant
  have hmade {α : Type} {x : Load α} {make : α → TypeExpr} :
      (x >>= fun read => pure (some (make read))).Returns fun type => type.isSome = true :=
    .bind fun _ => returns_pure rfl
  refine .ite (fun _ => ?intrinsic) fun _ => .ite (fun _ => ?reference) fun _ =>
    .ite (fun _ => ?array) fun _ => .ite (fun _ => ?union) fun _ =>
    .ite (fun _ => ?intersection) fun _ => .ite (fun _ => ?literal) fun _ =>
    .ite (fun _ => ?tuple) fun _ => .ite (fun hwrapper => ?wrapper) fun _ =>
    .ite (fun _ => ?reflection) fun _ => .ite (fun _ => ?conditional) fun _ =>
    .ite (fun _ => ?indexed) fun _ => .ite (fun _ => ?query) fun _ =>
    .ite (fun _ => ?predicate) fun _ => .ite (fun _ => ?operator) fun _ => ?unknown
  case wrapper => exact absurd (h.symm.trans hwrapper) Bool.false_ne_true
  case intrinsic => exact returns_pure rfl
  case reference | array | union | intersection | literal | tuple | query | predicate | operator =>
    exact hmade
  case unknown => exact hmade
  case indexed => exact .bind fun _ => hmade
  case reflection | conditional => exact .bind fun _ => .bind fun _ => .bind fun _ => hmade

theorem isVoid_of_fieldOr_ne {key : Text} (h : fieldOr object key ≠ .null) :
    (Json.obj object).isVoid = false := by
  cases object with
  | nil => exact absurd rfl h
  | cons => rfl

theorem loadType_of_isWrapper (h : isWrapper object = true) :
    loadType most (depth + 1) (.obj object) =
      loadType most depth (fieldOr object "elementType") := by
  simp only [isWrapper, Bool.or_eq_true, Json.isText_iff] at h
  have hne : fieldOr object "type" ≠ .null := by
    intro hnull
    rw [hnull] at h
    rcases h with (h | h) | h <;> cases h
  rw [loadType, isVoid_of_fieldOr_ne hne, if_neg Bool.false_ne_true, Load.fields, pure_bind]
  rcases h with (hvariant | hvariant) | hvariant
  all_goals
    rw [hvariant]
    rfl

/-- Only objects are read as types, and what is void as nothing. -/
theorem isVoid_or_isObject_of_loadType {value : Json} {log : Log}
    {read : Option TypeExpr × Log} (h : loadType most depth value log = .ok read) :
    value.isVoid = true ∨ value.isObject = true := by
  cases depth with
  | zero => cases h
  | succ depth =>
      cases hvoid : value.isVoid with
      | true => exact .inl rfl
      | false =>
          rw [loadType, if_neg (by simp [hvoid])] at h
          cases value with
          | obj => exact .inr rfl
          | _ => cases h

/-- A type is read as nothing if and only if nothing is left of it without its wrappers. -/
theorem eq_none_iff_of_loadType {value : Json} {log : Log} {read : Option TypeExpr × Log}
    (h : loadType most depth value log = .ok read) :
    read.1 = none ↔ value.unwrapped.isVoid = true := by
  induction depth generalizing value log read with
  | zero => cases h
  | succ depth ih =>
      cases hvoid : value.isVoid with
      | true =>
          rw [loadType, if_pos hvoid] at h
          cases h
          rw [Json.unwrapped_of_isVoid hvoid]
          exact iff_of_true rfl hvoid
      | false =>
          cases value with
          | obj object =>
              cases hwrapper : isWrapper object with
              | true =>
                  rw [loadType_of_isWrapper hwrapper] at h
                  rw [Json.unwrapped_of_isWrapper hwrapper]
                  exact ih h
              | false =>
                  have hfilled : object ≠ [] := List.isEmpty_eq_false_iff.1 hvoid
                  have hsome := returns_some_of_not_isWrapper hfilled hwrapper log read h
                  rw [Json.unwrapped_of_not_isWrapper hwrapper, hvoid]
                  exact iff_of_false (Option.isSome_iff_ne_none.1 hsome) Bool.false_ne_true
          | _ =>
              have hobject := isVoid_or_isObject_of_loadType h
              rw [hvoid] at hobject
              rcases hobject with hobject | hobject <;> cases hobject

/-! ### Types that list others -/

/-- The variants of types that list others, with the field of the list. -/
def listFields : List (Text × Text) :=
  [("reference", "typeArguments"), ("union", "types"), ("intersection", "types"),
    ("tuple", "elements")]

/-- The types that a type lists, with the variant it is. -/
def TypeExpr.listed : TypeExpr → Option (Text × List TypeExpr)
  | .reference _ arguments => some ("reference", arguments)
  | .union types => some ("union", types)
  | .intersection types => some ("intersection", types)
  | .tuple elements => some ("tuple", elements)
  | _ => none

/-- The part is what is read of the item. -/
def IsReadAs (most : Option Nat) (depth : Nat) (item : Json) (part : TypeExpr) : Prop :=
  ∃ before after, loadType most depth item before = .ok (some part, after)

/-- The value is an object that has fields. -/
def Json.isFilledObject (value : Json) : Bool := value.isObject && !value.isVoid

theorem loadType_of_lists {variant key : Text} (hlists : (variant, key) ∈ listFields)
    (htype : (fieldOr object "type").isText variant = true) :
    ∃ make : List TypeExpr → TypeExpr, (∀ parts, (make parts).listed = some (variant, parts)) ∧
      loadType most (depth + 1) (.obj object) = (do
        let loaded ← (← Load.items (fieldOr object key)).mapM (loadType most depth)
        return some (make (loaded.filterMap id))) := by
  have hvariant := Json.isText_iff.1 htype
  have hne : fieldOr object "type" ≠ .null := by
    rw [hvariant]
    exact nofun
  rw [loadType, isVoid_of_fieldOr_ne hne, if_neg Bool.false_ne_true, Load.fields, pure_bind,
    hvariant]
  have hbind (key : Text) (make : List TypeExpr → TypeExpr) :
      ((do
        let loaded ← (← Load.items (fieldOr object key)).mapM (loadType most depth)
        return loaded.filterMap id : Load (List TypeExpr)) >>= fun parts =>
          pure (some (make parts)) : Load (Option TypeExpr)) = (do
        let loaded ← (← Load.items (fieldOr object key)).mapM (loadType most depth)
        return some (make (loaded.filterMap id))) := by
    simp only [bind_assoc, pure_bind]
  simp only [listFields, List.mem_cons, Prod.mk.injEq, List.not_mem_nil, or_false] at hlists
  rcases hlists with ⟨rfl, rfl⟩ | ⟨rfl, rfl⟩ | ⟨rfl, rfl⟩ | ⟨rfl, rfl⟩
  · exact ⟨.reference (displayOr object "name" []), fun _ => rfl, hbind _ _⟩
  · exact ⟨.union, fun _ => rfl, hbind _ _⟩
  · exact ⟨.intersection, fun _ => rfl, hbind _ _⟩
  · exact ⟨.tuple, fun _ => rfl, hbind _ _⟩

/-- The items that are something without their wrappers are the ones that are kept, in order. -/
theorem forall₂_filterMap {items : List Json} {loaded : List (Option TypeExpr)}
    (h : List.Forall₂ (fun item type =>
      ∃ before after, loadType most depth item before = .ok (type, after)) items loaded) :
    List.Forall₂ (IsReadAs most depth) (items.filter fun item => !item.unwrapped.isVoid)
      (loaded.filterMap id) := by
  induction h with
  | nil => exact .nil
  | @cons item type items loaded hread _ ih =>
      obtain ⟨before, after, hread⟩ := hread
      have hnone := eq_none_iff_of_loadType hread
      cases type with
      | none =>
          rw [List.filter_cons_of_neg (by simp [hnone.1 rfl])]
          exact ih
      | some part =>
          have hkept : item.unwrapped.isVoid = false := Bool.not_eq_true _ ▸ mt hnone.2 nofun
          rw [List.filter_cons_of_pos (by simp [hkept])]
          exact .cons ⟨before, after, hread⟩ ih

/-- Texts are not read as types, but an empty one as nothing. -/
theorem filter_texts {items : List Json} (htexts : ∀ item ∈ items, ∃ x, item = .str x)
    (hread : ∀ item ∈ items, item.isVoid = true ∨ item.isObject = true) :
    items.filter (fun item => !item.unwrapped.isVoid) = [] := by
  rw [List.filter_eq_nil_iff]
  intro item hitem
  obtain ⟨x, rfl⟩ := htexts item hitem
  rw [Json.unwrapped_of_not_isObject rfl]
  rcases hread _ hitem with hvoid | hobject
  · simp [hvoid]
  · cases hobject

/-- What a value holds are the items of a list, or texts. -/
theorem items_eq_held_or {value : Json} {log : Log} {read : List Json × Log}
    (h : Load.items value log = .ok read) :
    read.1 = Arity.all.held value ∨
      Arity.all.held value = [] ∧ ∀ item ∈ read.1, ∃ x, item = .str x := by
  cases value with
  | arr items =>
      cases h
      exact .inl rfl
  | obj fields =>
      cases h
      refine .inr ⟨rfl, fun item hitem => ?_⟩
      obtain ⟨field, -, rfl⟩ := List.mem_map.1 hitem
      exact ⟨field.1, rfl⟩
  | str x =>
      cases h
      refine .inr ⟨rfl, fun item hitem => ?_⟩
      obtain ⟨c, -, rfl⟩ := List.mem_map.1 hitem
      exact ⟨[c], rfl⟩
  | null =>
      cases h
      exact .inl rfl
  | bool | int | float =>
      unfold Load.items at h
      dsimp only at h
      split at h
      · cases h
        exact .inl rfl
      · cases h

theorem isFilledObject_eq {item : Json} (hread : item.isVoid = true ∨ item.isObject = true)
    (hkept : item.isFilledObject = true → item.unwrapped.isVoid = false) :
    item.isFilledObject = !item.unwrapped.isVoid := by
  cases hvoid : item.isVoid with
  | true => rw [Json.isFilledObject, Json.unwrapped_of_isVoid hvoid, hvoid, Bool.and_comm]; rfl
  | false =>
      have hobject : item.isObject = true := hread.resolve_left (hvoid ▸ Bool.false_ne_true)
      have hfilled : item.isFilledObject = true := by rw [Json.isFilledObject, hobject, hvoid]; rfl
      rw [hfilled, hkept hfilled]
      rfl

/-- What is read of a type that lists others keeps, in order, those of them that are something
without their wrappers; so there is one for every object that has fields, if and only if none of
these is only wrappers around nothing. -/
theorem kept_of_loadType {variant key : Text} {log : Log} {read : Option TypeExpr × Log}
    (hlists : (variant, key) ∈ listFields)
    (htype : (fieldOr object "type").isText variant = true)
    (hload : loadType most (depth + 1) (.obj object) log = .ok read) :
    ∃ type parts, read.1 = some type ∧ type.listed = some (variant, parts) ∧
      List.Forall₂ (IsReadAs most depth)
        ((Arity.all.held (fieldOr object key)).filter fun item => !item.unwrapped.isVoid) parts ∧
      (List.Forall₂ (IsReadAs most depth)
          ((Arity.all.held (fieldOr object key)).filter Json.isFilledObject) parts ↔
        ∀ item ∈ Arity.all.held (fieldOr object key), item.isFilledObject = true →
          item.unwrapped.isVoid = false) := by
  obtain ⟨make, hmake, hequation⟩ := loadType_of_lists hlists htype
  rw [hequation] at hload
  obtain ⟨items, hitems, hload⟩ := bind_eq_ok.1 hload
  obtain ⟨loaded, hloaded, hload⟩ := bind_eq_ok.1 hload
  cases hload
  have hread := forall₂_of_mapM hloaded
  have hshapes : ∀ item ∈ items.1, item.isVoid = true ∨ item.isObject = true := by
    intro item hitem
    obtain ⟨_, before, after, hitemRead⟩ := exists_of_forall₂ hread hitem
    exact isVoid_or_isObject_of_loadType hitemRead
  have hkept := forall₂_filterMap hread
  refine ⟨_, _, rfl, hmake _, ?_⟩
  rcases items_eq_held_or hitems with hheld | ⟨hheld, htexts⟩
  · rw [hheld] at hshapes hkept
    refine ⟨hkept, fun hall item hitem hfilled => ?_, fun hnone => ?_⟩
    · have hmem := List.mem_filter.2 ⟨hitem, hfilled⟩
      obtain ⟨part, before, after, hpart⟩ := exists_of_forall₂ hall hmem
      exact Bool.not_eq_true _ ▸ mt (eq_none_iff_of_loadType hpart).2 nofun
    · have hfilter := List.filter_congr fun item hitem =>
        isFilledObject_eq (hshapes item hitem) (hnone item hitem)
      rw [hfilter]
      exact hkept
  · rw [filter_texts htexts hshapes] at hkept
    rw [hheld]
    exact ⟨hkept, fun _ => nofun, fun _ => hkept⟩

/-- A pair whose second element is named, with the element in a field that is not read on. -/
def namedPair : List (Text × Json) :=
  let number : Json := .obj [("type", .str "intrinsic"), ("name", .str "number")]
  [("type", .str "tuple"), ("elements", .arr
    [.obj [("type", .str "rest"), ("elementType", number)], .obj [],
      .obj [("type", .str "namedTupleMember"), ("name", .str "x"), ("element", number)]])]

theorem kept_of_loadType_namedPair :
    loadType none 4 (.obj namedPair) [] = .ok (some (.tuple [.intrinsic "number"]), []) ∧
    List.Forall₂ (IsReadAs none 3)
      ((Arity.all.held (fieldOr namedPair "elements")).filter fun item => !item.unwrapped.isVoid)
      [.intrinsic "number"] ∧
    ¬List.Forall₂ (IsReadAs none 3)
      ((Arity.all.held (fieldOr namedPair "elements")).filter Json.isFilledObject)
      [.intrinsic "number"] := by
  have hlists : (("tuple" : Text), ("elements" : Text)) ∈ listFields := by decide
  have htype : (fieldOr namedPair "type").isText "tuple" = true := by decide
  have hload : loadType none 4 (.obj namedPair) [] =
      .ok (some (.tuple [.intrinsic "number"]), []) := rfl
  obtain ⟨type, parts, hread, hlisted, hkept, hall⟩ := kept_of_loadType hlists htype hload
  obtain rfl := Option.some.inj hread
  obtain rfl : [.intrinsic "number"] = parts := congrArg Prod.snd (Option.some.inj hlisted)
  exact ⟨hload, hkept, mt hall.1 (by decide)⟩

end ApiReference
