import ApiReference.Declaration.Project

/-! # The shape of the input

What an object of the input stands for is its role (`InputRole`), and the role says which fields are
read on, and as what (`InputRole.fields`).  From a value in a role others are reached field by field
(`Reaches`); what holds of all objects that are reached holds of the first one and of all that are
reached from its fields (`throughout_iff`), so it is found out by going through the value
(`holdsThroughout_iff`). -/

namespace ApiReference

/-! ### Shapes of values -/

namespace Json

/-- The value is an object that has the field. -/
def Has (value : Json) (key : Text) : Prop :=
  ∃ object, value = obj object ∧ key ∈ object.map Prod.fst

theorem isText_iff {value : Json} {x : Text} : value.isText x = true ↔ value = str x := by
  cases value with
  | str y =>
      rw [isText, beq_iff_eq]
      exact ⟨congrArg str, str.inj⟩
  | _ => exact iff_of_false Bool.false_ne_true nofun

/-- The value is absent, null, or an object. -/
def isObjectOrNull : Json → Bool
  | null | obj _ => true
  | _ => false

/-- The value is an object. -/
def isObject : Json → Bool
  | obj _ => true
  | _ => false

/-- The value is absent, null, or a list of objects. -/
def isObjectsOrNull : Json → Bool
  | null => true
  | arr items => items.all isObject
  | _ => false

/-- The value is absent, null, or a text. -/
def isTextOrNull : Json → Bool
  | null | str _ => true
  | _ => false

/-- The value is a text of decimal digits. -/
def isDigits : Json → Bool
  | str x => !x.isEmpty && x.all Char.isDigit
  | _ => false

/-- How many digits a text of digits has. -/
def digitCount : Json → Nat
  | str x => x.length
  | _ => 0

end Json

/-! ### Roles -/

/-- What an object of the input stands for. -/
inductive InputRole
  | declaration
  | signature
  | parameter
  | type
  /-- The declaration that a type holds. -/
  | reflected
  | comment
  /-- A tag of a comment. -/
  | tag
  /-- A part of a text in a comment. -/
  | part
  /-- An object none of whose fields is read on. -/
  | leaf
deriving DecidableEq

/-- How many values a field is read on for: one, all of a list, or the first of a list. -/
inductive Arity
  | one
  | all
  | first
deriving DecidableEq

/-- The values that are read on. -/
def Arity.held : Arity → Json → List Json
  | .one, .null => []
  | .one, value => [value]
  | .all, .arr items => items
  | .first, .arr items => items.take 1
  | _, _ => []

theorem Arity.not_mem_held_null (arity : Arity) (item : Json) : item ∉ arity.held .null := by
  cases arity <;> exact List.not_mem_nil

/-- What is read on is the value itself or one of its items. -/
theorem Arity.of_mem_held {arity : Arity} {value item : Json} (h : item ∈ arity.held value) :
    item = value ∨ ∃ items, value = .arr items ∧ item ∈ items := by
  cases arity with
  | one =>
      cases value with
      | null => cases h
      | _ => exact .inl (List.mem_singleton.1 h)
  | all =>
      cases value with
      | arr items => exact .inr ⟨items, rfl, h⟩
      | _ => cases h
  | first =>
      cases value with
      | arr items => exact .inr ⟨items, rfl, List.mem_of_mem_take h⟩
      | _ => cases h

/-- The field is absent, null, or holds an object or a list of objects. -/
def Arity.isShaped : Arity → Json → Bool
  | .one, value => value.isObjectOrNull
  | _, value => value.isObjectsOrNull

/-- A field that is read on. -/
structure InputField where
  key : Text
  arity : Arity
  role : InputRole

/-- The values of the field in an object that are read on. -/
def InputField.held (field : InputField) (fields : List (Text × Json)) : List Json :=
  field.arity.held (fieldOr fields field.key)

/-- The fields of types that are read on, by the variant of the type. -/
def variantFields : List (Text × List InputField) :=
  [("reference", [⟨"typeArguments", .all, .type⟩]),
    ("array", [⟨"elementType", .one, .type⟩]),
    ("union", [⟨"types", .all, .type⟩]),
    ("intersection", [⟨"types", .all, .type⟩]),
    ("tuple", [⟨"elements", .all, .type⟩]),
    ("optional", [⟨"elementType", .one, .type⟩]),
    ("rest", [⟨"elementType", .one, .type⟩]),
    ("namedTupleMember", [⟨"elementType", .one, .type⟩]),
    ("reflection", [⟨"declaration", .one, .reflected⟩]),
    ("conditional", [⟨"checkType", .one, .type⟩, ⟨"extendsType", .one, .type⟩,
      ⟨"trueType", .one, .type⟩, ⟨"falseType", .one, .type⟩]),
    ("indexedAccess", [⟨"objectType", .one, .type⟩, ⟨"indexType", .one, .type⟩]),
    ("query", [⟨"queryType", .one, .leaf⟩]),
    ("predicate", [⟨"targetType", .one, .type⟩]),
    ("typeOperator", [⟨"target", .one, .type⟩])]

/-- The fields of a type of the variant that are read on. -/
def fieldsOfVariant (variant : Text) : List InputField := (variantFields.lookup variant).getD []

namespace InputRole

/-- The fields of an object that are read on. -/
def fields : InputRole → List (Text × Json) → List InputField
  | declaration, _ =>
    [⟨"comment", .one, comment⟩, ⟨"signatures", .all, signature⟩, ⟨"type", .one, type⟩,
      ⟨"flags", .one, leaf⟩, ⟨"children", .all, declaration⟩]
  | signature, _ =>
    [⟨"parameters", .all, parameter⟩, ⟨"type", .one, type⟩, ⟨"comment", .one, comment⟩]
  | parameter, _ => [⟨"type", .one, type⟩, ⟨"flags", .one, leaf⟩, ⟨"comment", .one, comment⟩]
  | type, object =>
    match fieldOr object "type" with
    | .str variant => fieldsOfVariant variant
    | _ => []
  | reflected, _ => [⟨"signatures", .first, signature⟩, ⟨"children", .all, declaration⟩]
  | comment, _ => [⟨"summary", .all, part⟩, ⟨"blockTags", .all, tag⟩]
  | tag, _ => [⟨"content", .all, part⟩]
  | part, _ | leaf, _ => []

/-- The fields of an object that have to be texts, if they are there. -/
def texts : InputRole → List Text
  | tag => ["tag"]
  | part => ["text"]
  | _ => []

/-- The digits of a large whole number, if that is what an object stands for. -/
def digits? : InputRole → List (Text × Json) → Option Json
  | type, object =>
    if (fieldOr object "type").isText "literal" then (fieldOr object "value").field? "value"
    else none
  | _, _ => none

/-- The object is shaped as its role wants it: its fields that are read on hold objects and lists of
objects, its texts are texts, and its digits are digits. -/
def isShaped (role : InputRole) (object : List (Text × Json)) : Bool :=
  (role.fields object).all (fun field => field.arity.isShaped (fieldOr object field.key)) &&
    role.texts.all (fun key => (fieldOr object key).isTextOrNull) &&
    (role.digits? object).all Json.isDigits

/-- The digits of the object are no more than that. -/
def fits (most : Nat) (role : InputRole) (object : List (Text × Json)) : Bool :=
  (role.digits? object).all fun digits => digits.digitCount ≤ most

end InputRole

/-! ### What is reached -/

/-- Reading the first value in the first role, one comes to the second value in the second role. -/
inductive Reaches : InputRole → Json → InputRole → Json → Prop
  | refl (role : InputRole) (value : Json) : Reaches role value role value
  | step {role reached : InputRole} {object : List (Text × Json)} {field : InputField}
      {item value : Json} (hfield : field ∈ role.fields object) (hitem : item ∈ field.held object)
      (h : Reaches field.role item reached value) : Reaches role (.obj object) reached value

/-- The condition holds of all objects that are reached. -/
def Throughout (p : InputRole → List (Text × Json) → Prop) (role : InputRole) (value : Json) :
    Prop :=
  ∀ reached object, Reaches role value reached (.obj object) → p reached object

variable {p q : InputRole → List (Text × Json) → Prop} {role : InputRole}

theorem throughout_iff {object : List (Text × Json)} :
    Throughout p role (.obj object) ↔ p role object ∧
      ∀ field ∈ role.fields object, ∀ item ∈ field.held object, Throughout p field.role item := by
  constructor
  · intro h
    exact ⟨h role object (.refl _ _), fun field hfield item hitem reached other hreached =>
      h reached other (.step hfield hitem hreached)⟩
  · rintro ⟨hfirst, hmore⟩ reached other hreached
    cases hreached with
    | refl => exact hfirst
    | step hfield hitem hreached => exact hmore _ hfield _ hitem _ _ hreached

/-- From a value that is no object nothing else is reached. -/
theorem throughout_of_not_isObject {value : Json} (h : value.isObject = false) :
    Throughout p role value := by
  intro reached object hreached
  cases hreached with
  | refl => cases h
  | step => cases h

theorem Throughout.mono {value : Json} (h : Throughout p role value)
    (hpq : ∀ role object, p role object → q role object) : Throughout q role value :=
  fun reached object hreached => hpq _ _ (h reached object hreached)

/-! ### Depth -/

namespace Json

theorem depth_pos (value : Json) : 0 < value.depth := by
  cases value <;> simp [depth]

theorem depth_le_depthOfItems {items : List Json} {item : Json} (h : item ∈ items) :
    item.depth ≤ depthOfItems items := by
  induction items with
  | nil => cases h
  | cons first more ih =>
      rw [depthOfItems]
      rcases List.mem_cons.1 h with rfl | h
      · exact Nat.le_max_left _ _
      · exact Nat.le_trans (ih h) (Nat.le_max_right _ _)

theorem depth_le_depthOfFields {object : List (Text × Json)} {key : Text} {value : Json}
    (h : object.lookup key = some value) : value.depth ≤ depthOfFields object := by
  induction object with
  | nil => cases h
  | cons first more ih =>
      obtain ⟨k, v⟩ := first
      rw [depthOfFields]
      rw [List.lookup_cons] at h
      split at h
      · cases h
        exact Nat.le_max_left _ _
      · exact Nat.le_trans (ih h) (Nat.le_max_right _ _)

end Json

theorem depth_fieldOr_lt {object : List (Text × Json)} {key : Text}
    (h : fieldOr object key ≠ .null) : (fieldOr object key).depth < (Json.obj object).depth := by
  unfold fieldOr at h ⊢
  cases hlookup : object.lookup key with
  | none =>
      rw [hlookup] at h
      exact absurd rfl h
  | some value => exact Nat.lt_succ_of_le (Json.depth_le_depthOfFields hlookup)

/-- What is read on is nested less deeply than the object. -/
theorem depth_lt_of_mem_held {object : List (Text × Json)} {key : Text} {arity : Arity} {item : Json}
    (h : item ∈ arity.held (fieldOr object key)) : item.depth < (Json.obj object).depth := by
  have hne : fieldOr object key ≠ .null := by
    intro hnull
    rw [hnull] at h
    exact arity.not_mem_held_null item h
  have hdepth := depth_fieldOr_lt hne
  rcases Arity.of_mem_held h with rfl | ⟨items, hvalue, hitem⟩
  · exact hdepth
  · rw [hvalue, Json.depth] at hdepth
    have hle := Json.depth_le_depthOfItems hitem
    omega

/-! ### Going through a value -/

/-- Whether the condition holds of all objects that are reached no more than so deep. -/
def holdsThroughout (p : InputRole → List (Text × Json) → Bool) : Nat → InputRole → Json → Bool
  | 0, _, _ => false
  | depth + 1, role, .obj object =>
    p role object && (role.fields object).all fun field =>
      (field.held object).all (holdsThroughout p depth field.role)
  | _ + 1, _, _ => true

theorem holdsThroughout_iff {p : InputRole → List (Text × Json) → Bool} {depth : Nat}
    {value : Json} (h : value.depth < depth) :
    holdsThroughout p depth role value = true ↔
      Throughout (fun role object => p role object = true) role value := by
  induction depth generalizing role value with
  | zero => exact absurd h (Nat.not_lt_zero _)
  | succ depth ih =>
      cases value with
      | obj object =>
          rw [holdsThroughout, throughout_iff, Bool.and_eq_true, List.all_eq_true]
          refine and_congr_right fun _ => forall₂_congr fun field _ => ?_
          rw [List.all_eq_true]
          refine forall₂_congr fun item hitem => ih ?_
          exact Nat.lt_of_lt_of_le (depth_lt_of_mem_held hitem) (Nat.le_of_lt_succ h)
      | _ => exact iff_of_true rfl (throughout_of_not_isObject rfl)

instance (p : InputRole → List (Text × Json) → Bool) (role : InputRole) (value : Json) :
    Decidable (Throughout (fun role object => p role object = true) role value) :=
  decidable_of_iff (holdsThroughout p (value.depth + 1) role value = true)
    (holdsThroughout_iff (Nat.lt_succ_self _))

end ApiReference
