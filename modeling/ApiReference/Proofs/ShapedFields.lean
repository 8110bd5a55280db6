import ApiReference.Proofs.InputShapes
import ApiReference.Proofs.Loading

/-! # Fields of well-shaped objects

An object that is shaped as its role wants it has fields that are well shaped
(`wellShaped_of_throughout`), and its digits are within a limit if those of its fields are
(`throughout_fits_iff`).  There are no digits in what is said about a declaration
(`throughout_fits_of_isSaid`). -/

namespace ApiReference

open Load

/-- The object is shaped as its role wants it. -/
abbrev Shaped (role : InputRole) (object : List (Text × Json)) : Prop := role.isShaped object = true

/-- The digits of the object are no more than the limit, if there is one. -/
def Fits (most : Option Nat) (role : InputRole) (object : List (Text × Json)) : Prop :=
  ∀ n ∈ most, role.fits n object = true

variable {most : Option Nat} {role : InputRole} {object : List (Text × Json)}

/-! ### Fields -/

namespace InputField

/-- The field holds what it should, and so does all that is reached from there. -/
structure WellShaped (field : InputField) (object : List (Text × Json)) : Prop where
  here : field.arity.isShaped (fieldOr object field.key) = true
  below : ∀ item ∈ field.held object, Throughout Shaped field.role item

/-- All digits that are reached through the field are no more than the limit. -/
def Within (field : InputField) (most : Option Nat) (object : List (Text × Json)) : Prop :=
  ∀ item ∈ field.held object, Throughout (Fits most) field.role item

end InputField

theorem wellShaped_of_throughout (h : Throughout Shaped role (.obj object)) :
    ∀ field ∈ role.fields object, field.WellShaped object := by
  obtain ⟨hhere, hbelow⟩ := throughout_iff.1 h
  simp only [Shaped, InputRole.isShaped, Bool.and_eq_true, List.all_eq_true] at hhere
  exact fun field hfield => ⟨hhere.1.1 field hfield, hbelow field hfield⟩

theorem fits_of_digits?_eq_none (h : role.digits? object = none) : Fits most role object := by
  intro n _
  rw [InputRole.fits, h, Option.all_none]

theorem throughout_fits_iff (h : role.digits? object = none) :
    Throughout (Fits most) role (.obj object) ↔
      ∀ field ∈ role.fields object, field.Within most object := by
  rw [throughout_iff, and_iff_right (fits_of_digits?_eq_none h)]
  rfl

/-! ### What is said about a declaration -/

/-- From what is said about a declaration no type is reached. -/
def InputRole.isSaid : InputRole → Bool
  | comment | tag | part | leaf => true
  | _ => false

theorem isSaid_of_mem_fields {field : InputField} (h : field ∈ role.fields object)
    (hrole : role.isSaid = true) : field.role.isSaid = true := by
  cases role with
  | comment =>
      simp only [InputRole.fields, List.mem_cons, List.not_mem_nil, or_false] at h
      rcases h with rfl | rfl <;> rfl
  | tag =>
      rw [List.mem_singleton.1 h]
      rfl
  | part | leaf => cases h
  | _ => cases hrole

theorem Reaches.isSaid {reached : InputRole} {value other : Json}
    (h : Reaches role value reached other) (hrole : role.isSaid = true) :
    reached.isSaid = true := by
  induction h with
  | refl => exact hrole
  | step hfield _ _ ih => exact ih (isSaid_of_mem_fields hfield hrole)

/-- There are no digits in what is said about a declaration. -/
theorem throughout_fits_of_isSaid (hrole : role.isSaid = true) (value : Json) :
    Throughout (Fits most) role value := by
  intro reached object h
  refine fits_of_digits?_eq_none ?_
  have hreached := h.isSaid hrole
  cases reached with
  | type => cases hreached
  | _ => rfl

/-! ### What fields hold -/

/-- A field for one value is absent or null, or holds an object, whose digits are then all that are
reached through the field. -/
theorem InputField.WellShaped.null_or_obj {key : Text}
    (h : InputField.WellShaped ⟨key, .one, role⟩ object) :
    (fieldOr object key = .null ∧ ∀ most, InputField.Within ⟨key, .one, role⟩ most object) ∨
      ∃ inner, fieldOr object key = .obj inner ∧
        (Json.obj inner).depth < (Json.obj object).depth ∧
        Throughout Shaped role (.obj inner) ∧
        ∀ most, InputField.Within ⟨key, .one, role⟩ most object ↔
          Throughout (Fits most) role (.obj inner) := by
  obtain ⟨hhere, hbelow⟩ := h
  simp only [InputField.Within, InputField.held, Arity.isShaped] at *
  cases hvalue : fieldOr object key with
  | null => exact .inl ⟨rfl, fun _ => List.forall_mem_nil _⟩
  | obj inner =>
      have hinner : Json.obj inner ∈ Arity.one.held (.obj inner) := List.mem_cons_self
      have hheld : Json.obj inner ∈ Arity.one.held (fieldOr object key) := hvalue ▸ hinner
      exact .inr ⟨inner, rfl, depth_lt_of_mem_held hheld, hbelow _ hheld, fun most =>
        List.forall_mem_singleton (p := Throughout (Fits most) role)⟩
  | _ =>
      rw [hvalue] at hhere
      cases hhere

theorem fieldsOrNone_of_isObjectOrNull {value : Json} (h : value.isObjectOrNull = true) :
    (fieldsOrNone value).SucceedsIff True := by
  cases value with
  | null => exact succeedsIff_pure _
  | obj => exact succeedsIff_pure _
  | _ => cases h

theorem items_of_isObjectsOrNull {value : Json} (h : value.isObjectsOrNull = true) :
    Load.items value = pure (Arity.all.held value) := by
  cases value with
  | null => rfl
  | arr => rfl
  | _ => cases h

theorem exists_obj_of_mem_held {value item : Json} (h : value.isObjectsOrNull = true)
    (hitem : item ∈ Arity.all.held value) : ∃ object, item = .obj object := by
  cases value with
  | arr items =>
      have hobject := List.all_eq_true.1 h item hitem
      cases item with
      | obj object => exact ⟨object, rfl⟩
      | _ => cases hobject
  | _ => cases hitem

end ApiReference
