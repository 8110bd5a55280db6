import ApiReference.Proofs.ReadComments
import ApiReference.Proofs.Refusals
import ApiReference.Proofs.WholeNumbers

/-! # Which projects are read

What makes a project unreadable is found out without reading it: an object that is not shaped as its
role wants it, or a large whole number with more digits than the limit.  The readers of declarations,
signatures, parameters and types are followed together, one step of nesting at a time
(`ReadsShaped`): if what is nested less deeply is read exactly if its digits are within the limit, so
is what holds it (`ReadsShaped.loadDeclaration_succ`, `ReadsShaped.loadType_succ` and the others).
It follows which values are read as projects (`reads_shaped_projects`). -/

namespace ApiReference

open Load

variable {most : Option Nat} {role : InputRole} {object : List (Text × Json)} {depth : Nat}

/-! ### Parts that hold no types -/

theorem loadKind_succeeds (value : Json) : (loadKind value).SucceedsIff True :=
  .ite (fun _ => (succeedsIff_note _).after fun _ => succeedsIff_pure _) fun _ => succeedsIff_pure _

theorem loadFlags_succeeds {value : Json} (h : value.isObjectOrNull = true) :
    (loadFlags value).SucceedsIff True :=
  (fieldsOrNone_of_isObjectOrNull h).after fun _ => succeedsIff_pure _

theorem loadDefault_succeeds (kind : Kind)
    (h : (fieldOr object "type").isObjectOrNull = true) :
    (loadDefault kind object).SucceedsIff True := by
  unfold loadDefault
  split
  · refine .ite (fun _ => (fieldsOrNone_of_isObjectOrNull h).after fun literal =>
      .ite (fun _ => ?_) fun _ => succeedsIff_pure _) fun _ => succeedsIff_pure _
    split
    · exact succeedsIff_pure _
    · exact succeedsIff_pure _
  · exact succeedsIff_pure _

/-- The digits of a large whole number are read if and only if they are within the limit. -/
theorem loadLiteral_succeeds_of_digits {fields : List (Text × Json)} {x : Text}
    (hvalue : fields.lookup ("value" : Text) = some (.str x)) (h : (Json.str x).isDigits = true) :
    (loadLiteral most (.obj fields)).SucceedsIff (∀ n ∈ most, x.length ≤ n) := by
  simp only [Json.isDigits, Bool.and_eq_true, Bool.not_eq_true', List.isEmpty_eq_false_iff,
    List.all_eq_true] at h
  obtain ⟨hne, hdigits⟩ := h
  unfold loadLiteral
  simp only [hvalue, Json.display]
  generalize hsign : (if (fieldOr fields "negative").isVoid = true then [] else ['-']) = sign
  have hsigns : sign = [] ∨ sign = ['-'] := by
    rw [← hsign]
    split
    · exact .inl rfl
    · exact .inr rfl
  rw [← isSome_wholeWithin?_digits most hdigits hne hsigns]
  split
  · next hread => exact (succeedsIff_pure _).congr (by simp [hread])
  · next hread => exact (succeedsIff_refuse _).congr (by simp [hread])

theorem loadLiteral_succeeds {value : Json}
    (h : (value.field? "value").all Json.isDigits = true) :
    (loadLiteral most value).SucceedsIff
      (∀ n ∈ most, (value.field? "value").all (fun digits => digits.digitCount ≤ n) = true) := by
  cases value with
  | obj fields =>
      rw [Json.field?] at h ⊢
      cases hvalue : fields.lookup ("value" : Text) with
      | none =>
          unfold loadLiteral
          simp only [hvalue]
          exact (succeedsIff_pure _).congr (by simp)
      | some digits =>
          rw [hvalue, Option.all_some] at h
          cases digits with
          | str x =>
              exact (loadLiteral_succeeds_of_digits hvalue h).congr
                (forall₂_congr fun n _ => decide_eq_true_iff.symm)
          | _ => cases h
  | _ => exact (succeedsIff_pure _).congr (iff_of_true trivial fun _ _ => rfl)

/-! ### What is read of fields -/

/-- No digits are reached from an object without fields. -/
theorem throughout_fits_nil : Throughout (Fits most) role (.obj []) := by
  have hdigits : role.digits? [] = none := by cases role <;> rfl
  rw [throughout_fits_iff hdigits]
  exact fun field _ item hitem => absurd hitem (field.arity.not_mem_held_null item)

/-- Objects of the role that are nested less deeply are read, if and only if their digits are within
the limit. -/
def ReadsObjects {α : Type} (most : Option Nat) (depth : Nat) (role : InputRole)
    (load : Json → Load α) : Prop :=
  ∀ object, (Json.obj object).depth < depth → Throughout Shaped role (.obj object) →
    (load (.obj object)).SucceedsIff (Throughout (Fits most) role (.obj object))

/-- What is nested less deeply is read, if and only if its digits are within the limit. -/
structure ReadsShaped (most : Option Nat) (depth : Nat) : Prop where
  declaration : ReadsObjects most depth .declaration (loadDeclaration most depth)
  signature : ReadsObjects most depth .signature (loadSignature most depth)
  parameter : ReadsObjects most depth .parameter (loadParameter most depth)
  type : ReadsObjects most depth .type (loadType most depth)
  /-- The reader of the first signature goes one step down for it. -/
  first : ∀ value : Json, value.isObjectsOrNull = true → 0 < depth →
    (∀ item ∈ Arity.first.held value, item.depth + 1 < depth ∧ Throughout Shaped .signature item) →
    (firstSignature most depth value).SucceedsIff
      (∀ item ∈ Arity.first.held value, Throughout (Fits most) .signature item)

theorem ReadsObjects.all {α : Type} {load : Json → Load α}
    (h : ReadsObjects most depth role load) (hdepth : (Json.obj object).depth ≤ depth) {key : Text}
    (hfield : InputField.WellShaped ⟨key, .all, role⟩ object) :
    ((Arity.all.held (fieldOr object key)).mapM load).SucceedsIff
      (InputField.Within ⟨key, .all, role⟩ most object) := by
  refine SucceedsIff.mapM fun item hitem => ?_
  obtain ⟨inner, rfl⟩ := exists_obj_of_mem_held hfield.here hitem
  exact h inner (Nat.lt_of_lt_of_le (depth_lt_of_mem_held hitem) hdepth) (hfield.below _ hitem)

theorem within_comment (key : Text) : InputField.Within ⟨key, .one, .comment⟩ most object :=
  fun item _ => throughout_fits_of_isSaid rfl item

theorem within_leaf (key : Text) : InputField.Within ⟨key, .one, .leaf⟩ most object :=
  fun item _ => throughout_fits_of_isSaid rfl item

namespace ReadsShaped

variable (h : ReadsShaped most depth) (hdepth : (Json.obj object).depth ≤ depth)

include h hdepth

/-- A field for a type is read if and only if its digits are within the limit. -/
theorem typeField {key : Text} (hfield : InputField.WellShaped ⟨key, .one, .type⟩ object) :
    (loadType most depth (fieldOr object key)).SucceedsIff
      (InputField.Within ⟨key, .one, .type⟩ most object) := by
  rcases hfield.null_or_obj with ⟨hnull, hwithin⟩ | ⟨inner, hvalue, hless, hbelow, hwithin⟩
  · rw [hnull]
    cases depth with
    | zero => exact absurd (Nat.lt_of_lt_of_le (Json.depth_pos _) hdepth) (Nat.lt_irrefl 0)
    | succ depth => exact (succeedsIff_pure _).congr (iff_of_true trivial (hwithin most))
  · rw [hvalue, hwithin]
    exact h.type inner (Nat.lt_of_lt_of_le hless hdepth) hbelow

/-- A field for a list of types is read if and only if its digits are within the limit. -/
theorem typeList {key : Text} (hfield : InputField.WellShaped ⟨key, .all, .type⟩ object) :
    (do
      let loaded ← (← Load.items (fieldOr object key)).mapM (loadType most depth)
      return loaded.filterMap id : Load (List TypeExpr)).SucceedsIff
      (InputField.Within ⟨key, .all, .type⟩ most object) := by
  rw [items_of_isObjectsOrNull hfield.here, pure_bind]
  exact (h.type.all hdepth hfield).andThen fun _ => succeedsIff_pure _

end ReadsShaped

/-! ### Declarations, signatures and parameters -/

namespace ReadsShaped

variable (h : ReadsShaped most depth)

include h

theorem loadDeclaration_succ :
    ReadsObjects most (depth + 1) .declaration (loadDeclaration most (depth + 1)) := by
  intro object hless hshaped
  have hdepth := Nat.le_of_lt_succ hless
  have hfields := wellShaped_of_throughout hshaped
  simp only [InputRole.fields, List.forall_mem_cons] at hfields
  obtain ⟨hcomment, hsignatures, htype, hflags, hchildren, -⟩ := hfields
  have hiff : (InputField.Within ⟨"signatures", .all, .signature⟩ most object ∧
      InputField.Within ⟨"type", .one, .type⟩ most object ∧
      InputField.Within ⟨"children", .all, .declaration⟩ most object) ↔
        Throughout (Fits most) .declaration (.obj object) := by
    rw [throughout_fits_iff rfl]
    simp [InputRole.fields, within_comment, within_leaf]
  rw [← hiff, loadDeclaration, Load.fields, pure_bind, items_of_isObjectsOrNull hsignatures.here,
    items_of_isObjectsOrNull hchildren.here]
  simp only [pure_bind]
  apply (loadKind_succeeds _).after
  intro kind
  apply (loadDefault_succeeds kind htype.here).after
  intro _
  apply (loadComment_succeeds hcomment).after
  intro _
  apply (h.signature.all hdepth hsignatures).bind
  intro _
  apply (h.typeField hdepth htype).bind
  intro _
  apply (loadFlags_succeeds hflags.here).after
  intro _
  exact (h.declaration.all hdepth hchildren).andThen fun _ => succeedsIff_pure _

theorem loadSignature_succ :
    ReadsObjects most (depth + 1) .signature (loadSignature most (depth + 1)) := by
  intro object hless hshaped
  have hdepth := Nat.le_of_lt_succ hless
  have hfields := wellShaped_of_throughout hshaped
  simp only [InputRole.fields, List.forall_mem_cons] at hfields
  obtain ⟨hparameters, htype, hcomment, -⟩ := hfields
  have hiff : (InputField.Within ⟨"parameters", .all, .parameter⟩ most object ∧
      InputField.Within ⟨"type", .one, .type⟩ most object) ↔
        Throughout (Fits most) .signature (.obj object) := by
    rw [throughout_fits_iff rfl]
    simp [InputRole.fields, within_comment]
  rw [← hiff, loadSignature, Load.fields, pure_bind, items_of_isObjectsOrNull hparameters.here]
  simp only [pure_bind]
  apply (h.parameter.all hdepth hparameters).bind
  intro _
  apply (h.typeField hdepth htype).andThen
  intro _
  exact (loadComment_succeeds hcomment).after fun _ => succeedsIff_pure _

theorem loadParameter_succ :
    ReadsObjects most (depth + 1) .parameter (loadParameter most (depth + 1)) := by
  intro object hless hshaped
  have hdepth := Nat.le_of_lt_succ hless
  have hfields := wellShaped_of_throughout hshaped
  simp only [InputRole.fields, List.forall_mem_cons] at hfields
  obtain ⟨htype, hflags, hcomment, -⟩ := hfields
  have hiff : InputField.Within ⟨"type", .one, .type⟩ most object ↔
      Throughout (Fits most) .parameter (.obj object) := by
    rw [throughout_fits_iff rfl]
    simp [InputRole.fields, within_comment, within_leaf]
  rw [← hiff, loadParameter, Load.fields, pure_bind]
  apply (h.typeField hdepth htype).andThen
  intro _
  apply (loadFlags_succeeds hflags.here).after
  intro _
  exact (loadComment_succeeds hcomment).after fun _ => succeedsIff_pure _

theorem firstSignature_succ {value : Json} (hvalue : value.isObjectsOrNull = true)
    (hitems : ∀ item ∈ Arity.first.held value,
      item.depth + 1 < depth + 1 ∧ Throughout Shaped .signature item) :
    (firstSignature most (depth + 1) value).SucceedsIff
      (∀ item ∈ Arity.first.held value, Throughout (Fits most) .signature item) := by
  unfold firstSignature
  cases value with
  | null => exact (succeedsIff_pure _).congr (by simp [Arity.held])
  | arr items =>
      cases items with
      | nil => exact (succeedsIff_pure _).congr (by simp [Arity.held])
      | cons item more =>
          obtain ⟨object, rfl⟩ := exists_obj_of_mem_held hvalue List.mem_cons_self
          obtain ⟨hless, hshaped⟩ := hitems _ List.mem_cons_self
          have hread := h.signature object (Nat.lt_of_succ_lt_succ hless) hshaped
          refine (SucceedsIff.ite (fun hvoid => absurd hvoid Bool.false_ne_true) fun _ =>
            hread.map _).congr ?_
          exact (List.forall_mem_singleton (p := Throughout (Fits most) .signature)).symm
  | _ => cases hvalue

end ReadsShaped

/-! ### Types -/

/-- The fields of a type that are read on are those of its variant. -/
theorem fields_type_of_isText {variant : Text}
    (h : (fieldOr object "type").isText variant = true) :
    InputRole.type.fields object = fieldsOfVariant variant := by
  rw [InputRole.fields, Json.isText_iff.1 h]

theorem not_isText_of_isText {value : Json} {x y : Text} (h : value.isText x = true)
    (hne : x ≠ y) : value.isText y = false := by
  rw [Json.isText_iff.1 h]
  exact beq_eq_false_iff_ne.2 hne

theorem digits?_type_of_isText {variant : Text}
    (h : (fieldOr object "type").isText variant = true) (hne : variant ≠ "literal") :
    InputRole.type.digits? object = none := by
  rw [InputRole.digits?, not_isText_of_isText h hne, if_neg Bool.false_ne_true]

/-- A type that is no literal: its fields are those of its variant, and it has no digits of its
own. -/
theorem type_of_isText {variant : Text} {fields : List InputField}
    (hshaped : Throughout Shaped .type (.obj object))
    (h : (fieldOr object "type").isText variant = true) (hne : variant ≠ "literal")
    (hfields : fieldsOfVariant variant = fields) :
    (∀ field ∈ fields, field.WellShaped object) ∧
      (Throughout (Fits most) .type (.obj object) ↔
        ∀ field ∈ fields, field.Within most object) := by
  rw [← hfields, ← fields_type_of_isText h]
  exact ⟨wellShaped_of_throughout hshaped, throughout_fits_iff (digits?_type_of_isText h hne)⟩

/-- A type of another variant than those that have fields is read whatever it holds. -/
theorem throughout_fits_of_unknown
    (h : ∀ variant ∈ ("literal" : Text) :: variantFields.map Prod.fst,
      (fieldOr object "type").isText variant = false) :
    Throughout (Fits most) .type (.obj object) := by
  rw [List.forall_mem_cons] at h
  obtain ⟨hliteral, hvariants⟩ := h
  have hfields : InputRole.type.fields object = [] := by
    unfold InputRole.fields
    dsimp only
    split
    · next x hvalue =>
      rw [hvalue] at hvariants
      have hlookup : variantFields.lookup x = none := by
        rw [List.lookup_eq_none_iff]
        intro entry hentry
        have hentry := hvariants _ (List.mem_map_of_mem hentry)
        rw [bne_iff_ne]
        exact beq_eq_false_iff_ne.1 hentry
      rw [fieldsOfVariant, hlookup, Option.getD_none]
    · rfl
  have hdigits : InputRole.type.digits? object = none := by
    rw [InputRole.digits?, hliteral, if_neg Bool.false_ne_true]
  rw [throughout_fits_iff hdigits, hfields]
  exact List.forall_mem_nil _

theorem throughout_fits_literal_iff (h : (fieldOr object "type").isText "literal" = true) :
    Throughout (Fits most) .type (.obj object) ↔
      ∀ n ∈ most, ((fieldOr object "value").field? "value").all
        (fun digits => digits.digitCount ≤ n) = true := by
  rw [throughout_iff, fields_type_of_isText h]
  simp only [Fits, InputRole.fits, InputRole.digits?, h, if_true]
  exact and_iff_left (List.forall_mem_nil _)

theorem isDigits_of_literal (hshaped : Throughout Shaped .type (.obj object))
    (h : (fieldOr object "type").isText "literal" = true) :
    ((fieldOr object "value").field? "value").all Json.isDigits = true := by
  have hhere := (throughout_iff.1 hshaped).1
  simp only [Shaped, InputRole.isShaped, InputRole.digits?, h, if_true, Bool.and_eq_true] at hhere
  exact hhere.2

namespace ReadsShaped

variable (h : ReadsShaped most depth) (hdepth : (Json.obj object).depth ≤ depth)
  (hshaped : Throughout Shaped .type (.obj object)) {variant key : Text}
  (hvariant : (fieldOr object "type").isText variant = true) (hne : variant ≠ "literal")

include h hdepth hshaped hvariant hne

/-- A type whose variant has one field, for a type. -/
theorem ofPart (hfields : fieldsOfVariant variant = [⟨key, .one, .type⟩]) :
    (loadType most depth (fieldOr object key)).SucceedsIff
      (Throughout (Fits most) .type (.obj object)) := by
  obtain ⟨hwell, hiff⟩ := type_of_isText hshaped hvariant hne hfields
  rw [List.forall_mem_singleton] at hwell hiff
  exact (h.typeField hdepth hwell).congr hiff.symm

/-- A type whose variant has one field, for a list of types. -/
theorem ofParts (hfields : fieldsOfVariant variant = [⟨key, .all, .type⟩]) :
    (do
      let loaded ← (← Load.items (fieldOr object key)).mapM (loadType most depth)
      return loaded.filterMap id : Load (List TypeExpr)).SucceedsIff
      (Throughout (Fits most) .type (.obj object)) := by
  obtain ⟨hwell, hiff⟩ := type_of_isText hshaped hvariant hne hfields
  rw [List.forall_mem_singleton] at hwell hiff
  exact (h.typeList hdepth hwell).congr hiff.symm

end ReadsShaped

namespace ReadsShaped

variable (h : ReadsShaped most depth)

include h

theorem ofReflected {inner : List (Text × Json)} (hless : (Json.obj inner).depth < depth)
    (hshaped : Throughout Shaped .reflected (.obj inner)) :
    (do
      let signature ← firstSignature most depth (fieldOr inner "signatures")
      let members ← (← Load.items (fieldOr inner "children")).mapM (loadDeclaration most depth)
      return some (.reflection signature members) : Load (Option TypeExpr)).SucceedsIff
      (Throughout (Fits most) .reflected (.obj inner)) := by
  have hfields := wellShaped_of_throughout hshaped
  simp only [InputRole.fields, List.forall_mem_cons] at hfields
  obtain ⟨hsignatures, hchildren, -⟩ := hfields
  have hpos : 0 < depth := Nat.zero_lt_of_lt hless
  have hfirst := h.first _ hsignatures.here hpos fun item hitem =>
    ⟨Nat.lt_of_le_of_lt (depth_lt_of_mem_held hitem) hless, hsignatures.below item hitem⟩
  rw [items_of_isObjectsOrNull hchildren.here, throughout_fits_iff rfl]
  simp only [pure_bind]
  refine (hfirst.bind fun _ => (h.declaration.all hless.le hchildren).andThen fun _ =>
    succeedsIff_pure _).congr ?_
  simp only [InputRole.fields, List.forall_mem_cons, List.not_mem_nil, false_imp_iff, implies_true,
    and_true]
  rfl

theorem ofReflection (hdepth : (Json.obj object).depth ≤ depth)
    (hshaped : Throughout Shaped .type (.obj object))
    (hvariant : (fieldOr object "type").isText "reflection" = true) :
    (do
      let reflected ← Load.fieldsOrNone (fieldOr object "declaration")
      let signature ← firstSignature most depth (fieldOr reflected "signatures")
      let members ← (← Load.items (fieldOr reflected "children")).mapM (loadDeclaration most depth)
      return some (.reflection signature members) : Load (Option TypeExpr)).SucceedsIff
      (Throughout (Fits most) .type (.obj object)) := by
  obtain ⟨hwell, hiff⟩ := type_of_isText hshaped hvariant (by decide)
    (show fieldsOfVariant "reflection" = [⟨"declaration", .one, .reflected⟩] from rfl)
  rw [List.forall_mem_singleton] at hwell hiff
  rw [hiff]
  rcases hwell.null_or_obj with ⟨hnull, hwithin⟩ | ⟨inner, hvalue, hless, hbelow, hwithin⟩
  · -- Nothing is said of the declaration: the same as an empty object.
    have hne : fieldOr object "type" ≠ .null := by
      rw [Json.isText_iff.1 hvariant]
      exact nofun
    have hinside := Nat.lt_of_le_of_lt (Json.depth_pos _) (depth_fieldOr_lt hne)
    have hempty := h.ofReflected
      (show (Json.obj []).depth < depth from Nat.lt_of_lt_of_le hinside hdepth) (by decide)
    rw [hnull]
    exact hempty.congr (iff_of_true throughout_fits_nil (hwithin most))
  · rw [hvalue, hwithin]
    exact h.ofReflected (Nat.lt_of_lt_of_le hless hdepth) hbelow

theorem loadType_succ :
    ReadsObjects most (depth + 1) .type (loadType most (depth + 1)) := by
  intro object hless hshaped
  have hdepth := Nat.le_of_lt_succ hless
  rw [loadType]
  refine .ite (fun hvoid => ?void) fun _ => ?_
  case void =>
    obtain rfl : object = [] := List.isEmpty_iff.1 hvoid
    exact (succeedsIff_pure _).congr (iff_of_true trivial throughout_fits_nil)
  rw [Load.fields, pure_bind]
  extract_lets +onlyGivenNames part parts variant
  refine .ite (fun hvariant => ?intrinsic) fun hintrinsic =>
    .ite (fun hvariant => ?reference) fun hreference => .ite (fun hvariant => ?array) fun harray =>
    .ite (fun hvariant => ?union) fun hunion =>
    .ite (fun hvariant => ?intersection) fun hintersection =>
    .ite (fun hvariant => ?literal) fun hliteral => .ite (fun hvariant => ?tuple) fun htuple =>
    .ite (fun hvariant => ?wrapper) fun hwrapper =>
    .ite (fun hvariant => ?reflection) fun hreflection =>
    .ite (fun hvariant => ?conditional) fun hconditional =>
    .ite (fun hvariant => ?indexed) fun hindexed => .ite (fun hvariant => ?query) fun hquery =>
    .ite (fun hvariant => ?predicate) fun hpredicate =>
    .ite (fun hvariant => ?operator) fun hoperator => ?unknown
  case intrinsic =>
    obtain ⟨-, hiff⟩ := type_of_isText hshaped hvariant (by decide) rfl
    exact (succeedsIff_pure _).congr (iff_of_true trivial (hiff.2 (List.forall_mem_nil _)))
  case reference | union | intersection | tuple =>
    exact (h.ofParts hdepth hshaped hvariant (by decide) rfl).andThen fun _ => succeedsIff_pure _
  case array | predicate | operator =>
    exact (h.ofPart hdepth hshaped hvariant (by decide) rfl).andThen fun _ => succeedsIff_pure _
  case literal =>
    exact ((loadLiteral_succeeds (isDigits_of_literal hshaped hvariant)).andThen fun _ =>
      succeedsIff_pure _).congr (throughout_fits_literal_iff hvariant).symm
  case wrapper =>
    simp only [Bool.or_eq_true] at hvariant
    obtain (hvariant | hvariant) | hvariant := hvariant
    all_goals exact h.ofPart hdepth hshaped hvariant (by decide) rfl
  case reflection => exact h.ofReflection hdepth hshaped hvariant
  case conditional =>
    have hfields : fieldsOfVariant "conditional" = [⟨"checkType", .one, .type⟩,
      ⟨"extendsType", .one, .type⟩, ⟨"trueType", .one, .type⟩, ⟨"falseType", .one, .type⟩] := rfl
    obtain ⟨hwell, hiff⟩ := type_of_isText hshaped hvariant (by decide) hfields
    simp only [List.forall_mem_cons, List.not_mem_nil, false_imp_iff, implies_true, and_true]
      at hwell hiff
    obtain ⟨hcheck, hbound, htrue, hfalse⟩ := hwell
    rw [hiff]
    apply (h.typeField hdepth hcheck).bind
    intro _
    apply (h.typeField hdepth hbound).bind
    intro _
    apply (h.typeField hdepth htrue).bind
    intro _
    exact (h.typeField hdepth hfalse).andThen fun _ => succeedsIff_pure _
  case indexed =>
    have hfields : fieldsOfVariant "indexedAccess" =
      [⟨"objectType", .one, .type⟩, ⟨"indexType", .one, .type⟩] := rfl
    obtain ⟨hwell, hiff⟩ := type_of_isText hshaped hvariant (by decide) hfields
    simp only [List.forall_mem_cons, List.not_mem_nil, false_imp_iff, implies_true, and_true]
      at hwell hiff
    obtain ⟨hobject, hindex⟩ := hwell
    rw [hiff]
    apply (h.typeField hdepth hobject).bind
    intro _
    exact (h.typeField hdepth hindex).andThen fun _ => succeedsIff_pure _
  case query =>
    obtain ⟨hwell, hiff⟩ := type_of_isText hshaped hvariant (by decide)
      (show fieldsOfVariant "query" = [⟨"queryType", .one, .leaf⟩] from rfl)
    rw [List.forall_mem_singleton] at hwell hiff
    exact ((fieldsOrNone_of_isObjectOrNull hwell.here).andThen fun _ => succeedsIff_pure _).congr
      (iff_of_true trivial (hiff.2 (within_leaf _)))
  case unknown =>
    -- all other variants were ruled out on the way here
    refine ((succeedsIff_note _).after fun _ => succeedsIff_pure _).congr (iff_of_true trivial ?_)
    refine throughout_fits_of_unknown ?_
    simp only [Bool.not_eq_true, Bool.or_eq_false_iff] at *
    simp only [variantFields, List.map_cons, List.map_nil, List.forall_mem_cons]
    exact ⟨hliteral, hreference, harray, hunion, hintersection, htuple, hwrapper.1.1, hwrapper.1.2,
      hwrapper.2, hreflection, hconditional, hindexed, hquery, hpredicate, hoperator,
      List.forall_mem_nil _⟩

end ReadsShaped

/-- By induction on the nesting, what is shaped as it should be is read if and only if its digits are
within the limit. -/
theorem readsShaped (most : Option Nat) (depth : Nat) : ReadsShaped most depth := by
  induction depth with
  | zero =>
      refine ⟨?_, ?_, ?_, ?_, fun _ _ hpos => absurd hpos (Nat.lt_irrefl 0)⟩
      all_goals exact fun _ hless => absurd hless (Nat.not_lt_zero _)
  | succ depth ih =>
      exact ⟨ih.loadDeclaration_succ, ih.loadSignature_succ, ih.loadParameter_succ,
        ih.loadType_succ, fun _ hvalue _ => ih.firstSignature_succ hvalue⟩

/-! ### Projects -/

theorem Json.isProject_iff {value : Json} :
    value.isProject = true ↔ value.Has "kind" ∧ value.Has "name" := by
  cases value with
  | obj object => simp [isProject, field?, Has]
  | _ => exact iff_of_false Bool.false_ne_true nofun

/-- A project is read if and only if its root is. -/
theorem exists_loadProjectWithin_iff {value : Json} (h : value.isProject = true) :
    (∃ read, loadProjectWithin most value = .ok read) ↔
      ∃ read, loadDeclaration most (value.depth + 1) value [] = .ok read := by
  unfold loadProjectWithin
  rw [if_pos h]
  cases hload : Declaration.loadWithin most value with
  | error fault => exact iff_of_false nofun fun ⟨read, hread⟩ => nomatch hload.symm.trans hread
  | ok read => exact iff_of_true ⟨_, rfl⟩ ⟨read, hload⟩

/-- Whatever the limit on whole numbers, a value is refused as no project if and only if it is not an
object with a kind and a name.  A project all of whose objects are shaped as their roles want it is
read if there is no limit; with a limit, such as `mostDigits` of `loadProject`, if and only if no
large whole number in it has more digits than that. -/
theorem reads_shaped_projects (value : Json) :
    (∀ most, loadProjectWithin most value = .error .notAProject ↔
      ¬(value.Has "kind" ∧ value.Has "name")) ∧
    (value.Has "kind" → value.Has "name" → Throughout Shaped .declaration value →
      (∃ read, loadProjectWithin none value = .ok read) ∧
      ∀ n, (∃ read, loadProjectWithin (some n) value = .ok read) ↔
        Throughout (fun role object => role.fits n object = true) .declaration value) := by
  refine ⟨fun most => ?_, fun hkind hname hshaped => ?_⟩
  · rw [loadProjectWithin_eq_notAProject_iff, ← Bool.not_eq_true, Json.isProject_iff]
  · have hproject := Json.isProject_iff.2 ⟨hkind, hname⟩
    obtain ⟨object, rfl, -⟩ := hkind
    have hread (most : Option Nat) :
        (∃ read, loadProjectWithin most (.obj object) = .ok read) ↔
          Throughout (Fits most) .declaration (.obj object) := by
      rw [exists_loadProjectWithin_iff hproject]
      exact (readsShaped most _).declaration object (Nat.lt_succ_self _) hshaped []
    refine ⟨(hread none).2 fun _ _ _ => nofun, fun n => ?_⟩
    rw [hread (some n)]
    have hfits (role : InputRole) (inner : List (Text × Json)) :
        Fits (some n) role inner ↔ role.fits n inner = true := by simp [Fits]
    exact ⟨fun h => h.mono fun role inner => (hfits role inner).1,
      fun h => h.mono fun role inner => (hfits role inner).2⟩

/-- A project of unknown kinds and variants: an example's tag without a name, a default of a literal,
a tuple of wrapped types, a conditional inside a reflected declaration, and a large whole number. -/
def unknownsProject : Json :=
  let number : Json := .obj [("type", .str "intrinsic"), ("name", .arr [])]
  let large : Json := .obj [("type", .str "literal"),
    ("value", .obj [("negative", .bool true), ("value", .str "9007199254740993")])]
  let odd : Json := .obj [("type", .int 7), ("name", .obj [("deep", .null)])]
  let condition : Json := .obj [("type", .str "conditional"), ("checkType", number),
    ("extendsType", odd), ("trueType", large), ("falseType", .null)]
  let reflected : Json := .obj [("kind", .null), ("type", condition),
    ("signatures", .arr [.obj [("parameters", .arr [.obj [("flags", .obj [])]])]])]
  let comment : Json := .obj [
    ("summary", .arr [.obj [("kind", .str "code"), ("text", .str "f")], .obj [("text", .null)]]),
    ("blockTags", .arr [.obj [("content", .arr [.obj [("text", .str "More.")]])]])]
  .obj [("kind", .str "Cluster"), ("name", .int 3), ("comment", comment), ("flags", .null),
    ("children", .arr [.obj [("kind", .int 16), ("type", large)],
      .obj [("type", .obj [("type", .str "tuple"), ("elements", .arr
        [.obj [("type", .str "rest"), ("elementType", number)], .obj []])])],
      .obj [("type", .obj [("type", .str "reflection"),
        ("declaration", .obj [("children", .arr [reflected])])])]])]

theorem reads_shaped_projects_unknowns :
    Throughout Shaped .declaration unknownsProject ∧
    (∃ read, loadProjectWithin none unknownsProject = .ok read) ∧
    (∃ read, loadProjectWithin (some 16) unknownsProject = .ok read) ∧
    ¬∃ read, loadProjectWithin (some 15) unknownsProject = .ok read := by
  have hkind : unknownsProject.Has "kind" := ⟨_, rfl, List.mem_cons_self⟩
  have hname : unknownsProject.Has "name" :=
    ⟨_, rfl, List.mem_cons_of_mem _ List.mem_cons_self⟩
  have hshaped : Throughout Shaped .declaration unknownsProject := by decide +kernel
  obtain ⟨hread, hwithin⟩ := (reads_shaped_projects unknownsProject).2 hkind hname hshaped
  refine ⟨hshaped, hread, (hwithin 16).2 ?_, mt (hwithin 15).1 ?_⟩
  · decide +kernel
  · decide +kernel

end ApiReference
