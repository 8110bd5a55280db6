import ApiReference.Proofs.Loading

/-! # What is refused as no project

No reader of a part of a project stops because of what the root lacks
(`avoidsNotAProject`), so a value is refused as no project if and only if it is not an object with a
kind and a name (`loadProjectWithin_eq_notAProject_iff`). -/

namespace ApiReference

open Load

theorem avoids_fields (value : Json) : (Load.fields value).Avoids .notAProject := by
  unfold Load.fields
  split
  · exact avoids_pure _
  · exact avoids_refuse nofun

theorem avoids_fieldsOrNone (value : Json) : (Load.fieldsOrNone value).Avoids .notAProject := by
  unfold Load.fieldsOrNone
  split
  · exact avoids_pure _
  · exact .ite (avoids_pure _) (avoids_refuse nofun)

theorem avoids_items (value : Json) : (Load.items value).Avoids .notAProject := by
  unfold Load.items
  split
  · exact avoids_pure _
  · exact avoids_pure _
  · exact avoids_pure _
  · exact .ite (avoids_pure _) (avoids_refuse nofun)

theorem avoids_loadCommentPart (part : Json) : (loadCommentPart part).Avoids .notAProject := by
  refine (avoids_fields part).bind fun object => .ite ?_ (avoids_pure _)
  split
  · exact .ite (avoids_pure _) (avoids_pure _)
  · exact avoids_refuse nofun

theorem avoids_joinParts (parts : List Json) : (joinParts parts).Avoids .notAProject := by
  fun_induction joinParts parts with
  | case1 => exact avoids_pure _
  | case2 x more ih => exact ih.bind fun _ => avoids_pure _
  | case3 => exact avoids_refuse nofun

theorem avoids_loadCommentText (parts : Json) : (loadCommentText parts).Avoids .notAProject := by
  apply Avoids.ite (avoids_pure _)
  apply (avoids_items parts).bind
  intro items
  apply (Avoids.mapM avoids_loadCommentPart items).bind
  intro pieces
  exact (avoids_joinParts pieces).bind fun _ => avoids_pure _

theorem avoids_addTag (comment : Comment) (tag : Json) (text : Text) :
    (addTag comment tag text).Avoids .notAProject := by
  unfold addTag
  split
  · exact .ite (avoids_pure _) <| .ite (avoids_pure _) <| .ite (avoids_pure _) <|
      .ite (avoids_pure _) <| .ite (avoids_pure _) <| (avoids_note _).bind fun _ => avoids_pure _
  · exact avoids_refuse nofun
  · exact avoids_refuse nofun
  · exact (avoids_note _).bind fun _ => avoids_pure _

theorem avoids_loadTag (comment : Comment) (tag : Json) :
    (loadTag comment tag).Avoids .notAProject := by
  apply (avoids_fields tag).bind
  intro object
  apply (avoids_loadCommentText (fieldOr object "content")).bind
  intro text
  exact .ite (avoids_pure _) (avoids_addTag comment _ text)

theorem avoids_loadComment (value : Json) : (loadComment value).Avoids .notAProject := by
  apply Avoids.ite (avoids_pure _)
  apply (avoids_fields value).bind
  intro object
  apply (avoids_loadCommentText (fieldOr object "summary")).bind
  intro summary
  apply (avoids_items (fieldOr object "blockTags")).bind
  intro tags
  exact (Avoids.foldlM avoids_loadTag _ tags).bind fun _ => avoids_pure _

theorem avoids_loadKind (value : Json) : (loadKind value).Avoids .notAProject :=
  .ite ((avoids_note _).bind fun _ => avoids_pure _) (avoids_pure _)

theorem avoids_loadFlags (value : Json) : (loadFlags value).Avoids .notAProject :=
  (avoids_fieldsOrNone value).bind fun _ => avoids_pure _

theorem avoids_loadLiteral (most : Option Nat) (value : Json) :
    (loadLiteral most value).Avoids .notAProject := by
  unfold loadLiteral
  split
  · split
    · exact avoids_pure _
    · extract_lets sign
      split
      · exact avoids_pure _
      · exact avoids_refuse nofun
  · exact avoids_pure _

theorem avoids_loadDefault (kind : Kind) (object : List (Text × Json)) :
    (loadDefault kind object).Avoids .notAProject := by
  unfold loadDefault
  split
  · refine .ite ((avoids_fieldsOrNone _).bind fun literal => .ite ?_ (avoids_pure _)) (avoids_pure _)
    split
    · exact avoids_pure _
    · exact avoids_pure _
  · exact avoids_pure _

/-- No value at all is refused as no project by the readers of declarations and of their parts. -/
structure RefusesNoProject (most : Option Nat) (depth : Nat) : Prop where
  declaration : ∀ value, (loadDeclaration most depth value).Avoids .notAProject
  signature : ∀ value, (loadSignature most depth value).Avoids .notAProject
  parameter : ∀ value, (loadParameter most depth value).Avoids .notAProject
  type : ∀ value, (loadType most depth value).Avoids .notAProject
  first : ∀ value, (firstSignature most depth value).Avoids .notAProject

namespace RefusesNoProject

variable {most : Option Nat} {depth : Nat}

theorem loadDeclaration_succ (h : RefusesNoProject most depth) (value : Json) :
    (loadDeclaration most (depth + 1) value).Avoids .notAProject := by
  rw [loadDeclaration]
  apply (avoids_fields value).bind
  intro object
  apply (avoids_loadKind _).bind
  intro kind
  apply (avoids_loadDefault kind object).bind
  intro _
  apply (avoids_loadComment _).bind
  intro _
  apply (avoids_items _).bind
  intro signatures
  apply (Avoids.mapM h.signature signatures).bind
  intro _
  apply (h.type _).bind
  intro _
  apply (avoids_loadFlags _).bind
  intro _
  apply (avoids_items _).bind
  intro children
  exact (Avoids.mapM h.declaration children).bind fun _ => avoids_pure _

theorem loadSignature_succ (h : RefusesNoProject most depth) (value : Json) :
    (loadSignature most (depth + 1) value).Avoids .notAProject := by
  rw [loadSignature]
  apply (avoids_fields value).bind
  intro object
  apply (avoids_items _).bind
  intro parameters
  apply (Avoids.mapM h.parameter parameters).bind
  intro _
  apply (h.type _).bind
  intro _
  exact (avoids_loadComment _).bind fun _ => avoids_pure _

theorem loadParameter_succ (h : RefusesNoProject most depth) (value : Json) :
    (loadParameter most (depth + 1) value).Avoids .notAProject := by
  rw [loadParameter]
  apply (avoids_fields value).bind
  intro object
  apply (h.type _).bind
  intro _
  apply (avoids_loadFlags _).bind
  intro _
  exact (avoids_loadComment _).bind fun _ => avoids_pure _

theorem firstSignature_succ (h : RefusesNoProject most depth) (value : Json) :
    (firstSignature most (depth + 1) value).Avoids .notAProject := by
  unfold firstSignature
  refine .ite (avoids_pure _) ?_
  split
  · exact (h.signature _).map _
  · exact (h.signature _).map _
  · exact avoids_refuse nofun
  · exact avoids_refuse nofun

theorem loadType_succ (h : RefusesNoProject most depth) (value : Json) :
    (loadType most (depth + 1) value).Avoids .notAProject := by
  rw [loadType]
  apply Avoids.ite (avoids_pure _)
  apply (avoids_fields value).bind
  intro object
  have part (key : Text) : (loadType most depth (fieldOr object key)).Avoids .notAProject :=
    h.type _
  have parts (key : Text) : (do
      let loaded ← (← Load.items (fieldOr object key)).mapM (loadType most depth)
      return loaded.filterMap id : Load (List TypeExpr)).Avoids .notAProject := by
    apply (avoids_items _).bind
    intro items
    exact (Avoids.mapM h.type items).bind fun _ => avoids_pure _
  refine .ite ?intrinsic <| .ite ?reference <| .ite ?array <| .ite ?union <| .ite ?intersection <|
    .ite ?literal <| .ite ?tuple <| .ite ?wrapper <| .ite ?reflection <| .ite ?conditional <|
    .ite ?indexed <| .ite ?query <| .ite ?predicate <| .ite ?operator ?unknown
  case intrinsic => exact avoids_pure _
  case reference | union | intersection | tuple => exact (parts _).bind fun _ => avoids_pure _
  case array | predicate | operator => exact (part _).bind fun _ => avoids_pure _
  case literal => exact (avoids_loadLiteral _ _).bind fun _ => avoids_pure _
  case wrapper => exact part _
  case reflection =>
    apply (avoids_fieldsOrNone _).bind
    intro reflected
    apply (h.first _).bind
    intro _
    apply (avoids_items _).bind
    intro members
    exact (Avoids.mapM h.declaration members).bind fun _ => avoids_pure _
  case conditional =>
    apply (part _).bind
    intro _
    apply (part _).bind
    intro _
    apply (part _).bind
    intro _
    exact (part _).bind fun _ => avoids_pure _
  case indexed =>
    apply (part _).bind
    intro _
    exact (part _).bind fun _ => avoids_pure _
  case query => exact (avoids_fieldsOrNone _).bind fun _ => avoids_pure _
  case unknown => exact (avoids_note _).bind fun _ => avoids_pure _

end RefusesNoProject

theorem refusesNoProject (most : Option Nat) (depth : Nat) : RefusesNoProject most depth := by
  induction depth with
  | zero =>
      refine ⟨?_, ?_, ?_, ?_, ?_⟩
      all_goals exact fun _ => avoids_refuse nofun
  | succ depth ih =>
      exact ⟨ih.loadDeclaration_succ, ih.loadSignature_succ, ih.loadParameter_succ,
        ih.loadType_succ, ih.firstSignature_succ⟩

/-- A value is refused as no project if and only if it does not have what the root needs. -/
theorem loadProjectWithin_eq_notAProject_iff (most : Option Nat) (value : Json) :
    loadProjectWithin most value = .error .notAProject ↔ value.isProject = false := by
  have havoids := (refusesNoProject most (value.depth + 1)).declaration value []
  unfold loadProjectWithin
  split
  · next hproject =>
    refine iff_of_false (fun h => ?_) (by simp [hproject])
    cases hload : Declaration.loadWithin most value with
    | error fault =>
        rw [hload] at h
        exact havoids (hload.trans (congrArg _ (Except.error.inj h)))
    | ok read =>
        rw [hload] at h
        cases h
  · next hproject => exact iff_of_true rfl (Bool.not_eq_true _ ▸ hproject)

end ApiReference
