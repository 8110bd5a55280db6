import ApiReference.Proofs.ShapedFields

/-! # Comments of well-shaped declarations

The parts of a comment that have texts, or none, are read as texts
(`exists_loadCommentPart_eq`), so they are joined (`loadCommentText_succeeds`), and a comment that is
a well-shaped field is read, whatever its tags are (`loadComment_succeeds`). -/

namespace ApiReference

open Load

variable {object : List (Text × Json)}

/-- A part of a comment that has a text or none is read as a text. -/
theorem exists_loadCommentPart_eq (h : (fieldOr object "text").isTextOrNull = true) :
    ∃ x, loadCommentPart (.obj object) = pure (.str x) := by
  have hgiven : ∃ x, (if (fieldOr object "text").isVoid then .str [] else fieldOr object "text") =
      Json.str x := by
    cases hvalue : fieldOr object "text" with
    | null => exact ⟨[], rfl⟩
    | str x => exact ⟨x, by cases x <;> rfl⟩
    | _ =>
        rw [hvalue] at h
        cases h
  obtain ⟨x, hx⟩ := hgiven
  unfold loadCommentPart
  rw [Load.fields, pure_bind]
  dsimp only
  rw [hx]
  split
  · dsimp only
    split
    · exact ⟨_, rfl⟩
    · exact ⟨_, rfl⟩
  · exact ⟨_, rfl⟩

theorem joinParts_map_str (texts : List Text) :
    joinParts (texts.map .str) = pure texts.flatten := by
  induction texts with
  | nil => rfl
  | cons x more ih =>
    rw [List.map_cons, joinParts, ih, pure_bind]
    rfl

theorem exists_mapM_loadCommentPart_eq {parts : List Json}
    (h : ∀ part ∈ parts, ∃ x, loadCommentPart part = pure (.str x)) :
    ∃ texts : List Text, parts.mapM loadCommentPart = pure (texts.map .str) := by
  induction parts with
  | nil => exact ⟨[], rfl⟩
  | cons part parts ih =>
      obtain ⟨x, hx⟩ := h part List.mem_cons_self
      obtain ⟨texts, htexts⟩ := ih fun part hpart => h part (List.mem_cons_of_mem _ hpart)
      refine ⟨x :: texts, ?_⟩
      rw [mapM_cons, hx, pure_bind, htexts, pure_bind]
      rfl

/-- The texts of a comment are read, if their parts have texts. -/
theorem loadCommentText_succeeds {field : InputField} (harity : field.arity = .all)
    (hrole : field.role = .part) (h : field.WellShaped object) :
    (loadCommentText (fieldOr object field.key)).SucceedsIff True := by
  obtain ⟨hhere, hbelow⟩ := h
  rw [InputField.held, harity] at hbelow
  rw [harity] at hhere
  have hparts : ∀ part ∈ Arity.all.held (fieldOr object field.key),
      ∃ x, loadCommentPart part = pure (.str x) := by
    intro part hpart
    obtain ⟨inner, rfl⟩ := exists_obj_of_mem_held hhere hpart
    have hshaped := (throughout_iff.1 (hbelow _ hpart)).1
    rw [hrole] at hshaped
    simp only [Shaped, InputRole.isShaped, InputRole.texts, Bool.and_eq_true, List.all_eq_true,
      List.forall_mem_singleton] at hshaped
    exact exists_loadCommentPart_eq hshaped.1.2
  obtain ⟨texts, htexts⟩ := exists_mapM_loadCommentPart_eq hparts
  refine .ite (fun _ => succeedsIff_pure _) fun _ => ?_
  rw [items_of_isObjectsOrNull hhere, pure_bind, htexts, pure_bind, joinParts_map_str, pure_bind]
  exact succeedsIff_pure _

theorem addTag_succeeds {tag : Json} (h : tag.isTextOrNull = true) (comment : Comment)
    (text : Text) : (addTag comment tag text).SucceedsIff True := by
  cases tag with
  | null => exact (succeedsIff_note _).after fun _ => succeedsIff_pure _
  | str name =>
      unfold addTag
      refine .ite (fun _ => succeedsIff_pure _) fun _ => .ite (fun _ => succeedsIff_pure _) fun _ =>
        .ite (fun _ => succeedsIff_pure _) fun _ => .ite (fun _ => succeedsIff_pure _) fun _ =>
        .ite (fun _ => succeedsIff_pure _) fun _ => ?_
      exact (succeedsIff_note _).after fun _ => succeedsIff_pure _
  | _ => cases h

theorem loadTag_succeeds (h : Throughout Shaped .tag (.obj object)) (comment : Comment) :
    (loadTag comment (.obj object)).SucceedsIff True := by
  have hname := (throughout_iff.1 h).1
  simp only [Shaped, InputRole.isShaped, InputRole.texts, Bool.and_eq_true, List.all_eq_true,
    List.forall_mem_singleton] at hname
  have hcontent := wellShaped_of_throughout h _ List.mem_cons_self
  unfold loadTag
  rw [Load.fields, pure_bind]
  exact (loadCommentText_succeeds rfl rfl hcontent).after fun text =>
    .ite (fun _ => succeedsIff_pure _) fun _ => addTag_succeeds hname.1.2 comment text

/-- A comment is read if it and its parts are shaped as they should. -/
theorem loadComment_succeeds {key : Text} (h : InputField.WellShaped ⟨key, .one, .comment⟩ object) :
    (loadComment (fieldOr object key)).SucceedsIff True := by
  rcases h.null_or_obj with ⟨hnull, -⟩ | ⟨comment, hvalue, -, hcomment, -⟩
  · rw [hnull]
    exact succeedsIff_pure _
  · have hfields := wellShaped_of_throughout hcomment
    have hsummary := hfields _ List.mem_cons_self
    obtain ⟨htags, hmore⟩ := hfields _ (List.mem_cons_of_mem _ List.mem_cons_self)
    rw [hvalue]
    refine .ite (fun _ => succeedsIff_pure _) fun _ => ?_
    rw [Load.fields, pure_bind]
    refine (loadCommentText_succeeds rfl rfl hsummary).after fun summary => ?_
    rw [items_of_isObjectsOrNull htags, pure_bind]
    refine SucceedsIff.andThen (.foldlM (fun said tag htag => ?_) _) fun _ => succeedsIff_pure _
    obtain ⟨inner, rfl⟩ := exists_obj_of_mem_held htags htag
    exact loadTag_succeeds (hmore _ htag) said

end ApiReference
