import ApiReference.Proofs.FunctionPages

/-! # What the overview reads of signatures

On the page of a function without comments the overview finds no description if every call line
that it meets was left a literal span, and otherwise the first one that was not
(`described_signatures`).  A heading in a folded field ends what it reads, so later call lines are
not met (`KeepsCallLines`). -/

namespace ApiReference

/-! ### Functions without comments -/

/-- A function without a comment on itself or on any of its signatures. -/
structure Declaration.Uncommented (decl : Declaration) : Prop where
  kind : decl.kind = .function
  comment : decl.comment = none
  signatures : ∀ signature ∈ decl.signatures, signature.comment = none

/-- A signature is read as it was put together: its call form is one line without backticks, and the
texts of its fields are orderly. -/
structure Signature.ReadsPlainly (refs : ReferenceMap) (name : Text) (signature : Signature) :
    Prop where
  form : ∀ form, signature.callForm name = .ok form → '\x60' ∉ form ∧ '\n' ∉ form
  texts : ∀ texts, signatureTexts refs {} signature = .ok texts → ∀ x ∈ texts, IsOrderly x

/-- The page of a function is read as it was put together. -/
structure Declaration.ReadsPlainly (refs : ReferenceMap) (decl : Declaration) : Prop where
  name : IsPlainName decl.name
  signatures : ∀ signature ∈ decl.signatures, signature.ReadsPlainly refs decl.name

/-- The fields of the signature hold a heading, which ends what the overview reads. -/
def Signature.HoldsHeading (refs : ReferenceMap) (signature : Signature) : Prop :=
  ∃ texts, signatureTexts refs {} signature = .ok texts ∧ HoldHeading texts

/-- The call forms of the signatures that the overview meets stay literal spans. -/
def KeepsCallLines (refs : ReferenceMap) (name : Text) : List Signature → Prop
  | [] => True
  | signature :: more =>
    (∀ form, signature.callForm name = .ok form → StaysLiteral refs form) ∧
      (¬ signature.HoldsHeading refs → KeepsCallLines refs name more)

/-! ### Deciding how a function reads -/

instance decidableForallOk {ε α : Type} (result : Except ε α) (p : α → Prop) [DecidablePred p] :
    Decidable (∀ a, result = .ok a → p a) :=
  match result with
  | .ok a => decidable_of_iff (p a) ⟨fun h _ ha => Except.ok.inj ha ▸ h, fun h => h a rfl⟩
  | .error _ => isTrue nofun

instance (decl : Declaration) : Decidable decl.Uncommented :=
  decidable_of_iff (decl.kind = .function ∧ decl.comment.isNone ∧
      ∀ signature ∈ decl.signatures, signature.comment.isNone)
    ⟨fun h => ⟨h.1, Option.isNone_iff_eq_none.1 h.2.1, fun signature hm =>
      Option.isNone_iff_eq_none.1 (h.2.2 signature hm)⟩,
    fun h => ⟨h.kind, Option.isNone_iff_eq_none.2 h.comment, fun signature hm =>
      Option.isNone_iff_eq_none.2 (h.signatures signature hm)⟩⟩

section

variable (refs : ReferenceMap)

instance (name : Text) (signature : Signature) : Decidable (signature.ReadsPlainly refs name) :=
  decidable_of_iff (_ ∧ _) ⟨fun h => ⟨h.1, h.2⟩, fun h => ⟨h.form, h.texts⟩⟩

instance (decl : Declaration) : Decidable (decl.ReadsPlainly refs) :=
  decidable_of_iff (_ ∧ _) ⟨fun h => ⟨h.1, h.2⟩, fun h => ⟨h.name, h.signatures⟩⟩

instance (signature : Signature) : Decidable (signature.HoldsHeading refs) :=
  decidable_of_iff (¬ ∀ texts, signatureTexts refs {} signature = .ok texts → ¬ HoldHeading texts)
    (by simp [Signature.HoldsHeading])

instance decidableKeepsCallLines (name : Text) :
    ∀ signatures, Decidable (KeepsCallLines refs name signatures)
  | [] => isTrue trivial
  | _ :: more =>
    have := decidableKeepsCallLines name more
    inferInstanceAs (Decidable (_ ∧ _))

end

theorem Declaration.Uncommented.pageSummary_eq_nil {decl : Declaration} (h : decl.Uncommented) :
    decl.pageSummary = [] := by
  have hnone : (decl.signatures.map fun signature => summaryText signature.comment).find?
      (fun x => !x.isEmpty) = none := by
    rw [List.find?_eq_none]
    intro x hx
    obtain ⟨signature, hm, rfl⟩ := List.mem_map.1 hx
    rw [h.signatures signature hm]
    decide
  unfold pageSummary summary
  rw [h.comment, hnone]
  rfl

/-! ### Reading signatures -/

theorem isPrefix_of_callForm {signature : Signature} {name form : Text}
    (h : signature.callForm name = .ok form) : name ++ ['('] <+: form := by
  unfold Signature.callForm at h
  obtain ⟨parameters, _, h⟩ := bind_eq_ok.1 h
  dsimp only at h
  split at h
  · cases h
    exact ⟨parameters ++ "): " ++ Json.display (.str "void"), by simp⟩
  · obtain ⟨result, _, h⟩ := bind_eq_ok.1 h
    cases h
    exact ⟨parameters ++ "): " ++ result.display, by simp⟩

/-- A call line that is a literal span does not serve as a description. -/
theorem descriptionLine?_inSpan {form : Text} (h : '\n' ∉ form) :
    Overview.descriptionLine? (Text.lines (inSpan form)) = none := by
  have hline : '\n' ∉ inSpan form := by simpa [inSpan] using h
  have hstrip : (inSpan form).strip = inSpan form :=
    Text.stripEnd_concat (x := '\x60' :: form) (by decide)
  rw [Text.lines_of_not_mem hline, Overview.descriptionLine?, List.map_singleton, hstrip]
  rfl

section

variable {refs : ReferenceMap} {name : Text} (hname : IsPlainName name)
  (hhref : ∀ target href, refs.href? target = some href → '\x60' ∉ href ∧ '\n' ∉ href)

include hname hhref

/-- What the overview finds at a signature: nothing if the call line stays literal, and then it
reads on unless there is a heading; otherwise the call line, which was linked. -/
theorem described_signature {signature : Signature} {blocks : List Block}
    (h : signatureBlocks refs {} name signature = .ok blocks) (hcomment : signature.comment = none)
    (hplain : signature.ReadsPlainly refs name) (more : List Block) :
    (∀ form, signature.callForm name = .ok form → StaysLiteral refs form) ∧
        (signature.HoldsHeading refs →
          Overview.described 0 (blocks.filterMap (settleBlock? refs) ++ more) = none) ∧
        (¬ signature.HoldsHeading refs →
          Overview.described 0 (blocks.filterMap (settleBlock? refs) ++ more) =
            Overview.described 0 more) ∨
      ¬ (∀ form, signature.callForm name = .ok form → StaysLiteral refs form) ∧
        ∃ y, ShowsCall name y ∧ y.stripEnd = y ∧
          Overview.described 0 (blocks.filterMap (settleBlock? refs) ++ more) = some y := by
  obtain ⟨form, texts, fields, hform, htexts, hfields, rfl⟩ := exists_of_signatureBlocks hcomment h
  obtain ⟨hspan, hline⟩ := hplain.form form hform
  have hparagraph : settleBlock? refs (Block.paragraph (inSpan form)) =
      finishBlock? refs.linkTable (Block.paragraph (inSpan form)) := settleBlock?_of_not_heading rfl
  rcases finish_callLine hname (isPrefix_of_callForm hform) hspan hline hhref with
    ⟨hstays, hkept⟩ | ⟨hnot, y, hshows, htrimmed, hlinked⟩
  · left
    have hheading : signature.HoldsHeading refs ↔
        (fields.filterMap (settleBlock? refs)).any Block.isHeading = true := by
      rw [hfields.any_isHeading_iff]
      refine ⟨fun hholds => ?_, fun hholds => ⟨texts, htexts, hholds⟩⟩
      obtain ⟨others, hothers, hholds⟩ := hholds
      exact Except.ok.inj (hothers.symm.trans htexts) ▸ hholds
    have hread : Overview.described 0 ((Block.paragraph (inSpan form) :: fields).filterMap
          (settleBlock? refs) ++ more) =
        if (fields.filterMap (settleBlock? refs)).any Block.isHeading then none
        else Overview.described 0 more := by
      rw [List.filterMap_cons_some (hparagraph.trans hkept), List.cons_append,
        Overview.described_paragraph, descriptionLine?_inSpan hline, Option.none_or,
        hfields.hides (hplain.texts texts htexts)]
    rw [hread, hheading]
    refine ⟨fun other hother => ?_, fun hh => if_pos hh, fun hh => if_neg hh⟩
    exact Except.ok.inj (hform.symm.trans hother) ▸ hstays
  · right
    refine ⟨fun hall => hnot (hall form hform), y, hshows, htrimmed, ?_⟩
    rw [List.filterMap_cons_some (hparagraph.trans hlinked), List.cons_append,
      Overview.described_paragraph, hshows.descriptionLine? hname htrimmed, Option.some_or]

/-- What the overview finds at all signatures: nothing if the call lines that it meets stay
literal, and otherwise one that was linked. -/
theorem described_signatures {signatures : List Signature} {shown : List (List Block)}
    (h : List.Forall₂ (fun signature blocks => signatureBlocks refs {} name signature = .ok blocks)
      signatures shown)
    (hcomment : ∀ signature ∈ signatures, signature.comment = none)
    (hplain : ∀ signature ∈ signatures, signature.ReadsPlainly refs name) :
    KeepsCallLines refs name signatures ∧
        Overview.described 0 (shown.flatten.filterMap (settleBlock? refs)) = none ∨
      ¬ KeepsCallLines refs name signatures ∧ ∃ y, ShowsCall name y ∧ y.stripEnd = y ∧
        Overview.described 0 (shown.flatten.filterMap (settleBlock? refs)) = some y := by
  induction h with
  | nil => exact .inl ⟨trivial, rfl⟩
  | @cons signature blocks signatures shown hblocks _ ih =>
      rw [List.forall_mem_cons] at hcomment hplain
      rw [KeepsCallLines, List.flatten_cons, List.filterMap_append]
      rcases described_signature hname hhref hblocks hcomment.1 hplain.1
        (shown.flatten.filterMap (settleBlock? refs)) with
        ⟨hstays, hends, hgoes⟩ | ⟨hnot, hfound⟩
      · by_cases hh : signature.HoldsHeading refs
        · exact .inl ⟨⟨hstays, fun hno => absurd hh hno⟩, hends hh⟩
        · rw [hgoes hh]
          rcases ih hcomment.2 hplain.2 with ⟨hkeeps, hnone⟩ | ⟨hnot, hfound⟩
          · exact .inl ⟨⟨hstays, fun _ => hkeeps⟩, hnone⟩
          · exact .inr ⟨fun hall => hnot (hall.2 hh), hfound⟩
      · exact .inr ⟨fun hall => hnot hall.1, hfound⟩

end

end ApiReference
