import ApiReference.Proofs.Names
import ApiReference.Proofs.TypeGlyphs

/-! # The signs of a link in a displayed type

A displayed type is searched for the signs of a link as a text.  Tuples, indexed accesses, calls and
functions write the same brackets, but they never write a closing bracket right before an opening
parenthesis; so where no word holds brackets, the signs are there exactly when a linked name is
shown (`hasLinks_show_iff`). -/

namespace ApiReference

/-- A search finds exactly the texts that stand somewhere in the searched one. -/
theorem has_iff_isInfix {needle x : Text} : Text.has needle x = true ↔ needle <:+: x := by
  induction x with
  | nil => rw [Text.has, List.isEmpty_iff, List.infix_nil]
  | cons c x ih =>
      rw [Text.has, Bool.or_eq_true, List.isPrefixOf_iff_prefix, ih, List.infix_cons_iff]

/-- The signs of a link do not begin in a text without closing brackets. -/
theorem signs_isInfix_of_append {x y : Text} (hx : ']' ∉ x)
    (h : ("](" : Text) <:+: x ++ y) : ("](" : Text) <:+: y := by
  induction x with
  | nil => exact h
  | cons c x ih =>
      obtain ⟨hc, hx⟩ := not_or.1 (List.mem_cons.not.1 hx)
      rcases List.infix_cons_iff.1 h with hstart | hrest
      · exact absurd (List.cons_prefix_cons.1 hstart).1 hc
      · exact ih hx hrest

namespace Glyph

variable {links : Links} {row : List Glyph}

/-- Signs part the glyphs, so without linked names they do not write those of a link. -/
theorem Parted.not_signs_of_unlinked {isName : Text → Bool} (h : Parted isName row)
    (hname : ∀ x, isName x = true → ']' ∉ x)
    (hunlinked : ∀ x, .name x ∈ row → links x = none) :
    ¬ ("](" : Text) <:+: writeAll links row := by
  induction row with
  | nil =>
      intro hsigns
      cases List.infix_nil.1 hsigns
  | cons g row ih =>
      have hrest : ¬ ("](" : Text) <:+: writeAll links row := by
        refine ih ⟨h.chain.tail, fun x hm => h.names x (List.mem_cons_of_mem g hm)⟩ ?_
        exact fun x hm => hunlinked x (List.mem_cons_of_mem g hm)
      have hcons : writeAll links (g :: row) = g.write links ++ writeAll links row :=
        List.flatMap_cons
      rw [hcons]
      intro hsigns
      cases g with
      | name x =>
          have hwrite : (Glyph.name x).write links = x := by
            rw [write, shownName, hunlinked x List.mem_cons_self]
          rw [hwrite] at hsigns
          exact hrest (signs_isInfix_of_append (hname x (h.names x List.mem_cons_self)) hsigns)
      | char c =>
          -- The signs can only begin here; then the next glyph writes the parenthesis.
          refine hrest ((List.infix_cons_iff.1 hsigns).resolve_left fun hstart => ?_)
          obtain ⟨rfl, hparenthesis⟩ := List.cons_prefix_cons.1 hstart
          cases row with
          | nil => cases List.prefix_nil.1 hparenthesis
          | cons next row =>
              have hnext := (List.isChain_cons_cons.1 h.chain).1
              cases next with
              | name y => cases hnext
              | char d =>
                  obtain ⟨rfl, _⟩ := List.cons_prefix_cons.1 hparenthesis
                  cases hnext

/-- A linked name writes the signs of a link. -/
theorem hasLinks_writeAll_of_linked {x : Text} (hm : .name x ∈ row)
    (hlinked : (links x).isSome = true) : Markup.hasLinks (writeAll links row) = true := by
  obtain ⟨href, hhref⟩ := Option.isSome_iff_exists.1 hlinked
  have hshown : shownName links x = '[' :: x ++ "](" ++ href ++ [')'] := by
    rw [shownName, hhref]
  have hinfix : shownName links x <:+: writeAll links row :=
    List.infix_of_mem_flatten (List.mem_map_of_mem hm)
  rw [Markup.hasLinks, Bool.and_eq_true, List.contains_iff_mem, has_iff_isInfix]
  constructor
  · apply hinfix.subset
    rw [hshown]
    exact List.mem_cons_self
  · apply List.IsInfix.trans ?_ hinfix
    rw [hshown]
    exact ⟨'[' :: x, href ++ [')'], by simp⟩

end Glyph

/-- The names of a map are those that are linked. -/
theorem ReferenceMap.isSome_links_iff {refs : ReferenceMap} {name : Text} :
    (refs.links name).isSome = true ↔ name ∈ refs.names := by
  rw [links, href?, Option.isSome_map, isSome_location?_iff]

/-- A type whose words hold no brackets is shown with the signs of a link exactly when it mentions a
name that has a page. -/
theorem hasLinks_show_iff (refs : ReferenceMap) (type : TypeExpr)
    (h : type.wordedBy isBracketFree isBracketFree = true) :
    ∃ shown, type.show refs.links = .ok (.str shown) ∧
      (Markup.hasLinks shown = true ↔ ∃ name, type.Mentions name ∧ name ∈ refs.names) := by
  refine ⟨_, show_eq refs.links type h, ?_⟩
  constructor
  · intro hsigns
    by_contra hnone
    have hparted := parted_glyphs ⟨fun _ => id, fun _ => id⟩ type h
    rw [Markup.hasLinks, Bool.and_eq_true, has_iff_isInfix] at hsigns
    refine hparted.not_signs_of_unlinked ?_ ?_ hsigns.2
    · exact fun x hx => (not_mem_of_isBracketFree hx).2.1
    · intro x hm
      rw [← Option.not_isSome_iff_eq_none, ReferenceMap.isSome_links_iff]
      exact fun hx => hnone ⟨x, (name_mem_glyphs_iff type).1 hm, hx⟩
  · rintro ⟨name, hmentions, hname⟩
    apply Glyph.hasLinks_writeAll_of_linked ((name_mem_glyphs_iff type).2 hmentions)
    exact ReferenceMap.isSome_links_iff.2 hname

/-- The map of one interface. -/
def userRefs : ReferenceMap := .ofEntries [⟨"User", .interfaceType, "interfaces/user"⟩] "api"

/-- The brackets of a tuple around those of an indexed access, and a link in both. -/
theorem hasLinks_show_iff_nestedBrackets :
    let type : TypeExpr := .tuple
      [.indexedAccess (some (.query "User")) (some (.literal (.str "id"))),
        .indexedAccess (some (.reference "User" [])) (some (.literal (.str "id")))]
    type.wordedBy isBracketFree isBracketFree = true ∧
      ∃ shown, type.show userRefs.links = .ok (.str shown) ∧
        shown = "[typeof User[\x22id\x22], [User](/api/interfaces/user)[\x22id\x22]]" ∧
        Markup.hasLinks shown = true ∧ ∃ name, type.Mentions name ∧ name ∈ userRefs.names := by
  intro type
  have hworded : type.wordedBy isBracketFree isBracketFree = true := by decide
  obtain ⟨shown, hshow, hlinks⟩ := hasLinks_show_iff userRefs type hworded
  have hshown : shown = "[typeof User[\x22id\x22], [User](/api/interfaces/user)[\x22id\x22]]" :=
    Json.str.inj (Except.ok.inj (hshow.symm.trans (by rfl)))
  have hsigns : Markup.hasLinks shown = true := by
    rw [hshown]
    decide
  exact ⟨hworded, shown, hshow, hshown, hsigns, hlinks.1 hsigns⟩

end ApiReference
