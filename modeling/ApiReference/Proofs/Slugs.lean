import ApiReference.Proofs.Locations

/-! # Slugs

Whatever a name holds, its slug holds small letters and digits of ASCII, and single hyphens between them
(`isSlug_slugOf`).  Slugs are the texts that are their own slugs (`slugify_eq_self_iff`), so making a
slug of a slug changes nothing (`slugify_slugify`). -/

namespace ApiReference

/-! ### Cutting at one character -/

namespace Text

theorem splitWhere_congr {p q : Char → Bool} {x : Text} (h : ∀ c ∈ x, p c = q c) :
    splitWhere p x = splitWhere q x := by
  induction x with
  | nil => rfl
  | cons c x ih =>
      rw [splitWhere, splitWhere, h c List.mem_cons_self,
        ih fun d hd => h d (List.mem_cons_of_mem _ hd)]

theorem joinWith_append (sep : Text) {before after : List Text} (hb : before ≠ [])
    (ha : after ≠ []) :
    joinWith sep (before ++ after) = joinWith sep before ++ sep ++ joinWith sep after := by
  induction before with
  | nil => exact absurd rfl hb
  | cons first before ih =>
      cases before with
      | nil =>
          obtain ⟨second, more, rfl⟩ := List.exists_cons_of_ne_nil ha
          rw [List.singleton_append, joinWith_cons_cons, joinWith_singleton]
      | cons second before =>
          rw [List.cons_append, List.cons_append, joinWith_cons_cons, joinWith_cons_cons,
            ← List.cons_append, ih (List.cons_ne_nil _ _)]
          simp only [List.append_assoc]

/-- A piece is empty if and only if a separator stands at an end of the text or beside another one. -/
theorem nil_mem_split_iff {sep : Char} {x : Text} :
    [] ∈ split sep x ↔ x = [] ∨ x.head? = some sep ∨ x.getLast? = some sep ∨ [sep, sep] <:+: x := by
  have hcut (start rest : Text) :
      split sep (start ++ sep :: rest) = split sep start ++ split sep rest :=
    splitWhere_append_cons (by simp) start rest
  have hempty : split sep [] = [[]] := rfl
  constructor
  · intro h
    obtain ⟨before, after, e⟩ := List.append_of_mem h
    have hx : x = joinWith [sep] (before ++ [] :: after) := by rw [← e, joinWith_split]
    rcases after with _ | ⟨next, after⟩
    · by_cases hb : before = []
      · subst hb
        exact .inl (by simpa [joinWith] using hx)
      · rw [joinWith_append _ hb (List.cons_ne_nil _ _), joinWith_singleton, List.append_nil] at hx
        exact .inr (.inr (.inl (by rw [hx, List.getLast?_concat])))
    · by_cases hb : before = []
      · subst hb
        rw [List.nil_append, joinWith_cons_cons] at hx
        exact .inr (.inl (by rw [hx]; rfl))
      · rw [joinWith_append _ hb (List.cons_ne_nil _ _), joinWith_cons_cons] at hx
        exact .inr (.inr (.inr ⟨joinWith [sep] before, joinWith [sep] (next :: after), by simp [hx]⟩))
  · rintro (rfl | h | h | ⟨start, rest, rfl⟩)
    · exact List.mem_singleton_self _
    · obtain ⟨rest, rfl⟩ := List.head?_eq_some_iff.1 h
      rw [← List.nil_append (sep :: rest), hcut, hempty]
      exact List.mem_cons_self
    · obtain ⟨start, rfl⟩ := List.getLast?_eq_some_iff.1 h
      rw [hcut, hempty]
      exact List.mem_append_right _ List.mem_cons_self
    · have e : start ++ [sep, sep] ++ rest = start ++ sep :: ([] ++ sep :: rest) := by simp
      rw [e, hcut, hcut, hempty]
      exact List.mem_append_right _ List.mem_cons_self

end Text

/-! ### Texts in lower case -/

theorem lowerChar_of_not_isUpper {c : Char} (hascii : c.toNat < 0x80) (h : c.isUpper = false) :
    lowerChar c = [c] := by
  unfold Char.isUpper at h
  rw [lowerChar, if_pos hascii]
  unfold Char.toLower
  rw [dif_neg (of_decide_eq_false h)]

/-- Text of ASCII without capital letters is in lower case. -/
theorem Text.lower_eq_self {x : Text} (h : ∀ c ∈ x, c.toNat < 0x80 ∧ c.isUpper = false) :
    x.lower = x := by
  have hfrom (before : Text) : lowerFrom before x = x := by
    induction x generalizing before with
    | nil => rfl
    | cons c x ih =>
        obtain ⟨hascii, hupper⟩ := h c List.mem_cons_self
        have hsigma : (c.toNat == 0x3a3) = false := beq_false_of_ne (by omega)
        rw [lowerFrom, hsigma, lowerChar_of_not_isUpper hascii hupper,
          ih fun d hd => h d (List.mem_cons_of_mem _ hd)]
        rfl
  exact hfrom []

/-! ### What slugs are -/

/-- A slug: small letters and digits of ASCII, and single hyphens between them. -/
structure IsSlug (x : Text) : Prop where
  nonempty : x ≠ []
  chars : ∀ c ∈ x, ('a' ≤ c ∧ c ≤ 'z') ∨ ('0' ≤ c ∧ c ≤ '9') ∨ c = '-'
  start : x.head? ≠ some '-'
  ending : x.getLast? ≠ some '-'
  single : ¬ ['-', '-'] <:+: x

theorem isSlugChar_iff {c : Char} :
    isSlugChar c = true ↔ ('a' ≤ c ∧ c ≤ 'z') ∨ ('0' ≤ c ∧ c ≤ '9') := by
  unfold isSlugChar Char.isLower Char.isDigit
  rw [Bool.or_eq_true, Bool.and_eq_true, Bool.and_eq_true]
  simp only [decide_eq_true_eq]
  exact Iff.rfl

theorem not_isUpper_of_isSlugChar {c : Char} (h : isSlugChar c = true) :
    c.toNat < 0x80 ∧ c.isUpper = false := by
  rw [isSlugChar_iff] at h
  unfold Char.isUpper
  rw [decide_eq_false_iff_not]
  simp only [ge_iff_le, Char.le_def, UInt32.le_iff_toNat_le] at h ⊢
  change 0x61 ≤ c.toNat ∧ c.toNat ≤ 0x7a ∨ 0x30 ≤ c.toNat ∧ c.toNat ≤ 0x39 at h
  change c.toNat < 0x80 ∧ ¬ (0x41 ≤ c.toNat ∧ c.toNat ≤ 0x5a)
  omega

/-- The characters of a slug are those that it keeps and hyphens, and no piece between hyphens is
empty. -/
theorem isSlug_iff {x : Text} :
    IsSlug x ↔ (∀ c ∈ x, isSlugChar c = true ∨ c = '-') ∧ [] ∉ Text.split '-' x := by
  rw [Text.nil_mem_split_iff, not_or, not_or, not_or]
  simp only [isSlugChar_iff, or_assoc]
  constructor
  · exact fun h => ⟨h.chars, h.nonempty, h.start, h.ending, h.single⟩
  · exact fun ⟨hchars, hne, hstart, hending, hsingle⟩ => ⟨hne, hchars, hstart, hending, hsingle⟩

instance (x : Text) : Decidable (IsSlug x) :=
  decidable_of_iff ((x.all fun c => isSlugChar c || c == '-') && !(Text.split '-' x).contains []) <| by
    rw [isSlug_iff]
    simp

/-- Joining words of a slug by hyphens gives a slug. -/
theorem isSlug_joinWith {pieces : List Text} (hne : pieces ≠ [])
    (h : ∀ piece ∈ pieces, piece ≠ [] ∧ ∀ c ∈ piece, isSlugChar c = true) :
    IsSlug (Text.joinWith ['-'] pieces) := by
  have hhyphen : isSlugChar '-' = false := by decide
  have hsplit : Text.split '-' (Text.joinWith ['-'] pieces) = pieces := by
    refine Text.split_joinWith hne fun piece hp hm => ?_
    rw [(h piece hp).2 _ hm] at hhyphen
    cases hhyphen
  rw [isSlug_iff, hsplit]
  refine ⟨fun c hc => ?_, fun hnil => (h [] hnil).1 rfl⟩
  rcases Text.mem_of_mem_joinWith hc with hc | ⟨piece, hp, hc⟩
  · exact .inr (List.mem_singleton.1 hc)
  · exact .inl ((h piece hp).2 c hc)

theorem slugify_eq_nil_or (x : Text) : slugify x = [] ∨ IsSlug (slugify x) := by
  unfold slugify
  generalize hpieces : (Text.splitWhere (fun c => !isSlugChar c) x.lower).filter
    (fun piece => !piece.isEmpty) = pieces
  by_cases hne : pieces = []
  · exact .inl (by rw [hne]; rfl)
  · refine .inr (isSlug_joinWith hne fun piece hp => ?_)
    rw [← hpieces, List.mem_filter] at hp
    refine ⟨by simpa using hp.2, fun c hc => ?_⟩
    simpa using Text.forall_mem_splitWhere _ _ piece hp.1 c hc

theorem IsSlug.lower_eq_self {x : Text} (h : IsSlug x) : x.lower = x := by
  refine Text.lower_eq_self fun c hc => ?_
  rcases (isSlug_iff.1 h).1 c hc with hslug | rfl
  · exact not_isUpper_of_isSlugChar hslug
  · decide

theorem IsSlug.slugify_eq_self {x : Text} (h : IsSlug x) : slugify x = x := by
  obtain ⟨hchars, hpieces⟩ := isSlug_iff.1 h
  have hsplit : Text.splitWhere (fun c => !isSlugChar c) x = Text.split '-' x := by
    refine Text.splitWhere_congr fun c hc => ?_
    rcases hchars c hc with hslug | rfl
    · have hne : c ≠ '-' := by
        rintro rfl
        exact absurd hslug (by decide)
      simp [hslug, hne]
    · decide
  rw [slugify, h.lower_eq_self, hsplit, List.filter_eq_self.2, Text.joinWith_split]
  intro piece hp
  simpa using fun e : piece = [] => hpieces (e ▸ hp)

/-- Slugs are the texts that are their own slugs, the empty one apart. -/
theorem slugify_eq_self_iff {x : Text} : slugify x = x ↔ x = [] ∨ IsSlug x := by
  constructor
  · intro h
    rw [← h]
    exact slugify_eq_nil_or x
  · rintro (rfl | h)
    · rfl
    · exact h.slugify_eq_self

theorem slugify_slugify (x : Text) : slugify (slugify x) = slugify x :=
  slugify_eq_self_iff.2 (slugify_eq_nil_or x)

/-- The last part of a location is a slug. -/
theorem isSlug_slugOf (name : Text) : IsSlug (slugOf name) := by
  unfold slugOf
  split
  · decide
  · next h => exact (slugify_eq_nil_or name).resolve_left (by simpa using h)

end ApiReference
