import ApiReference.Document.Linking

/-! # Names in the order in which they are tried

The names of a reference map are sorted by a total order: longer names first, names of one length by
their code points.  So the name that is found for a span is the first one in that order among all
names that will do (`findSome?_namesLongestFirst_eq_some_iff`), whatever entries the map was made of. -/

namespace ApiReference

/-! ### The order -/

theorem lexLe_cons (c d : Char) (x y : Text) :
    Text.lexLe (c :: x) (d :: y) = true ↔ c.toNat < d.toNat ∨ c = d ∧ Text.lexLe x y = true := by
  simp [Text.lexLe]

theorem toNat_inj {c d : Char} (h : c.toNat = d.toNat) : c = d :=
  Char.ext (UInt32.toNat_inj.1 h)

theorem lexLe_trans : ∀ {x y z : Text}, Text.lexLe x y = true → Text.lexLe y z = true →
    Text.lexLe x z = true
  | [], _, _, _, _ => rfl
  | _ :: _, [], _, h, _ => by cases h
  | _ :: _, _ :: _, [], _, h => by cases h
  | a :: x, b :: y, c :: z, hxy, hyz => by
      rw [lexLe_cons] at hxy hyz ⊢
      rcases hxy with hab | ⟨rfl, hxy⟩
      · rcases hyz with hbc | ⟨rfl, _⟩
        · exact .inl (Nat.lt_trans hab hbc)
        · exact .inl hab
      · rcases hyz with hbc | ⟨rfl, hyz⟩
        · exact .inl hbc
        · exact .inr ⟨rfl, lexLe_trans hxy hyz⟩

theorem lexLe_total : ∀ x y : Text, Text.lexLe x y = true ∨ Text.lexLe y x = true
  | [], _ => .inl rfl
  | _ :: _, [] => .inr rfl
  | a :: x, b :: y => by
      rw [lexLe_cons, lexLe_cons]
      rcases Nat.lt_trichotomy a.toNat b.toNat with h | h | h
      · exact .inl (.inl h)
      · have e : a = b := toNat_inj h
        rcases lexLe_total x y with hxy | hyx
        · exact .inl (.inr ⟨e, hxy⟩)
        · exact .inr (.inr ⟨e.symm, hyx⟩)
      · exact .inr (.inl h)

theorem lexLe_antisymm : ∀ {x y : Text}, Text.lexLe x y = true → Text.lexLe y x = true → x = y
  | [], [], _, _ => rfl
  | [], _ :: _, _, h => by cases h
  | _ :: _, [], h, _ => by cases h
  | a :: x, b :: y, hxy, hyx => by
      rw [lexLe_cons] at hxy hyx
      rcases hxy with hab | ⟨rfl, hxy⟩
      · rcases hyx with hba | ⟨rfl, _⟩ <;> omega
      · rcases hyx with hba | ⟨_, hyx⟩
        · omega
        · rw [lexLe_antisymm hxy hyx]

theorem longerFirst_iff {a b : Text} :
    longerFirst a b = true ↔ b.length < a.length ∨ a.length = b.length ∧ Text.lexLe a b = true := by
  simp [longerFirst]

theorem longerFirst_trans {a b c : Text} (hab : longerFirst a b = true)
    (hbc : longerFirst b c = true) : longerFirst a c = true := by
  rw [longerFirst_iff] at hab hbc ⊢
  rcases hab with hab | ⟨hab, h1⟩
  · rcases hbc with hbc | ⟨hbc, _⟩
    · exact .inl (Nat.lt_trans hbc hab)
    · exact .inl (hbc ▸ hab)
  · rcases hbc with hbc | ⟨hbc, h2⟩
    · exact .inl (hab ▸ hbc)
    · exact .inr ⟨hab.trans hbc, lexLe_trans h1 h2⟩

theorem longerFirst_total (a b : Text) : longerFirst a b = true ∨ longerFirst b a = true := by
  rw [longerFirst_iff, longerFirst_iff]
  rcases Nat.lt_trichotomy a.length b.length with h | h | h
  · exact .inr (.inl h)
  · rcases lexLe_total a b with hab | hba
    · exact .inl (.inr ⟨h, hab⟩)
    · exact .inr (.inr ⟨h.symm, hba⟩)
  · exact .inl (.inl h)

theorem longerFirst_antisymm {a b : Text} (hab : longerFirst a b = true)
    (hba : longerFirst b a = true) : a = b := by
  rw [longerFirst_iff] at hab hba
  rcases hab with hab | ⟨_, hab⟩
  · omega
  · rcases hba with hba | ⟨_, hba⟩
    · omega
    · exact lexLe_antisymm hab hba

/-! ### Names that lead somewhere -/

namespace ReferenceMap

variable {refs : ReferenceMap} {name : Text}

theorem pairwise_namesLongestFirst (refs : ReferenceMap) :
    refs.namesLongestFirst.Pairwise fun a b => longerFirst a b = true := by
  have htotal (a b : Text) : (longerFirst a b || longerFirst b a) = true := by
    rw [Bool.or_eq_true]
    exact longerFirst_total a b
  exact @List.pairwise_mergeSort Text longerFirst (fun _ _ _ => longerFirst_trans) htotal refs.names

/-- Names that are visited in their order are tried as they are visited. -/
theorem linkTable_of_pairwise (h : refs.names.Pairwise fun a b => longerFirst a b = true) :
    refs.linkTable = refs.names.map fun name => (name, refs.href? name) := by
  rw [linkTable, namesLongestFirst, List.mergeSort_of_pairwise h]

theorem mem_names_iff : name ∈ refs.names ↔ ∃ entry ∈ refs.entries, entry.name = name := by
  rw [names, List.mem_eraseDups, List.mem_map]

theorem isSome_location?_iff : (refs.location? name).isSome = true ↔ name ∈ refs.names := by
  rw [mem_names_iff, location?, Option.isSome_map, List.find?_isSome]
  simp

/-- The names are those that lead somewhere. -/
theorem isSome_href?_iff : (refs.href? name).isSome = true ↔ name ∈ refs.namesLongestFirst := by
  rw [href?, Option.isSome_map, isSome_location?_iff, namesLongestFirst, List.mem_mergeSort]

/-- An address is never empty. -/
theorem isEmpty_of_href? {href : Text} (h : refs.href? name = some href) : href.isEmpty = false := by
  obtain ⟨location, _, rfl⟩ := Option.map_eq_some_iff.1 h
  unfold urlFor addressStart
  split <;> rfl

/-! ### The first name that will do -/

/-- What is found for the names in their order is what the first name gives that gives something. -/
theorem findSome?_namesLongestFirst_eq_some_iff {α : Type} {f : Text → Option α} {a : α} :
    refs.namesLongestFirst.findSome? f = some a ↔
      ∃ name, (refs.href? name).isSome = true ∧ f name = some a ∧
        ∀ other, (refs.href? other).isSome = true → (f other).isSome = true →
          longerFirst name other = true := by
  have hfirst {a : α} (h : refs.namesLongestFirst.findSome? f = some a) :
      ∃ name, (refs.href? name).isSome = true ∧ f name = some a ∧
        ∀ other, (refs.href? other).isSome = true → (f other).isSome = true →
          longerFirst name other = true := by
    obtain ⟨before, name, after, e, hname, hbefore⟩ := List.findSome?_eq_some_iff.1 h
    have hsorted := refs.pairwise_namesLongestFirst
    rw [e, List.pairwise_append, List.pairwise_cons] at hsorted
    refine ⟨name, isSome_href?_iff.2 (by simp [e]), hname, fun other hmapped hother => ?_⟩
    rw [isSome_href?_iff, e, List.mem_append, List.mem_cons] at hmapped
    rcases hmapped with hm | rfl | hm
    · rw [hbefore other hm] at hother
      cases hother
    · rcases longerFirst_total other other with h | h <;> exact h
    · exact hsorted.2.1.1 other hm
  refine ⟨hfirst, ?_⟩
  rintro ⟨name, hmapped, hname, hmin⟩
  cases e : refs.namesLongestFirst.findSome? f with
  | none =>
      have hnone := List.findSome?_eq_none_iff.1 e name (isSome_href?_iff.1 hmapped)
      rw [hname] at hnone
      cases hnone
  | some b =>
      obtain ⟨name', hmapped', hname', hmin'⟩ := hfirst e
      have heq : name = name' := longerFirst_antisymm
        (hmin name' hmapped' (by rw [hname']; rfl)) (hmin' name hmapped (by rw [hname]; rfl))
      rw [← hname', ← heq, hname]

theorem findSome?_namesLongestFirst_eq_none_iff {α : Type} {f : Text → Option α} :
    refs.namesLongestFirst.findSome? f = none ↔
      ∀ name, (refs.href? name).isSome = true → f name = none := by
  simp only [List.findSome?_eq_none_iff, isSome_href?_iff]

end ReferenceMap

end ApiReference
