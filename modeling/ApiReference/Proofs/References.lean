import ApiReference.Proofs.Names
import ApiReference.Reference.Location
import Mathlib.Data.List.Basic
import Mathlib.Data.List.Induction

/-! # References with equal names

What a reference map makes of entries with equal names.  The last one decides where the name leads
(`ReferenceMap.location?_eq_some_iff`), the first one where the name stands among the names
(`ReferenceMap.pairwise_names`), and every later one is warned of once, together with the one before
it (`exists_places_of_duplicateWarnings`). -/

namespace ApiReference

/-! ### Where a name leads -/

theorem ReferenceMap.location?_eq_some_iff {refs : ReferenceMap} {name location : Text} :
    refs.location? name = some location ↔ ∃ before entry after,
      refs.entries = before ++ entry :: after ∧ entry.name = name ∧ entry.location = location ∧
        ∀ later ∈ after, later.name ≠ name := by
  rw [location?, Option.map_eq_some_iff]
  constructor
  · rintro ⟨entry, hfind, hlocation⟩
    obtain ⟨hname, after, before, hsplit, hafter⟩ := List.find?_eq_some_iff_append.1 hfind
    refine ⟨before.reverse, entry, after.reverse, ?_, by simpa using hname, hlocation, ?_⟩
    · rw [← List.reverse_reverse refs.entries, hsplit]
      simp
    · intro later hlater
      simpa using hafter later (List.mem_reverse.1 hlater)
  · rintro ⟨before, entry, after, hsplit, hname, hlocation, hafter⟩
    refine ⟨entry, List.find?_eq_some_iff_append.2 ⟨by simpa using hname, after.reverse,
      before.reverse, ?_, ?_⟩, hlocation⟩
    · rw [hsplit]
      simp
    · intro later hlater
      simpa using hafter later (List.mem_reverse.1 hlater)

/-! ### The names in their order -/

/-- What is left without repetitions stands in the order of its first places. -/
theorem pairwise_idxOf_eraseDups {α : Type} [BEq α] [LawfulBEq α] (items : List α) :
    items.eraseDups.Pairwise fun a b => items.idxOf a < items.idxOf b := by
  induction items using List.reverseRecOn with
  | nil => exact List.Pairwise.nil
  | append_singleton items last ih =>
      have hold : items.eraseDups.Pairwise fun a b =>
          (items ++ [last]).idxOf a < (items ++ [last]).idxOf b := by
        refine ih.imp_of_mem fun {a b} ha hb h => ?_
        rwa [List.idxOf_append_of_mem (List.mem_eraseDups.1 ha),
          List.idxOf_append_of_mem (List.mem_eraseDups.1 hb)]
      rw [List.eraseDups_append]
      by_cases hlast : last ∈ items
      · have hnone : [last].removeAll items = [] := by simp [List.removeAll, hlast]
        rw [hnone]
        simpa using hold
      · have hone : [last].removeAll items = [last] := by simp [List.removeAll, hlast]
        rw [hone, List.pairwise_append]
        refine ⟨hold, List.pairwise_singleton _ _, fun a ha b hb => ?_⟩
        have ha := List.mem_eraseDups.1 ha
        have hb : b = last := by simpa using hb
        rw [hb, List.idxOf_append_of_mem ha, List.idxOf_append_of_notMem hlast]
        exact Nat.lt_of_lt_of_le (List.idxOf_lt_length_of_mem ha) (Nat.le_add_right _ _)

namespace ReferenceMap

/-- The names stand in the order of their first entries, each of them once. -/
theorem pairwise_names (refs : ReferenceMap) : refs.names.Pairwise fun a b =>
    (refs.entries.map (·.name)).idxOf a < (refs.entries.map (·.name)).idxOf b :=
  pairwise_idxOf_eraseDups _

end ReferenceMap

/-! ### Warnings -/

/-- At a place among entries a name comes again; the last entry of that name stood at an earlier
place. -/
structure Repeats (entries : List ReferenceEntry) (earlier place : Nat)
    (before entry : ReferenceEntry) : Prop where
  before_at : entries[earlier]? = some before
  entry_at : entries[place]? = some entry
  lt : earlier < place
  name : before.name = entry.name
  latest : ∀ between, earlier < between → between < place →
    ∀ other, entries[between]? = some other → other.name ≠ entry.name

/-- The last entry of a name before an entry. -/
theorem repeats_of_find? {seen : List ReferenceEntry} {before entry : ReferenceEntry}
    (more : List ReferenceEntry)
    (h : (seen.find? fun before => before.name == entry.name) = some before) :
    ∃ earlier, Repeats (seen.reverse ++ entry :: more) earlier seen.length before entry := by
  obtain ⟨hname, newer, older, rfl, hnewer⟩ := List.find?_eq_some_iff_append.1 h
  have hall : (newer ++ before :: older).reverse ++ entry :: more =
      older.reverse ++ before :: (newer.reverse ++ entry :: more) := by
    simp
  refine ⟨older.length, ?_, ?_, ?_, by simpa using hname, fun between hlo hhi other hother => ?_⟩
  · rw [hall, List.getElem?_append_right (by simp)]
    simp
  · rw [List.getElem?_append_right (Nat.le_of_eq List.length_reverse), List.length_reverse, Nat.sub_self]
    rfl
  · simp
    omega
  · rw [hall, List.getElem?_append_right (by simpa using Nat.le_of_lt hlo)] at hother
    obtain ⟨d, rfl⟩ : ∃ d, between = older.length + 1 + d := ⟨between - older.length - 1, by omega⟩
    have hd : d < newer.length := by
      simp at hhi
      omega
    have hindex : older.length + 1 + d - older.reverse.length = d + 1 := by
      simp
      omega
    rw [hindex, List.getElem?_cons_succ, List.getElem?_append_left (by simpa using hd)] at hother
    simpa using hnewer other (List.mem_reverse.1 (List.mem_of_getElem? hother))

/-- What is warned of among entries that come after others. -/
theorem exists_places_of_seen (seen entries : List ReferenceEntry) :
    ∃ places : List Nat, places.Pairwise (· < ·) ∧
      (∀ place, place ∈ places ↔ seen.length ≤ place ∧
        ∃ entry, (seen.reverse ++ entries)[place]? = some entry ∧
          ∃ before ∈ (seen.reverse ++ entries).take place, before.name = entry.name) ∧
      List.Forall₂ (fun place warning => ∃ earlier before entry,
          Repeats (seen.reverse ++ entries) earlier place before entry ∧
            warning = LogEntry.warning "references" (duplicateMessage before entry))
        places (duplicateWarnings seen entries) := by
  induction entries generalizing seen with
  | nil =>
      refine ⟨[], List.Pairwise.nil, fun place => ⟨fun h => (by cases h), ?_⟩, .nil⟩
      rintro ⟨hle, entry, hentry, _⟩
      rw [List.append_nil] at hentry
      have hlt := (List.getElem?_eq_some_iff.1 hentry).1
      rw [List.length_reverse] at hlt
      omega
  | cons entry more ih =>
      obtain ⟨places, hsorted, hmem, hall⟩ := ih (entry :: seen)
      have hshift : (entry :: seen).reverse ++ more = seen.reverse ++ entry :: more := by simp
      rw [hshift] at hmem hall
      have hat : (seen.reverse ++ entry :: more)[seen.length]? = some entry := by
        rw [List.getElem?_append_right (by simp)]
        simp
      have htake : (seen.reverse ++ entry :: more).take seen.length = seen.reverse := by
        rw [List.take_append_of_le_length (by simp), List.take_of_length_le (by simp)]
      have hlater : ∀ place ∈ places, seen.length < place := fun place hp => ((hmem place).1 hp).1
      -- Either the entry is warned of itself, or its name did not come before.
      cases hfind : seen.find? fun before => before.name == entry.name with
      | some before =>
          obtain ⟨earlier, hrepeats⟩ := repeats_of_find? more hfind
          have hbefore : before ∈ seen := List.mem_of_find?_eq_some hfind
          refine ⟨seen.length :: places, List.pairwise_cons.2 ⟨hlater, hsorted⟩, fun place => ?_, ?_⟩
          · rw [List.mem_cons, hmem, List.length_cons]
            constructor
            · rintro (rfl | ⟨hle, hrest⟩)
              · refine ⟨Nat.le_refl _, entry, hat, before, ?_, hrepeats.name⟩
                rw [htake]
                exact List.mem_reverse.2 hbefore
              · exact ⟨by omega, hrest⟩
            · rintro ⟨hle, hrest⟩
              rcases Nat.eq_or_lt_of_le hle with rfl | hlt
              · exact .inl rfl
              · exact .inr ⟨hlt, hrest⟩
          · rw [duplicateWarnings, hfind]
            exact .cons ⟨earlier, before, entry, hrepeats, rfl⟩ hall
      | none =>
          refine ⟨places, hsorted, fun place => ?_, ?_⟩
          · rw [hmem, List.length_cons]
            refine ⟨fun ⟨hle, hrest⟩ => ⟨by omega, hrest⟩, fun ⟨hle, hrest⟩ => ⟨?_, hrest⟩⟩
            by_contra hlt
            obtain rfl : place = seen.length := by omega
            obtain ⟨entry', hentry', before, hbefore, hname⟩ := hrest
            rw [htake, List.mem_reverse] at hbefore
            obtain rfl : entry = entry' := Option.some.inj (hat.symm.trans hentry')
            exact List.find?_eq_none.1 hfind before hbefore (by simpa using hname)
          · rw [duplicateWarnings, hfind]
            exact hall

/-- There is exactly one warning for every entry whose name came before, in the order of the entries,
and it names the last entry of that name. -/
theorem exists_places_of_duplicateWarnings (entries : List ReferenceEntry) :
    ∃ places : List Nat, places.Pairwise (· < ·) ∧
      (∀ place, place ∈ places ↔ ∃ entry, entries[place]? = some entry ∧
        ∃ before ∈ entries.take place, before.name = entry.name) ∧
      List.Forall₂ (fun place warning => ∃ earlier before entry,
          Repeats entries earlier place before entry ∧
            warning = LogEntry.warning "references" (duplicateMessage before entry))
        places (duplicateWarnings [] entries) := by
  obtain ⟨places, hsorted, hmem, hall⟩ := exists_places_of_seen [] entries
  refine ⟨places, hsorted, fun place => ?_, hall⟩
  rw [hmem]
  exact and_iff_right (Nat.zero_le place)

end ApiReference
