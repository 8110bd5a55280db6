import ApiReference.Proofs.Lines
import ApiReference.Text.Digit

/-! # Whole numbers in decimal digits

A text of decimal digits of ASCII, perhaps after a minus sign, is read as a whole number of base ten,
unless there are more digits than the limit allows (`isSome_wholeWithin?_digits`). -/

namespace ApiReference

section

variable {x : Text} (h : ∀ c ∈ x, c.isDigit = true)

theorem toNat_of_isDigit {c : Char} (h : c.isDigit = true) : 0x30 ≤ c.toNat ∧ c.toNat ≤ 0x39 := by
  simp only [Char.isDigit, Bool.and_eq_true, decide_eq_true_eq] at h
  exact ⟨UInt32.le_iff_toNat_le.1 h.1, UInt32.le_iff_toNat_le.1 h.2⟩

theorem isNumberBlank_of_isDigit {c : Char} (h : c.isDigit = true) : isNumberBlank c = false := by
  have hrange := toNat_of_isDigit h
  simp only [isNumberBlank, isBlank, Bool.and_eq_false_iff, Bool.or_eq_false_iff,
    decide_eq_false_iff_not, beq_eq_false_iff_ne]
  omega

theorem trimWhile_of_forall {p : Char → Bool} (h : ∀ c ∈ x, p c = false) :
    Text.trimWhile p x = x := by
  have hstart : x.dropWhile p = x := by
    cases x with
    | nil => rfl
    | cons c x => rw [List.dropWhile_cons_of_neg (by simp [h c List.mem_cons_self])]
  rw [Text.trimWhile, hstart, Text.dropEndWhile_eq_rdropWhile, List.rdropWhile_eq_self_iff]
  intro hne
  simp [h _ (List.getLast_mem hne)]

include h

theorem withPlainDigits_digits : withPlainDigits x = x := by
  have hchar : ∀ c ∈ x, ((digitValue? c).map fun d => Char.ofNat (0x30 + d)).getD c = c := by
    intro c hc
    have hrange := toNat_of_isDigit (h c hc)
    have hsum : 0x30 + (c.toNat - 0x30) = c.toNat := by omega
    rw [digitValue?, if_pos (h c hc), Option.map_some, Option.getD_some, hsum, Char.ofNat_toNat]
  rw [withPlainDigits, List.map_congr_left hchar, List.map_id']

theorem digitIn?_digit {c : Char} (hc : c ∈ x) : digitIn? 10 c = some (c.toNat - 0x30) := by
  have hrange := toNat_of_isDigit (h c hc)
  rw [digitIn?, if_pos (h c hc)]
  exact Option.filter_some_pos (by simp; omega)

theorem isSome_moreDigits?_digits (value : Nat) : (moreDigits? 10 value x).isSome = true := by
  induction x generalizing value with
  | nil => rfl
  | cons c x ih =>
      have hc : c ≠ '_' := by
        rintro rfl
        exact absurd (h _ List.mem_cons_self) (by decide)
      rw [moreDigits?.eq_3 _ _ _ _ fun _ _ e _ => hc e, digitIn?_digit h List.mem_cons_self,
        Option.bind_some]
      exact ih (fun d hd => h d (List.mem_cons_of_mem _ hd)) _

theorem isSome_natural?_digits (hne : x ≠ []) : (natural? 10 x).isSome = true := by
  cases x with
  | nil => exact absurd rfl hne
  | cons c x =>
      rw [natural?, digitIn?_digit h List.mem_cons_self, Option.bind_some]
      exact isSome_moreDigits?_digits (fun d hd => h d (List.mem_cons_of_mem _ hd)) _

theorem filter_underscores_digits : x.filter (fun c => c != '_') = x := by
  rw [List.filter_eq_self]
  intro c hc
  have hne : c ≠ '_' := by
    rintro rfl
    exact absurd (h _ hc) (by decide)
  simpa using hne

end

/-- No mark stands for base ten. -/
theorem dropBaseMark_ten (x : Text) : dropBaseMark 10 x = x := by
  have hmark (c : Char) : (baseMarks.lookup c == some 10) = false := by
    rw [baseMarks, List.lookup_cons, List.lookup_cons, List.lookup_cons]
    cases c == 'b' <;> cases c == 'o' <;> cases c == 'x' <;> rfl
  unfold dropBaseMark
  split
  · rw [hmark, if_neg Bool.false_ne_true]
  · rfl

/-- Decimal digits are read if and only if they are no more than the limit allows. -/
theorem isSome_naturalWithin?_digits (most : Option Nat) {x : Text}
    (h : ∀ c ∈ x, c.isDigit = true) (hne : x ≠ []) :
    (naturalWithin? most 10 x).isSome = true ↔ ∀ n ∈ most, x.length ≤ n := by
  have hlimit : (most.any fun n => n < x.length) = true ↔ ¬ ∀ n ∈ most, x.length ≤ n := by
    cases most <;> simp
  rw [naturalWithin?, filter_underscores_digits h, dropBaseMark_ten, beq_self_eq_true,
    Bool.true_and]
  split
  · next hmore => exact iff_of_false Bool.false_ne_true (hlimit.1 hmore)
  · next hfew => exact iff_of_true (isSome_natural?_digits h hne) (not_not.1 (mt hlimit.2 hfew))

/-- Decimal digits, perhaps after a minus sign, are read as a whole number if and only if they are no
more than the limit allows. -/
theorem isSome_wholeWithin?_digits (most : Option Nat) {x : Text} (h : ∀ c ∈ x, c.isDigit = true)
    (hne : x ≠ []) {sign : Text} (hsign : sign = [] ∨ sign = ['-']) :
    (wholeWithin? most 10 (sign ++ x)).isSome = true ↔ ∀ n ∈ most, x.length ≤ n := by
  have htrim : Text.trimWhile isNumberBlank (sign ++ x) = sign ++ x := by
    refine trimWhile_of_forall fun c hc => ?_
    rcases List.mem_append.1 hc with hc | hc
    · rcases hsign with rfl | rfl
      · exact absurd hc List.not_mem_nil
      · rw [List.mem_singleton.1 hc]
        decide
    · exact isNumberBlank_of_isDigit (h c hc)
  have hplain : withPlainDigits (sign ++ x) = sign ++ x := by
    have hkept : withPlainDigits sign = sign := by
      rcases hsign with rfl | rfl <;> decide
    have happend : withPlainDigits (sign ++ x) = withPlainDigits sign ++ withPlainDigits x :=
      List.map_append
    rw [happend, hkept, withPlainDigits_digits h]
  rw [← isSome_naturalWithin?_digits most h hne, wholeWithin?, htrim, hplain]
  rcases hsign with rfl | rfl
  · rw [List.nil_append]
    split
    · exact absurd (h _ List.mem_cons_self) (by decide)
    · exact absurd (h _ List.mem_cons_self) (by decide)
    · rw [Option.isSome_map]
  · show ((naturalWithin? most 10 x).map fun n => -Int.ofNat n).isSome = true ↔ _
    rw [Option.isSome_map]

end ApiReference
