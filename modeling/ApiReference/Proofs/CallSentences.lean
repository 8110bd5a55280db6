import ApiReference.Proofs.FrontmatterValues

/-! # The sentence about a function

A function without a summary is described by the sentence `Call <name> to …`.  The words after its
name are the name in lower case, which brings in no sign of markup (`Text.mem_lower`); so the
sentence is one line that nothing has to be escaped in (`Declaration.saysCall_describe`). -/

namespace ApiReference

/-! ### Lower case -/

/-- A run of the table leads to characters, all of them beyond the capital letters of ASCII. -/
def LeadsBeyondCapitals (run : Nat × Nat × Nat × Int) : Prop :=
  (0x61 : Int) ≤ run.1 + run.2.2.2 ∧
    ((run.2.1 : Int) + run.2.2.2 < 0xd800 ∨
      (0xdfff : Int) < run.1 + run.2.2.2 ∧ (run.2.1 : Int) + run.2.2.2 < 0x110000)

instance decidableLeadsBeyondCapitals (run : Nat × Nat × Nat × Int) :
    Decidable (LeadsBeyondCapitals run) :=
  inferInstanceAs (Decidable (_ ∧ _))

theorem leadsBeyondCapitals_lowerRuns : ∀ run ∈ lowerRuns, LeadsBeyondCapitals run := by
  decide +kernel

/-- A shift is that of a run that holds the number. -/
theorem shiftOf_eq_zero_or (runs : List (Nat × Nat × Nat × Int)) (n : Nat) :
    shiftOf runs n = 0 ∨ ∃ run ∈ runs, run.1 ≤ n ∧ n ≤ run.2.1 ∧ shiftOf runs n = run.2.2.2 := by
  induction runs with
  | nil => exact .inl rfl
  | cons run runs ih =>
      obtain ⟨first, last, step, shift⟩ := run
      rw [shiftOf]
      split
      · next h =>
        simp only [Bool.and_eq_true, decide_eq_true_eq] at h
        exact .inr ⟨_, List.mem_cons_self, h.1.1, h.1.2, rfl⟩
      · refine ih.imp_right fun hmore => ?_
        obtain ⟨found, hm, hfound⟩ := hmore
        exact ⟨found, List.mem_cons_of_mem _ hm, hfound⟩

/-- A character of ASCII stays or becomes a small letter. -/
theorem toLower_eq_or (c : Char) : c.toLower = c ∨ 0x61 ≤ c.toLower.toNat := by
  unfold Char.toLower
  split
  · next h =>
    right
    rw [ge_iff_le, UInt32.le_iff_toNat_le, UInt32.le_iff_toNat_le] at h
    have hlow : 0x41 ≤ c.val.toNat := h.1
    have hhigh : c.val.toNat ≤ 0x5a := h.2
    have hshift : ('a'.val - 'A'.val).toNat = 0x20 := rfl
    change 0x61 ≤ (c.val + ('a'.val - 'A'.val)).toNat
    rw [UInt32.toNat_add, hshift]
    omega
  · exact .inl rfl

/-- A run of a table leads to characters, all of them from the given one on. -/
def LeadsFrom (least : Nat) (run : Nat × Nat × Nat × Int) : Prop :=
  (least : Int) ≤ run.1 + run.2.2.2 ∧
    ((run.2.1 : Int) + run.2.2.2 < 0xd800 ∨
      (0xdfff : Int) < run.1 + run.2.2.2 ∧ (run.2.1 : Int) + run.2.2.2 < 0x110000)

instance decidableLeadsFrom (least : Nat) (run : Nat × Nat × Nat × Int) :
    Decidable (LeadsFrom least run) :=
  inferInstanceAs (Decidable (_ ∧ _))

/-- A character that is shifted by a table stays or becomes one that a run leads to. -/
theorem shifted_eq_or_of_leadsFrom {runs : List (Nat × Nat × Nat × Int)} {least : Nat}
    (hruns : ∀ run ∈ runs, LeadsFrom least run) (c : Char) :
    shifted c (shiftOf runs c.toNat) = c ∨ least ≤ (shifted c (shiftOf runs c.toNat)).toNat := by
  rcases shiftOf_eq_zero_or runs c.toNat with h | ⟨run, hm, hfirst, hlast, h⟩
  · rw [h, shifted, Int.add_zero, Int.toNat_natCast, Char.ofNat_toNat]
    exact .inl rfl
  · right
    obtain ⟨hleast, hvalid⟩ := hruns run hm
    have hchar : ((c.toNat : Int) + run.2.2.2).toNat.isValidChar := by
      unfold Nat.isValidChar
      omega
    have hsame : (shifted c run.2.2.2).toNat = ((c.toNat : Int) + run.2.2.2).toNat := by
      rw [shifted, Char.ofNat, dif_pos hchar]
      rfl
    rw [h, hsame]
    omega

theorem shifted_eq_or (c : Char) :
    shifted c (shiftOf lowerRuns c.toNat) = c ∨
      0x61 ≤ (shifted c (shiftOf lowerRuns c.toNat)).toNat :=
  shifted_eq_or_of_leadsFrom leadsBeyondCapitals_lowerRuns c

theorem mem_lowerChar {c d : Char} (h : d ∈ lowerChar c) : d = c ∨ 0x61 ≤ d.toNat := by
  unfold lowerChar at h
  split at h
  · rw [List.mem_singleton.1 h]
    exact toLower_eq_or c
  · split at h
    · rcases List.mem_pair.1 h with rfl | rfl <;> exact .inr (by decide)
    · rw [List.mem_singleton.1 h]
      exact shifted_eq_or c

theorem mem_lowerFrom {before x : Text} {d : Char} (h : d ∈ lowerFrom before x) :
    d ∈ x ∨ 0x61 ≤ d.toNat := by
  induction x generalizing before with
  | nil => cases h
  | cons c x ih =>
      rw [lowerFrom, List.mem_append] at h
      rcases h with h | h
      · split at h
        · -- a sigma of either form
          split at h <;> rw [List.mem_singleton.1 h] <;> exact .inr (by decide)
        · rcases mem_lowerChar h with rfl | hletter
          · exact .inl List.mem_cons_self
          · exact .inr hletter
      · exact (ih h).imp_left (List.mem_cons_of_mem _)

/-- Lower case brings in no sign of ASCII but small letters and what comes after them. -/
theorem Text.mem_lower {x : Text} {d : Char} (h : d ∈ x.lower) : d ∈ x ∨ 0x61 ≤ d.toNat :=
  mem_lowerFrom h

/-! ### Actions -/

namespace Wording

theorem mem_spaceCapitals {x : Text} {d : Char} (h : d ∈ spaceCapitals x) : d ∈ x ∨ d = ' ' := by
  cases x with
  | nil => cases h
  | cons c x =>
      rw [spaceCapitals, List.mem_cons, List.mem_flatMap] at h
      rcases h with rfl | ⟨e, he, hd⟩
      · exact .inl List.mem_cons_self
      · split at hd
        · rcases List.mem_cons.1 hd with rfl | hd
          · exact .inr rfl
          · exact .inl (List.mem_cons_of_mem _ (List.mem_singleton.1 hd ▸ he))
        · exact .inl (List.mem_cons_of_mem _ (List.mem_singleton.1 hd ▸ he))

theorem mem_wordsOf {name : Text} {d : Char} (h : d ∈ wordsOf name) :
    d ∈ name ∨ d = ' ' ∨ 0x61 ≤ d.toNat := by
  rcases Text.mem_lower (Text.strip_subset _ h) with h | h
  · exact (mem_spaceCapitals h).imp_right .inl
  · exact .inr (.inr h)

/-- An action holds the characters of the name, spaces and letters. -/
theorem mem_actionOf {name : Text} {d : Char} (h : d ∈ actionOf name) :
    d ∈ name ∨ d = ' ' ∨ 0x61 ≤ d.toNat := by
  unfold actionOf at h
  dsimp only at h
  split at h
  · next start verb hfound =>
    rw [List.mem_append, List.mem_cons] at h
    rcases h with h | rfl | h
    · have hverbs : (actionVerbs.all fun entry => entry.2.all fun e => 0x61 ≤ e.toNat) = true := by
        decide
      have hverb := List.all_eq_true.1 hverbs _ (List.mem_of_find?_eq_some hfound)
      exact .inr (.inr (of_decide_eq_true (List.all_eq_true.1 hverb d h)))
    · exact .inr (.inl rfl)
    · exact (mem_wordsOf h).imp_left fun hm => List.mem_of_mem_drop hm
  · exact mem_wordsOf h

end Wording

/-! ### The sentence -/

/-- The signs of markup. -/
def markupSigns : List Char :=
  ['\x60', '\x22', '\x5c', '<', '>', '\x7b', '\x7d', '(', '*', '|', '-']

/-- A character that is no blank and no sign of markup. -/
def isPlainChar (c : Char) : Bool := !isBlank c && !markupSigns.contains c

/-- A name that is written as it is everywhere: it is not empty and holds neither blanks nor signs
of markup.  Identifiers are such names. -/
structure IsPlainName (name : Text) : Prop where
  nonempty : name ≠ []
  plain : ∀ c ∈ name, isPlainChar c = true

instance (name : Text) : Decidable (IsPlainName name) :=
  decidable_of_iff (name ≠ [] ∧ name.all isPlainChar = true)
    ⟨fun h => ⟨h.1, List.all_eq_true.1 h.2⟩, fun h => ⟨h.nonempty, List.all_eq_true.2 h.plain⟩⟩

/-- A text that begins like a sentence on a call, ends in a full stop, and is one line without
quotation marks, backticks and backslashes. -/
structure SaysCall (x : Text) : Prop where
  starts : ("Call " : Text) <+: x
  stops : ∃ before, x = before ++ ['.']
  plain : ∀ c ∈ (['\x60', '\x22', '\x5c', '\n', '\r'] : Text), c ∉ x

namespace SaysCall

variable {x : Text}

theorem stripEnd_eq_self (h : SaysCall x) : x.stripEnd = x := by
  obtain ⟨before, rfl⟩ := h.stops
  exact Text.stripEnd_concat (by decide)

theorem strip_eq_self (h : SaysCall x) : x.strip = x := by
  have hend := h.stripEnd_eq_self
  obtain ⟨rest, rfl⟩ := h.starts
  exact hend

theorem isAllBlank_eq_false (h : SaysCall x) : x.isAllBlank = false := by
  obtain ⟨rest, rfl⟩ := h.starts
  rfl

/-- Nothing has to be escaped in the sentence. -/
theorem attributeValue_eq_self (h : SaysCall x) : Markup.attributeValue x = x := by
  have hchar : ∀ c ∈ x, Markup.attributeChar c = [c] := by
    intro c hc
    have hmark : c ≠ '\x22' := fun e => h.plain _ (by decide) (e ▸ hc)
    have hline : c ≠ '\n' := fun e => h.plain _ (by decide) (e ▸ hc)
    have hreturn : c ≠ '\r' := fun e => h.plain _ (by decide) (e ▸ hc)
    simp [Markup.attributeChar, hmark, hline, hreturn]
  rw [Markup.attributeValue, List.flatMap_congr hchar, List.flatMap_singleton']

/-- The full stop of the sentence is set anew. -/
theorem ensurePeriod_eq (h : SaysCall x) : Markup.ensurePeriod x =
    Text.dropEndWhile (fun c => c == '.' || c == ' ' || c == '\t') x ++ ['.'] := by
  have hprose : Markup.endsWithProse x = true := by
    have hlines : Text.lines x = [x] := Text.lines_of_not_mem (h.plain '\n' (by decide))
    rw [Markup.endsWithProse, h.strip_eq_self, hlines, List.getLast?_singleton]
    dsimp only
    rw [h.strip_eq_self]
    obtain ⟨rest, rfl⟩ := h.starts
    rfl
  have hfilled : x.isEmpty = false := by
    obtain ⟨rest, rfl⟩ := h.starts
    rfl
  have hmark {c : Char} (hc : c ≠ '.') : x.endsWith [c] = false := by
    obtain ⟨before, rfl⟩ := h.stops
    rw [Text.endsWith, Bool.eq_false_iff]
    intro hsuffix
    obtain ⟨start, e⟩ := List.isSuffixOf_iff_suffix.1 hsuffix
    exact hc (List.cons.inj (List.append_inj_right' e rfl)).1
  rw [Markup.ensurePeriod, h.strip_eq_self]
  simp [hprose, hfilled, hmark]

end SaysCall

namespace Declaration

variable {decl : Declaration}

theorem generatedDescription_of_function (hkind : decl.kind = .function) (hname : decl.name ≠ []) :
    decl.generatedDescription =
      "Call " ++ decl.name ++ " to " ++ Wording.actionOf decl.name ++ ['.'] := by
  have hfilled : decl.name.isEmpty = false := by simpa using hname
  unfold generatedDescription
  rw [hkind, hfilled]
  rfl

theorem saysCall_generatedDescription (hkind : decl.kind = .function)
    (hname : IsPlainName decl.name) : SaysCall decl.generatedDescription := by
  have hsigns : ∀ c ∈ (['\x60', '\x22', '\x5c', '\n', '\r'] : Text), c ∉ ("Call " : Text) ∧
      c ∉ (" to " : Text) ∧ c ≠ ' ' ∧ c ≠ '.' ∧ isPlainChar c = false ∧ c.toNat < 0x61 := by
    simp only [List.forall_mem_cons, List.not_mem_nil, false_imp_iff, implies_true]
    decide
  rw [generatedDescription_of_function hkind hname.nonempty]
  refine ⟨⟨decl.name ++ " to " ++ Wording.actionOf decl.name ++ ['.'], by simp⟩, ⟨_, rfl⟩, ?_⟩
  intro c hc hm
  obtain ⟨hcall, hto, hspace, hstop, hmarkup, hsmall⟩ := hsigns c hc
  have hnotName : c ∉ decl.name := fun hm => by
    rw [hname.plain c hm] at hmarkup
    cases hmarkup
  have hnotAction : c ∉ Wording.actionOf decl.name := fun hm => by
    rcases Wording.mem_actionOf hm with h | h | h
    · exact hnotName h
    · exact hspace h
    · omega
  simp only [List.mem_append, List.mem_singleton, hcall, hto, hstop, hnotName, hnotAction,
    or_self] at hm

section

variable (hkind : decl.kind = .function) (hsummary : decl.pageSummary = [])
  (hname : IsPlainName decl.name)

include hkind hsummary hname

theorem describe_of_function : decl.describe =
    Text.dropEndWhile (fun c => c == '.' || c == ' ' || c == '\t') decl.generatedDescription ++
      ['.'] := by
  rw [← (saysCall_generatedDescription hkind hname).ensurePeriod_eq, describe, hsummary]
  rfl

/-- A function without a summary is described by what can be done by calling it. -/
theorem isPrefix_describe : ("Call " ++ decl.name ++ " to" : Text) <+: decl.describe := by
  have hsplit : decl.generatedDescription = ("Call " ++ decl.name ++ " t") ++
      'o' :: (' ' :: Wording.actionOf decl.name ++ ['.']) := by
    rw [generatedDescription_of_function hkind hname.nonempty]
    simp
  rw [describe_of_function hkind hsummary hname, hsplit,
    Text.dropEndWhile_append_cons (by decide)]
  generalize Text.dropEndWhile _ (' ' :: Wording.actionOf decl.name ++ ['.']) = rest
  exact ⟨rest ++ ['.'], by simp⟩

theorem saysCall_describe : SaysCall decl.describe := by
  have hgenerated := saysCall_generatedDescription hkind hname
  have hdescribe := describe_of_function hkind hsummary hname
  refine ⟨?_, ⟨_, hdescribe⟩, ?_⟩
  · have hstarts : ("Call " : Text) <+: ("Call " ++ decl.name ++ " to" : Text) := by
      rw [List.append_assoc]
      exact List.prefix_append _ _
    exact hstarts.trans (isPrefix_describe hkind hsummary hname)
  · intro c hc hm
    rw [hdescribe, List.mem_append] at hm
    rcases hm with hm | hm
    · rw [Text.dropEndWhile_eq_rdropWhile] at hm
      exact hgenerated.plain c hc ((List.rdropWhile_prefix _ _).subset hm)
    · obtain ⟨before, e⟩ := hgenerated.stops
      exact hgenerated.plain c hc (e ▸ List.mem_append_right _ hm)

end

end Declaration

/-! ### Descriptions in the frontmatter -/

/-- The frontmatter of the layout tells descriptions as they are, if nothing has to be escaped in
them. -/
structure Layout.TellsDescription (layout : Layout) : Prop where
  tells : ∀ title description x : Text, '\n' ∉ title →
    (∀ c ∈ (['\x22', '\x5c', '\n'] : Text), c ∉ description) →
    layout.frontmatter title description = .ok x →
    valueFrom? "description" true x = some description

theorem tellsDescription_standard : Layout.standard.TellsDescription where
  tells title description x htitle hdescription h := by
    obtain rfl : Layout.standardFrontmatter title description = x := Except.ok.inj h
    have hpairs := pairsBackslashes_of_not_mem (hdescription '\x5c' (by decide))
    have hvalue := valueHere?_matterLine_of_pairs "description" (hdescription '\n' (by decide))
      ("---" : Text) hpairs
    rw [Text.escapeSign_of_not_mem (hdescription '\x22' (by decide))] at hvalue
    have htitleLine : '\n' ∉ matterLine "title" title := by
      simp [matterLine, htitle]
    rw [standardFrontmatter_eq, matterLines, Text.unlines_cons (List.cons_ne_nil _ _),
      Text.unlines_cons (List.cons_ne_nil _ _), Text.unlines_cons (List.cons_ne_nil _ _)]
    have hrule (rest : Text) : valueFrom? "description" true (("---" : Text) ++ '\n' :: rest) =
        valueFrom? "description" true rest := valueFrom?_line (by decide) rfl
    have hskipped (rest : Text) : valueFrom? "description" true
        (matterLine "title" title ++ '\n' :: rest) = valueFrom? "description" true rest :=
      valueFrom?_line htitleLine rfl
    rw [hrule, hskipped]
    exact valueFrom?_of_valueHere? hvalue

end ApiReference
