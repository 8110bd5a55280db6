import ApiReference.Page.Comment
import ApiReference.Proofs.CallSentences
import ApiReference.Proofs.FencedLines
import ApiReference.Proofs.NothingToLink

/-! # Example code

Which examples of a comment are read back as what they are written as, one code block.

Between the fences of its block, the code is read up to the first fence that it holds itself
(`readsAsCode_code_iff`), and it leaves code open after the block exactly if it does so on its own
(`leavesFenceOpen_code_iff`).  Code that was cut out between two marks holds no fence
(`not_holdsFence_of_mem`).  A text that no code can be cut out of is an example as a whole, together
with the fences that it holds all the same: one that is never closed, or one on a single line.
`readBack_of_commentBlocks` says so for all examples of a comment. -/

namespace ApiReference

/-- One of the lines of the text is a fence. -/
def HoldsFence (x : Text) : Prop := ∃ line ∈ Text.lines x.unifyLineEnds, isFence line = true

instance (x : Text) : Decidable (HoldsFence x) :=
  inferInstanceAs (Decidable (∃ line ∈ Text.lines x.unifyLineEnds, isFence line = true))

/-- Code is open after the lines of the text. -/
def LeavesFenceOpen (x : Text) : Prop :=
  inFenceAfter false (Text.lines x.unifyLineEnds) = true

instance (x : Text) : Decidable (LeavesFenceOpen x) := inferInstanceAs (Decidable (_ = true))

/-- The text is read as one block, which is code. -/
def ReadsAsCode (x : Text) : Prop := (Document.blocksOf x).map Block.kind = [.code]

instance (x : Text) : Decidable (ReadsAsCode x) := inferInstanceAs (Decidable (_ = _))

/-! ### Parts of lines -/

namespace Text

theorem infix_strip (x : Text) : x.strip <:+: x :=
  (isPrefix_stripEnd x.stripStart).isInfix.trans (List.dropWhile_suffix _).isInfix

/-- Unifying line ends changes no part of a line. -/
theorem prefix_of_unifyLineEnds {needle x : Text} (hn : '\n' ∉ needle)
    (h : needle <+: unifyLineEnds x) : needle <+: x := by
  induction needle generalizing x with
  | nil => exact List.nil_prefix
  | cons n needle ih =>
      rw [List.mem_cons, not_or] at hn
      revert h
      fun_cases unifyLineEnds x with
      | case1 => exact fun h => absurd h (by simp)
      | case2 rest => exact fun h => absurd (List.cons_prefix_cons.1 h).1.symm hn.1
      | case3 c rest _ =>
          intro h
          obtain ⟨hc, hrest⟩ := List.cons_prefix_cons.1 h
          split at hc
          · exact absurd hc.symm hn.1
          · exact List.cons_prefix_cons.2 ⟨hc, ih hn.2 hrest⟩

theorem infix_of_unifyLineEnds {needle x : Text} (hn : '\n' ∉ needle)
    (h : needle <:+: unifyLineEnds x) : needle <:+: x := by
  fun_induction unifyLineEnds x with
  | case1 => exact h
  | case2 rest ih =>
      rcases List.infix_cons_iff.1 h with hstart | hrest
      · cases needle with
        | nil => exact List.nil_infix
        | cons n needle =>
            exact absurd (List.cons_prefix_cons.1 hstart).1 fun e => hn (e ▸ List.mem_cons_self)
      · exact (ih hrest).trans (List.suffix_append ['\r', '\n'] rest).isInfix
  | case3 c rest hc ih =>
      rcases List.infix_cons_iff.1 h with hstart | hrest
      · rw [← unifyLineEnds.eq_3 _ _ hc] at hstart
        exact (prefix_of_unifyLineEnds hn hstart).isInfix
      · exact (ih hrest).trans (List.suffix_cons c rest).isInfix

theorem getLast?_stripEnd (x : Text) : x.stripEnd.getLast? ≠ some '\r' := by
  intro h
  have hne : x.stripEnd ≠ [] := by
    rintro e
    rw [e] at h
    cases h
  obtain ⟨start, c, e, hc⟩ := exists_eq_concat_of_stripEnd (stripEnd_stripEnd x) hne
  rw [hc, List.getLast?_concat, Option.some_inj] at h
  rw [h] at e
  exact absurd e (by decide)

end Text

/-! ### Fences among lines -/

theorem inFenceAfter_true (lines : List Text) :
    inFenceAfter true lines = !inFenceAfter false lines := by
  induction lines with
  | nil => rfl
  | cons line lines ih =>
      rw [inFenceAfter, inFenceAfter]
      cases isFence line
      · exact ih
      · simp [ih]

/-- A text with a fence among its lines holds the mark of one. -/
theorem HoldsFence.infix {x : Text} (h : HoldsFence x) : fenceMarks <:+: x := by
  obtain ⟨line, hm, hf⟩ := h
  have hline : fenceMarks <:+: line :=
    (isFence_iff.1 hf).isInfix.trans (List.dropWhile_suffix _).isInfix
  exact Text.infix_of_unifyLineEnds (by decide) (hline.trans (Text.infix_of_mem_lines hm))

theorem LeavesFenceOpen.holdsFence {x : Text} (h : LeavesFenceOpen x) : HoldsFence x := by
  by_contra hfree
  have hlines : ∀ line ∈ Text.lines x.unifyLineEnds, isFence line = false := by
    simpa [HoldsFence] using hfree
  have hopen := (marksOfLines_code hlines).2
  have hclosed : inFenceAfter false (Text.lines x.unifyLineEnds) = false := by
    simpa [inFenceAfter_true] using hopen
  exact absurd h (by simp [LeavesFenceOpen, hclosed])

/-! ### Lines between two fences -/

theorem blocksOfLines_concat_fence (held : Pending) (lines : List Text) {last : Text}
    (h : isFence last = true) : blocksOfLines held (lines ++ [last]) ≠ [] := by
  obtain ⟨blocks, left, -, hblocks⟩ := exists_blocksOfLines_append held lines
  rw [hblocks]
  cases left with
  | paragraph held =>
      rw [blocksOfLines_openFence h]
      simp [blocksOfLines]
  | fence held =>
      rw [blocksOfLines_closeFence h]
      simp

/-- Lines between two fences are one code block if and only if no fence is among them. -/
theorem kinds_blocksOfLines_iff {first last : Text} (hfirst : isFence first = true)
    (hlast : isFence last = true) (code : List Text) :
    (blocksOfLines (.paragraph []) (first :: code ++ [last])).map Block.kind = [.code] ↔
      ¬ ∃ line ∈ code, isFence line = true := by
  constructor
  · rintro h ⟨line, hm, hf⟩
    -- the first fence ends the code, and the last line makes a block of its own
    obtain ⟨inner, before, after, hbefore, hinner, rfl, -⟩ := List.exists_of_eraseP hm hf
    have hread : blocksOfLines (.paragraph []) (first :: before ++ inner :: (after ++ [last])) = _ :=
      blocksOfLines_fenced hfirst hinner (fun l hl => by simpa using hbefore l hl) [] _
    rw [List.cons_append, List.append_assoc, List.cons_append, ← List.cons_append, hread] at h
    obtain ⟨-, hrest⟩ : _ ∧ blocksOfLines (.paragraph []) (after ++ [last]) = [] := by
      simpa [paragraphOf] using h
    exact blocksOfLines_concat_fence (.paragraph []) after hlast hrest
  · intro h
    have hcode : ∀ line ∈ code, isFence line = false := by simpa using h
    rw [blocksOfLines_fenced hfirst hlast hcode]
    rfl

/-! ### Code blocks -/

theorem lines_code {language : Text} (hl : language.IsOneLine) (code : Text) :
    Text.lines (Text.unifyLineEnds (Block.code code language).text) =
      (fenceMarks ++ language) :: Text.lines code.stripEnd.unifyLineEnds ++ [fenceMarks] := by
  have hfirst : Text.IsOneLine (fenceMarks ++ language) := Text.IsOneLine.append (by decide) hl
  have hend : (fenceMarks ++ language).getLast? ≠ some '\r' := fun e =>
    hfirst.2 (List.mem_of_getLast? e)
  have hlast : Text.lines (Text.unifyLineEnds fenceMarks) = [fenceMarks] := by decide
  have htext : (Block.code code language).text =
      (fenceMarks ++ language) ++ '\n' :: (code.stripEnd ++ '\n' :: fenceMarks) := by
    simp [Block.code, fenceMarks]
  rw [htext, Text.lines_unifyLineEnds_append hend, Text.unifyLineEnds_of_not_mem hfirst.2,
    Text.lines_of_not_mem hfirst.1, Text.lines_unifyLineEnds_append (Text.getLast?_stripEnd code),
    hlast]
  rfl

theorem isFence_fenceMarks_append (x : Text) : isFence (fenceMarks ++ x) = true :=
  isFence_iff.2 (List.prefix_append fenceMarks x)

theorem readsAsCode_code_iff {language code : Text} (hl : language.IsOneLine)
    (hc : code.stripEnd = code) :
    ReadsAsCode (Block.code code language).text ↔ ¬ HoldsFence code := by
  have hfirst := isFence_fenceMarks_append language
  rw [ReadsAsCode, Document.blocksOf, lines_code hl, hc, List.cons_append, blocksOfAll,
    isRule_of_isFence hfirst]
  exact kinds_blocksOfLines_iff hfirst (isFence_fenceMarks_append []) _

theorem leavesFenceOpen_code_iff {language code : Text} (hl : language.IsOneLine)
    (hc : code.stripEnd = code) :
    LeavesFenceOpen (Block.code code language).text ↔ LeavesFenceOpen code := by
  have hlast : isFence fenceMarks = true := isFence_fenceMarks_append []
  rw [LeavesFenceOpen, LeavesFenceOpen, lines_code hl, hc, List.cons_append, inFenceAfter,
    isFence_fenceMarks_append, inFenceAfter_append, Bool.false_xor, inFenceAfter_true]
  simp [inFenceAfter, hlast]

/-! ### Title case -/

theorem leadsFrom_titleRuns : ∀ run ∈ titleRuns, LeadsFrom 0x41 run := by
  decide +kernel

/-- A character of ASCII stays or becomes a capital letter. -/
theorem toUpper_eq_or (c : Char) : c.toUpper = c ∨ 0x41 ≤ c.toUpper.toNat := by
  unfold Char.toUpper
  split
  · next h =>
    right
    rw [UInt32.le_iff_toNat_le, UInt32.le_iff_toNat_le] at h
    have hlow : 0x61 ≤ c.val.toNat := h.1
    have hhigh : c.val.toNat ≤ 0x7a := h.2
    have hshift : ('A'.val - 'a'.val).toNat = 0xffffffe0 := rfl
    change 0x41 ≤ (c.val + ('A'.val - 'a'.val)).toNat
    rw [UInt32.toNat_add, hshift]
    omega
  · exact .inl rfl

theorem mem_titleChar {c d : Char} (h : d ∈ titleChar c) : d = c ∨ 0x41 ≤ d.toNat := by
  unfold titleChar at h
  split at h
  · rw [List.mem_singleton.1 h]
    exact toUpper_eq_or c
  · split at h
    · next image hfound =>
      have htable : (titleExpansions.all fun entry =>
          entry.2.all fun n => 0x41 ≤ (Char.ofNat n).toNat) = true := by
        decide +kernel
      obtain ⟨before, more, e, -⟩ := List.lookup_eq_some_iff.1 hfound
      have hm : (c.toNat, image) ∈ titleExpansions := by
        rw [e]
        exact List.mem_append_right _ List.mem_cons_self
      have himage := List.all_eq_true.1 htable _ hm
      obtain ⟨n, hn, rfl⟩ := List.mem_map.1 h
      exact .inr (of_decide_eq_true (List.all_eq_true.1 himage n hn))
    · rw [List.mem_singleton.1 h]
      exact shifted_eq_or_of_leadsFrom leadsFrom_titleRuns c

/-- Capitalizing brings in no sign of ASCII but letters and what comes after the capitals. -/
theorem Text.mem_capitalize {x : Text} {d : Char} (h : d ∈ x.capitalize) :
    d ∈ x ∨ 0x41 ≤ d.toNat := by
  cases x with
  | nil => cases h
  | cons c x =>
      rw [Text.capitalize, List.mem_append] at h
      rcases h with h | h
      · rcases mem_titleChar h with rfl | hletter
        · exact .inl List.mem_cons_self
        · exact .inr hletter
      · rcases mem_lowerFrom h with hm | hletter
        · exact .inl (List.mem_cons_of_mem _ hm)
        · exact .inr (by omega)

theorem Text.IsOneLine.capitalize {x : Text} (h : x.IsOneLine) : x.capitalize.IsOneLine :=
  ⟨fun hm => (Text.mem_capitalize hm).elim h.1 (by decide),
    fun hm => (Text.mem_capitalize hm).elim h.2 (by decide)⟩

/-! ### Finding examples -/

/-- The language of an example is one line, and its code ends in no blank. -/
structure Example.IsTidy (one : Example) : Prop where
  language : one.language.IsOneLine
  code : one.code.stripEnd = one.code

/-- The code of a fence is tidy and holds no mark of another fence. -/
theorem isTidy_of_fenceBody? {x after : Text} {one : Example}
    (h : fenceBody? x = some (one, after)) : one.IsTidy ∧ ¬ fenceMarks <:+: one.code := by
  unfold fenceBody? at h
  split at h
  · next c body _ =>
    obtain ⟨⟨code, rest⟩, hcut, e⟩ := Option.map_eq_some_iff.1 h
    obtain ⟨rfl, rfl⟩ := Prod.mk.inj e
    refine ⟨⟨?_, Text.stripEnd_strip code⟩, fun hmark => ?_⟩
    · dsimp only
      split
      · decide
      · exact isOneLine_of_isWordChar fun c => List.mem_takeWhile_imp
    · -- a mark in the code would have ended it
      obtain ⟨start, more, e⟩ := hmark.trans (Text.infix_strip code)
      obtain ⟨hbody, hmin⟩ := Text.cutAt?_eq_some hcut
      have hle : code.length ≤ start.length := by
        refine hmin start (more ++ (fenceMark ++ rest)) ?_
        rw [hbody, ← e]
        simp [fenceMark, fenceMarks]
      have hlen := congrArg List.length e
      simp only [List.length_append, fenceMarks, List.length_cons] at hlen
      omega
  · cases h

theorem isTidy_of_mem_fencedExamples {x : Text} {one : Example} (h : one ∈ fencedExamples x) :
    one.IsTidy ∧ ¬ fenceMarks <:+: one.code := by
  fun_induction fencedExamples x with
  | case1 => cases h
  | case2 c rest found after hfound ih =>
      rcases List.mem_cons.1 h with rfl | h
      · obtain ⟨body, -, hbody⟩ := Option.bind_eq_some_iff.1 hfound
        exact isTidy_of_fenceBody? hbody
      · exact ih h
  | case3 c rest hfound ih => exact ih h

theorem not_holdsFence_of_mem {x : Text} {one : Example} (h : one ∈ fencedExamples x) :
    ¬ HoldsFence one.code :=
  fun hfence => (isTidy_of_mem_fencedExamples h).2 hfence.infix

/-- An example of a text is fenced code of it, or all of it. -/
theorem mem_examplesOf {x : Text} {one : Example} (h : one ∈ examplesOf x) :
    one ∈ fencedExamples x ∨ fencedExamples x = [] ∧ one = ⟨defaultLanguage, x.strip⟩ := by
  unfold examplesOf at h
  split at h
  · next hnone =>
    split at h
    · cases h
    · exact .inr ⟨hnone, List.mem_singleton.1 h⟩
  · exact .inl h

theorem isTidy_of_mem_examplesOf {x : Text} {one : Example} (h : one ∈ examplesOf x) :
    one.IsTidy := by
  rcases mem_examplesOf h with hfound | ⟨-, rfl⟩
  · exact (isTidy_of_mem_fencedExamples hfound).1
  · have hlanguage : defaultLanguage.IsOneLine := by decide
    exact ⟨hlanguage, Text.stripEnd_strip x⟩

/-! ### Reading examples back -/

/-- How the code block of an example is read that was found in a text. -/
structure Example.ReadBack (x : Text) (one : Example) (block : Block) : Prop where
  shows : ∃ label, block = Block.code one.code (one.language ++ label)
  readsAsCode_iff : ReadsAsCode block.text ↔ fencedExamples x ≠ [] ∨ ¬ HoldsFence x.strip
  leavesFenceOpen_iff :
    LeavesFenceOpen block.text ↔ fencedExamples x = [] ∧ LeavesFenceOpen x.strip

theorem readBack_code {x : Text} {one : Example} (h : one ∈ examplesOf x) {label : Text}
    (hl : label.IsOneLine) : one.ReadBack x (Block.code one.code (one.language ++ label)) := by
  obtain ⟨hlanguage, hcode⟩ := isTidy_of_mem_examplesOf h
  refine ⟨⟨label, rfl⟩, ?_, ?_⟩
  · rw [readsAsCode_code_iff (hlanguage.append hl) hcode]
    rcases mem_examplesOf h with hfound | ⟨hnone, rfl⟩
    · exact iff_of_true (not_holdsFence_of_mem hfound) (.inl (List.ne_nil_of_mem hfound))
    · simp [hnone]
  · rw [leavesFenceOpen_code_iff (hlanguage.append hl) hcode]
    rcases mem_examplesOf h with hfound | ⟨hnone, rfl⟩
    · refine iff_of_false (fun hopen => not_holdsFence_of_mem hfound hopen.holdsFence) fun hx => ?_
      exact List.ne_nil_of_mem hfound hx.1
    · simp [hnone]

/-- The code among the blocks of examples shows one example after another. -/
theorem codeOf_exampleBlocks (found : List Example) :
    ∃ label : Example → Text, (∀ one, one.language.IsOneLine → (label one).IsOneLine) ∧
      (exampleBlocks found).filter (fun block => block.kind == .code) =
        found.map fun one => Block.code one.code (one.language ++ label one) := by
  have hcode (code language : Text) : ((Block.code code language).kind == .code) = true := rfl
  have hnone : Text.IsOneLine [] := by decide
  match found with
  | [] => exact ⟨fun _ => [], fun _ _ => hnone, rfl⟩
  | [only] => exact ⟨fun _ => [], fun _ _ => hnone, by simp [exampleBlocks, hcode]⟩
  | first :: second :: more =>
      refine ⟨fun one => ' ' :: one.language.capitalize, fun one h => ?_, ?_⟩
      · exact Text.IsOneLine.append (x := [' ']) (by decide) h.capitalize
      · simp [exampleBlocks, Fragment.codeGroup, Fragment.wrap, Block.openTag, Block.closeTag,
          List.filter_map, Function.comp_def, hcode]

/-- The examples of a comment, each with the text that it was found in. -/
def Comment.foundExamples (comment : Comment) : List (Text × Example) :=
  comment.examples.flatMap fun x => (examplesOf x).map fun one => (x, one)

/-- After the callouts of a comment comes one code block for each example.  It is read back as one
code block unless its text has no fenced code but fences all the same, and it leaves code open
after it exactly if these fences are odd in number. -/
theorem readBack_of_commentBlocks (comment : Comment) :
    ∃ shown, commentBlocks comment = calloutBlocks "info" comment.remarks ++
        calloutBlocks "warning" comment.warnings ++ calloutBlocks "note" comment.notes ++ shown ∧
      List.Forall₂ (fun found block => found.2.ReadBack found.1 block) comment.foundExamples
        (shown.filter fun block => block.kind == .code) := by
  obtain ⟨label, hlabel, hcode⟩ := codeOf_exampleBlocks (comment.examples.flatMap examplesOf)
  have hfound : comment.examples.flatMap examplesOf = comment.foundExamples.map Prod.snd := by
    simp [Comment.foundExamples, List.map_flatMap, Function.comp_def]
  refine ⟨_, rfl, ?_⟩
  rw [hcode, hfound, List.map_map, List.forall₂_map_right_iff, List.forall₂_same]
  intro found hm
  obtain ⟨x, -, hx⟩ := List.mem_flatMap.1 hm
  obtain ⟨one, hone, rfl⟩ := List.mem_map.1 hx
  exact readBack_code hone (hlabel one (isTidy_of_mem_examplesOf hone).language)

/-- A text with a fence on a single line is an example as a whole, and not read back. -/
example : examplesOf "```npm install```" = [⟨defaultLanguage, "```npm install```"⟩] ∧
    ¬ ReadsAsCode (Block.code "```npm install```" defaultLanguage).text := by
  decide +kernel

end ApiReference
