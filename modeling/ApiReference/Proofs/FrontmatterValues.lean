import ApiReference.Proofs.EscapedSigns
import ApiReference.Proofs.PageText

/-! # Values of the frontmatter

Which titles and descriptions are read back from the frontmatter that is made with them.

Writing a value escapes its quotation marks and nothing else (`attributeValue_eq`), but reading it a
backslash keeps whatever character is next.  So a value is read up to its closing mark if its
backslashes are paired, none with a quotation mark (`quotedContent?_escapeSign`); otherwise it is
read past that mark or ends before it, and gives nothing, since the line goes on after the mark that
ends it (`RunsOn.escapeSign`).  The frontmatter tells its title, and its description, exactly if the
backslashes in it are paired (`Document.frontmatterValue?_frontmatter`). -/

namespace ApiReference

/-! ### One line -/

namespace Text

/-- The text on one line: line feeds become spaces, carriage returns are left out. -/
def onOneLine (x : Text) : Text :=
  (x.filter fun c => c ≠ '\r').map fun c => if c = '\n' then ' ' else c

theorem not_mem_onOneLine (x : Text) : '\n' ∉ x.onOneLine := by
  intro hm
  obtain ⟨c, -, hc⟩ := List.mem_map.1 hm
  split at hc
  · cases hc
  · next h => exact h hc

end Text

/-- An attribute shows its value on one line, with the quotation marks escaped. -/
theorem attributeValue_eq (x : Text) :
    Markup.attributeValue x = Text.escapeSign '\x22' x.onOneLine := by
  induction x with
  | nil => rfl
  | cons c x ih =>
      rw [Markup.attributeValue, List.flatMap_cons, ← Markup.attributeValue, ih,
        Markup.attributeChar]
      by_cases hmark : c = '\x22'
      · subst hmark
        rfl
      by_cases hline : c = '\n'
      · subst hline
        rfl
      by_cases hreturn : c = '\r'
      · subst hreturn
        rfl
      simp [Text.onOneLine, Text.escapeSign, hmark, hline, hreturn]

/-! ### Quoted values -/

/-- Every backslash, from the left, is paired with a character after it that is no quotation
mark. -/
def pairsBackslashes : Text → Bool
  | [] => true
  | ['\x5c'] => false
  | '\x5c' :: c :: rest => c != '\x22' && pairsBackslashes rest
  | _ :: rest => pairsBackslashes rest

/-- Nothing but blanks stands before the end of the line. -/
def endsLine (x : Text) : Bool :=
  (x.takeWhile isBlank).contains '\n' || (x.dropWhile isBlank).isEmpty

/-- A value that is open where the text begins is not given by it: it does not end, or its line goes
on after its end. -/
def RunsOn (x : Text) : Prop :=
  ∀ content after, quotedContent? x = some (content, after) → endsLine after = false

theorem quotedContent?_backslash {c : Char} (h : c ≠ '\n') (x : Text) :
    quotedContent? ('\x5c' :: c :: x) =
      (quotedContent? x).map fun (content, after) => ('\x5c' :: c :: content, after) := by
  rw [quotedContent?, if_neg (by simpa using h)]

theorem quotedContent?_cons {c : Char} (hmark : c ≠ '\x22') (hslash : c ≠ '\x5c') (x : Text) :
    quotedContent? (c :: x) =
      (quotedContent? x).map fun (content, after) => (c :: content, after) := by
  rw [quotedContent?]
  · exact hmark
  · exact fun e => absurd e hslash
  · exact fun _ _ e => absurd e hslash

/-- A value whose backslashes are paired is read up to its closing mark. -/
theorem quotedContent?_escapeSign {x : Text} (hline : '\n' ∉ x) (h : pairsBackslashes x = true)
    (rest : Text) :
    quotedContent? (Text.escapeSign '\x22' x ++ '\x22' :: rest) =
      some (Text.escapeSign '\x22' x, rest) := by
  fun_induction pairsBackslashes x with
  | case1 => rfl
  | case2 => cases h
  | case3 c x ih =>
      rw [List.mem_cons, List.mem_cons, not_or, not_or] at hline
      obtain ⟨hc, h⟩ := Bool.and_eq_true_iff.1 h
      have hc : c ≠ '\x22' := by simpa using hc
      rw [Text.escapeSign_cons (by decide), Text.escapeSign_cons hc, List.cons_append,
        List.cons_append, quotedContent?_backslash (fun e => hline.2.1 e.symm), ih hline.2.2 h]
      rfl
  | case4 c x hlone hpair ih =>
      rw [List.mem_cons, not_or] at hline
      have hslash : c ≠ '\x5c' := by
        rintro rfl
        cases x with
        | nil => exact hlone rfl rfl
        | cons d x => exact hpair d x rfl rfl
      by_cases hmark : c = '\x22'
      · subst hmark
        rw [Text.escapeSign_cons_self, List.cons_append, List.cons_append,
          quotedContent?_backslash (by decide), ih hline.2 h]
        rfl
      · rw [Text.escapeSign_cons hmark, List.cons_append, quotedContent?_cons hmark hslash,
          ih hline.2 h]
        rfl

/-- Before the end of a line that still holds a mark, more than blanks stands. -/
theorem endsLine_append {x : Text} (h : '\n' ∉ x) (rest : Text) :
    endsLine (x ++ '\x22' :: rest) = false := by
  induction x with
  | nil => rfl
  | cons c x ih =>
      rw [List.mem_cons, not_or] at h
      have hc : ('\n' == c) = false := beq_false_of_ne h.1
      by_cases hb : isBlank c = true
      · have hmore := ih h.2
        rw [endsLine] at hmore ⊢
        rw [List.cons_append, List.takeWhile_cons_of_pos hb, List.dropWhile_cons_of_pos hb,
          List.contains_cons, hc]
        exact hmore
      · rw [endsLine, List.cons_append, List.takeWhile_cons_of_neg hb,
          List.dropWhile_cons_of_neg hb]
        rfl

theorem RunsOn.of_map {x y : Text} (h : RunsOn x) (f : Text → Text)
    (hy : quotedContent? y = (quotedContent? x).map fun (content, after) => (f content, after)) :
    RunsOn y := by
  intro content after hcontent
  rw [hy] at hcontent
  obtain ⟨⟨inner, rest⟩, hinner, e⟩ := Option.map_eq_some_iff.1 hcontent
  cases e
  exact h inner after hinner

theorem RunsOn.backslash {c : Char} (hc : c ≠ '\n') {x : Text} (h : RunsOn x) :
    RunsOn ('\x5c' :: c :: x) :=
  h.of_map (fun content => '\x5c' :: c :: content) (quotedContent?_backslash hc x)

theorem RunsOn.cons {c : Char} (hmark : c ≠ '\x22') (hslash : c ≠ '\x5c') {x : Text}
    (h : RunsOn x) : RunsOn (c :: x) :=
  h.of_map (fun content => c :: content) (quotedContent?_cons hmark hslash x)

/-- A value whose backslashes are not paired ends before its closing mark, or runs on past it. -/
theorem RunsOn.escapeSign {x rest : Text} (hline : '\n' ∉ x) (h : pairsBackslashes x = false)
    (hrest : RunsOn rest) : RunsOn (Text.escapeSign '\x22' x ++ '\x22' :: rest) := by
  fun_induction pairsBackslashes x with
  | case1 => cases h
  | case2 => exact hrest.backslash (by decide)
  | case3 c x ih =>
      rw [List.mem_cons, List.mem_cons, not_or, not_or] at hline
      rw [Text.escapeSign_cons (by decide), List.cons_append]
      by_cases hc : c = '\x22'
      · -- the escape of the mark is taken by the backslash before it, so the mark ends the value
        subst hc
        intro content after hcontent
        rw [Text.escapeSign_cons_self, List.cons_append, List.cons_append,
          quotedContent?_backslash (by decide), quotedContent?] at hcontent
        cases hcontent
        refine endsLine_append (fun hm => ?_) rest
        exact (Text.mem_escapeSign hm).elim hline.2.2 (by decide)
      · have h : pairsBackslashes x = false := by simpa [hc] using h
        rw [Text.escapeSign_cons hc, List.cons_append]
        exact (ih hline.2.2 h).backslash fun e => hline.2.1 e.symm
  | case4 c x hlone hpair ih =>
      rw [List.mem_cons, not_or] at hline
      have hslash : c ≠ '\x5c' := by
        rintro rfl
        cases x with
        | nil => exact hlone rfl rfl
        | cons d x => exact hpair d x rfl rfl
      by_cases hmark : c = '\x22'
      · subst hmark
        rw [Text.escapeSign_cons_self, List.cons_append, List.cons_append]
        exact (ih hline.2 h).backslash (by decide)
      · rw [Text.escapeSign_cons hmark, List.cons_append]
        exact (ih hline.2 h).cons hmark hslash

theorem pairsBackslashes_of_not_mem {x : Text} (h : '\x5c' ∉ x) : pairsBackslashes x = true := by
  fun_induction pairsBackslashes x with
  | case1 => rfl
  | case2 => exact absurd List.mem_cons_self h
  | case3 => exact absurd List.mem_cons_self h
  | case4 c x _ _ ih => exact ih fun hm => h (List.mem_cons_of_mem _ hm)

/-- The marks of a value are unescaped like any other sign. -/
theorem unescapeMarks_eq (x : Text) : unescapeMarks x = Text.unescapeSign '\x22' x := by
  fun_induction unescapeMarks x with
  | case1 => rfl
  | case2 rest ih => rw [Text.unescapeSign, if_pos ⟨rfl, rfl⟩, ih]
  | case3 c rest hpair ih =>
      cases rest with
      | nil => rfl
      | cons d rest =>
          rw [Text.unescapeSign, if_neg, ih]
          rintro ⟨rfl, rfl⟩
          exact hpair rest rfl rfl

/-! ### Lines of the frontmatter -/

/-- The value on a line of the key is what its quoted content tells, if that ends the line. -/
theorem valueHere?_key (key quoted : Text) :
    valueHere? key (key ++ ": \"" ++ quoted) =
      (quotedContent? quoted).bind fun (content, after) =>
        if endsLine after then some (unescapeMarks content) else none := by
  have hkey (x : Text) : Text.dropStart? (key ++ [':']) (key ++ [':'] ++ x) = some x := by
    induction key ++ [':'] with
    | nil => rfl
    | cons c start ih => simpa [Text.dropStart?] using ih
  have hline : key ++ ": \"" ++ quoted = key ++ [':'] ++ ' ' :: '\x22' :: quoted := by
    simp
  have hstart : Text.stripStart (' ' :: '\x22' :: quoted) = '\x22' :: quoted := rfl
  rw [hline, valueHere?, hkey, Option.bind_eq_bind, Option.bind_some, hstart]
  rfl

theorem matterLine_append (key value rest : Text) :
    matterLine key value ++ rest = key ++ ": \"" ++ (value ++ '\x22' :: rest) := by
  simp only [matterLine, List.append_assoc, List.cons_append, List.nil_append]

theorem endsLine_newline (x : Text) : endsLine ('\n' :: x) = true := rfl

section

variable (key : Text) {x : Text} (hline : '\n' ∉ x) (rest : Text)

include hline

theorem valueHere?_matterLine_of_pairs (h : pairsBackslashes x = true) :
    valueHere? key (matterLine key (Text.escapeSign '\x22' x) ++ '\n' :: rest) = some x := by
  rw [matterLine_append, valueHere?_key, quotedContent?_escapeSign hline h, Option.bind_some]
  dsimp only
  rw [endsLine_newline, if_pos rfl, unescapeMarks_eq, Text.unescapeSign_escapeSign (by decide)]

theorem valueHere?_matterLine_of_not_pairs (h : pairsBackslashes x = false)
    (hrest : RunsOn ('\n' :: rest)) :
    valueHere? key (matterLine key (Text.escapeSign '\x22' x) ++ '\n' :: rest) = none := by
  rw [matterLine_append, valueHere?_key, Option.bind_eq_none_iff]
  rintro ⟨content, after⟩ hcontent
  dsimp only
  rw [RunsOn.escapeSign hline h hrest content after hcontent, if_neg Bool.false_ne_true]

end

theorem valueFrom?_of_valueHere? {key x value : Text} (h : valueHere? key x = some value) :
    valueFrom? key true x = some value := by
  cases x with
  | nil => exact h
  | cons c x => rw [valueFrom?, if_pos rfl, h]

/-- A line that does not give the value is passed over. -/
theorem valueFrom?_line {key line rest : Text} (hline : '\n' ∉ line)
    (hnone : valueHere? key (line ++ '\n' :: rest) = none) :
    valueFrom? key true (line ++ '\n' :: rest) = valueFrom? key true rest := by
  have hinside {line : Text} (h : '\n' ∉ line) :
      valueFrom? key false (line ++ '\n' :: rest) = valueFrom? key true rest := by
    induction line with
    | nil => rfl
    | cons c line ih =>
        rw [List.mem_cons, not_or] at h
        rw [List.cons_append, valueFrom?, beq_false_of_ne fun e => h.1 e.symm]
        exact ih h.2
  cases line with
  | nil =>
      rw [List.nil_append] at hnone ⊢
      rw [valueFrom?, if_pos rfl, hnone]
      rfl
  | cons c line =>
      rw [List.mem_cons, not_or] at hline
      rw [List.cons_append] at hnone ⊢
      rw [valueFrom?, if_pos rfl, hnone, beq_false_of_ne fun e => hline.1 e.symm]
      exact hinside hline.2

/-! ### The standard frontmatter -/

/-- The line of another value holds its opening mark, and more after it. -/
theorem runsOn_matterLine (key : Text)
    (hkey : key.all (fun c => c != '\x22' && c != '\x5c') = true) {value : Text}
    (h : '\n' ∉ value) (rest : Text) : RunsOn ('\n' :: (matterLine key value ++ rest)) := by
  have hopening : RunsOn ('\x22' :: (value ++ '\x22' :: rest)) := by
    intro content after hcontent
    rw [quotedContent?] at hcontent
    cases hcontent
    exact endsLine_append h rest
  have hgap : RunsOn (':' :: ' ' :: '\x22' :: (value ++ '\x22' :: rest)) :=
    (hopening.cons (by decide) (by decide)).cons (by decide) (by decide)
  rw [matterLine_append, List.append_assoc]
  refine RunsOn.cons (by decide) (by decide) ?_
  induction key with
  | nil => exact hgap
  | cons c key ih =>
      simp only [List.all_cons, Bool.and_eq_true, bne_iff_ne] at hkey
      exact (ih hkey.2).cons hkey.1.1 hkey.1.2

section

variable {title description : Text} (htitle : '\n' ∉ title) (hdescription : '\n' ∉ description)

/-- The frontmatter of values with their marks escaped, line by line. -/
theorem standardFrontmatter_escapeSign (title description : Text) :
    Layout.standardFrontmatter (Text.escapeSign '\x22' title)
        (Text.escapeSign '\x22' description) =
      ("---" : Text) ++ '\n' :: (matterLine "title" (Text.escapeSign '\x22' title) ++
        '\n' :: (matterLine "description" (Text.escapeSign '\x22' description) ++
          '\n' :: ("---" : Text))) := by
  rw [standardFrontmatter_eq, matterLines, Text.unlines_cons (List.cons_ne_nil _ _),
    Text.unlines_cons (List.cons_ne_nil _ _), Text.unlines_cons (List.cons_ne_nil _ _)]
  rfl

theorem not_mem_matterLine {key value : Text} (hkey : '\n' ∉ key) (h : '\n' ∉ value) :
    '\n' ∉ matterLine key (Text.escapeSign '\x22' value) := by
  have hvalue : '\n' ∉ Text.escapeSign '\x22' value := fun hm =>
    (Text.mem_escapeSign hm).elim h (by decide)
  simp [matterLine, hkey, hvalue]

include htitle hdescription

theorem valueFrom?_title :
    valueFrom? "title" true (Layout.standardFrontmatter (Text.escapeSign '\x22' title)
        (Text.escapeSign '\x22' description)) =
      if pairsBackslashes title then some title else none := by
  have hrule (rest : Text) : valueFrom? "title" true (("---" : Text) ++ '\n' :: rest) =
      valueFrom? "title" true rest := valueFrom?_line (by decide) rfl
  rw [standardFrontmatter_escapeSign, hrule]
  split
  · next h => exact valueFrom?_of_valueHere? (valueHere?_matterLine_of_pairs "title" htitle _ h)
  · next h =>
    have h : pairsBackslashes title = false := by simpa using h
    have hother : '\n' ∉ Text.escapeSign '\x22' description := fun hm =>
      (Text.mem_escapeSign hm).elim hdescription (by decide)
    have hnone := valueHere?_matterLine_of_not_pairs "title" htitle _ h
      (runsOn_matterLine "description" (by decide) hother ('\n' :: ("---" : Text)))
    have hskipped (rest : Text) : valueFrom? "title" true
        (matterLine "description" (Text.escapeSign '\x22' description) ++ '\n' :: rest) =
          valueFrom? "title" true rest :=
      valueFrom?_line (not_mem_matterLine (by decide) hdescription) rfl
    have htitleSkipped := valueFrom?_line (not_mem_matterLine (by decide) htitle) hnone
    exact htitleSkipped.trans ((hskipped _).trans rfl)

theorem valueFrom?_description :
    valueFrom? "description" true (Layout.standardFrontmatter (Text.escapeSign '\x22' title)
        (Text.escapeSign '\x22' description)) =
      if pairsBackslashes description then some description else none := by
  have hrule (rest : Text) : valueFrom? "description" true (("---" : Text) ++ '\n' :: rest) =
      valueFrom? "description" true rest := valueFrom?_line (by decide) rfl
  have hskipped (rest : Text) : valueFrom? "description" true
      (matterLine "title" (Text.escapeSign '\x22' title) ++ '\n' :: rest) =
        valueFrom? "description" true rest :=
    valueFrom?_line (not_mem_matterLine (by decide) htitle) rfl
  rw [standardFrontmatter_escapeSign, hrule, hskipped]
  split
  · next h =>
    exact valueFrom?_of_valueHere? (valueHere?_matterLine_of_pairs "description" hdescription _ h)
  · next h =>
    have h : pairsBackslashes description = false := by simpa using h
    have hnone := valueHere?_matterLine_of_not_pairs "description" hdescription ("---" : Text) h
      nofun
    exact (valueFrom?_line (not_mem_matterLine (by decide) hdescription) hnone).trans rfl

end

namespace Document

/-- A document in which this is the first block of frontmatter. -/
theorem frontmatterValue?_append {doc : Document} {before after : List Block} {block : Block}
    (hblocks : doc.blocks = before ++ block :: after) (hkind : block.kind = .frontmatter)
    (hbefore : ∀ other ∈ before, other.kind ≠ .frontmatter) (key : Text) :
    doc.frontmatterValue? key =
      (valueFrom? key true block.text).or
        (Document.frontmatterValue? { doc with blocks := after } key) := by
  have hnone : before.findSome? (fun other =>
      if other.kind == .frontmatter then valueFrom? key true other.text else none) = none := by
    rw [List.findSome?_eq_none_iff]
    intro other hother
    rw [beq_false_of_ne (hbefore other hother), if_neg Bool.false_ne_true]
  rw [frontmatterValue?, frontmatterValue?, hblocks, List.findSome?_append, hnone,
    List.findSome?_cons, hkind]
  cases valueFrom? key true block.text <;> rfl

/-- The frontmatter made with a title and a description tells each of them, on one line and the
description trimmed, if and only if its backslashes are paired; otherwise it tells none, whatever the
other one is, and the next frontmatter is asked. -/
theorem frontmatterValue?_frontmatter (title description : Text) :
    ∃ block, Fragment.frontmatter .standard title description = .ok block ∧
      ∀ (doc : Document) (before after : List Block), doc.blocks = before ++ block :: after →
        (∀ other ∈ before, other.kind ≠ .frontmatter) →
        (doc.frontmatterValue? "title" =
          if pairsBackslashes title.onOneLine then some title.onOneLine
          else Document.frontmatterValue? { doc with blocks := after } "title") ∧
        (doc.frontmatterValue? "description" =
          if pairsBackslashes description.onOneLine.strip then some description.onOneLine.strip
          else Document.frontmatterValue? { doc with blocks := after } "description") := by
  have htitle := Text.not_mem_onOneLine title
  have hdescription : '\n' ∉ description.onOneLine.strip := fun hm =>
    Text.not_mem_onOneLine description (Text.strip_subset _ hm)
  refine ⟨_, rfl, fun doc before after hblocks hbefore => ?_⟩
  rw [frontmatterValue?_append hblocks rfl hbefore, frontmatterValue?_append hblocks rfl hbefore]
  dsimp only
  rw [attributeValue_eq, attributeValue_eq, Text.strip_escapeSign (by decide),
    valueFrom?_title htitle hdescription, valueFrom?_description htitle hdescription]
  constructor
  · split <;> rfl
  · split <;> rfl

/-- A title with a folder of another system in it is told, and a description that ends in a backslash
is not. -/
theorem frontmatterValue?_frontmatter_folder :
    ∃ block, Fragment.frontmatter .standard "The \"C:\\temp\" folder" "Begins with\nC:\\ " =
        .ok block ∧
      (∀ other ∈ [Block.heading 2 "Folders"], other.kind ≠ .frontmatter) ∧
      Document.frontmatterValue? { blocks := [Block.heading 2 "Folders", block] } "title" =
        some "The \"C:\\temp\" folder".toList ∧
      Document.frontmatterValue? { blocks := [Block.heading 2 "Folders", block] } "description" =
        none := by
  obtain ⟨block, hblock, htold⟩ := frontmatterValue?_frontmatter
    ("The \"C:\\temp\" folder" : String) ("Begins with\nC:\\ " : String)
  have hbefore : ∀ other ∈ [Block.heading 2 "Folders"], other.kind ≠ .frontmatter := by decide
  obtain ⟨htitle, hdescription⟩ := htold { blocks := [Block.heading 2 "Folders", block] }
    [Block.heading 2 "Folders"] [] rfl hbefore
  exact ⟨block, hblock, hbefore, htitle, hdescription⟩

end Document

end ApiReference
