import ApiReference.Proofs.Locations
import ApiReference.Proofs.Reread

/-! # Linking twice

A second pass over a document changes nothing if and only if the first one missed nothing in the
lines outside fences, and a third pass never changes anything (`Document.link_link_iff`).  Addresses
must not interfere: with paths that hold neither backticks nor line ends, neither do they
(`RenderSettings.PlainPaths.not_mem_href?`). -/

namespace ApiReference

/-! ### Linked texts -/

section texts

variable {refs : ReferenceMap}

/-- The line of a link form holds no line end but those of the span and the address. -/
theorem LinkForm.newline_not_mem {span : Span} {after name href image : Text}
    (h : LinkForm span after name href image) (hi : '\n' ∉ span.inner) (hh : '\n' ∉ href) :
    '\n' ∉ image := by
  cases h with
  | parameter hs =>
      have hliteral : '\n' ∉ SpanLine.literal name := by simpa [SpanLine.literal] using hs ▸ hi
      exact not_mem_linkTo (by decide) hliteral hh
  | free hs => exact not_mem_linkTo (by decide) (hs ▸ hi) hh
  | generic _ hx _ => exact not_mem_genericForm (by decide) hx hi hh

theorem LinkedSpans.newline_not_mem {tail out : Text} {spans : List Span}
    (h : LinkedSpans refs.href? tail spans out)
    (hline : '\n' ∉ SpanLine.render (fun span _ => SpanLine.literal span.inner) tail spans)
    (hplain : ∀ name href, refs.href? name = some href → '\n' ∉ href) : '\n' ∉ out := by
  induction h with
  | nil => exact hline
  | @cons span more image out himage _ ih =>
      rw [SpanLine.render_cons, List.mem_append, List.mem_append, not_or, not_or] at hline
      obtain ⟨⟨hbefore, hinner⟩, hmore⟩ := hline
      rw [List.mem_append, List.mem_append, not_or, not_or]
      refine ⟨⟨hbefore, ?_⟩, ih hmore⟩
      cases himage with
      | linked hhref _ hform =>
          refine hform.newline_not_mem (fun hm => hinner ?_) (hplain _ _ hhref)
          simp [SpanLine.literal, hm]
      | literal => exact hinner

theorem newline_not_mem_linkLine {line : Text} (h : '\n' ∉ line)
    (hplain : ∀ name href, refs.href? name = some href → '\n' ∉ href) :
    '\n' ∉ linkLine refs.linkTable line := by
  refine (linkedSpans_linkLine refs line).newline_not_mem ?_ hplain
  rwa [(SpanLine.reads_ofText line).written]

theorem mem_linkLines {inFence : Bool} {lines : List Text} {line : Text}
    (h : line ∈ linkLines refs.linkTable inFence lines) :
    ∃ source ∈ lines, line = source ∨ line = linkLine refs.linkTable source := by
  induction lines generalizing inFence with
  | nil => cases h
  | cons first more ih =>
      have hmore {inFence : Bool} (h : line ∈ linkLines refs.linkTable inFence more) :
          ∃ source ∈ first :: more, line = source ∨ line = linkLine refs.linkTable source := by
        obtain ⟨source, hs, e⟩ := ih h
        exact ⟨source, List.mem_cons_of_mem _ hs, e⟩
      rw [linkLines] at h
      split at h
      · rcases List.mem_cons.1 h with rfl | h
        · exact ⟨line, List.mem_cons_self, .inl rfl⟩
        · exact hmore h
      · rcases List.mem_cons.1 h with rfl | h
        · refine ⟨first, List.mem_cons_self, ?_⟩
          cases inFence
          · exact .inr rfl
          · exact .inl rfl
        · exact hmore h

/-- The lines of a linked text are the linked lines. -/
theorem lines_linkText (hplain : ∀ name href, refs.href? name = some href → '\n' ∉ href) (x : Text) :
    Text.lines (linkText refs.linkTable x) = linkLines refs.linkTable false (Text.lines x) := by
  refine Text.lines_unlines ?_ fun line hl => ?_
  · intro e
    have hlen : (linkLines refs.linkTable false (Text.lines x)).length = (Text.lines x).length :=
      length_linkLines _ _
    rw [e] at hlen
    exact Text.lines_ne_nil x (List.length_eq_zero_iff.1 hlen.symm)
  · obtain ⟨source, hs, rfl | rfl⟩ := mem_linkLines hl
    · exact Text.not_mem_of_mem_lines hs
    · exact newline_not_mem_linkLine (Text.not_mem_of_mem_lines hs) hplain

theorem proseLines_linkLines (inFence : Bool) (lines : List Text) :
    proseLines inFence (linkLines refs.linkTable inFence lines) =
      (proseLines inFence lines).map (linkLine refs.linkTable) := by
  induction lines generalizing inFence with
  | nil => rfl
  | cons line more ih =>
      rw [linkLines, proseLines]
      split
      · next hf => rw [proseLines, if_pos hf, ih]
      · next hf =>
        have hf : isFence line = false := by simpa using hf
        cases inFence
        · simp [proseLines, isFence_linkLine hf, ih]
        · simp [proseLines, hf, ih]

variable (hnames : ∀ name, (refs.href? name).isSome = true → '<' ∉ name)
  (hplain : ∀ name href, refs.href? name = some href → '\x60' ∉ href ∧ '\n' ∉ href)

include hnames hplain

theorem nothingToLink_linkText_iff (x : Text) :
    NothingToLink refs.href? (linkText refs.linkTable x) ↔
      ∀ line ∈ proseLines false (Text.lines x), NothingMissed refs.href? line := by
  rw [NothingToLink, lines_linkText (fun name href h => (hplain name href h).2),
    proseLines_linkLines, List.forall_mem_map]
  exact forall₂_congr fun line _ =>
    noneQualifies_linkLine_iff hnames (fun name href h => (hplain name href h).1) line

/-- In a linked text nothing is missed. -/
theorem nothingMissed_of_mem_linkText (x : Text) :
    ∀ line ∈ proseLines false (Text.lines (linkText refs.linkTable x)),
      NothingMissed refs.href? line := by
  rw [lines_linkText (fun name href h => (hplain name href h).2), proseLines_linkLines,
    List.forall_mem_map]
  exact fun line _ =>
    nothingMissed_linkLine hnames (fun name href h => (hplain name href h).1) line

end texts

/-! ### Linked documents -/

section documents

variable {refs : ReferenceMap}

theorem kind_linkBlock (block : Block) : (linkBlock refs.linkTable block).kind = block.kind := by
  unfold linkBlock
  split
  · next hk =>
    have hk : block.kind = .text := by simpa using hk
    dsimp only
    split
    · rfl
    · exact hk.symm
  · rfl

theorem text_linkBlock {block : Block} (h : block.kind = .text) :
    (linkBlock refs.linkTable block).text = linkText refs.linkTable block.text := by
  unfold linkBlock
  rw [if_pos (by simpa using h)]
  dsimp only
  split
  · next he => exact (by simpa using he : _ = _).symm
  · rfl

/-- A block stays as it is if and only if it is no running text or there is nothing to link. -/
theorem linkBlock_eq_self_iff {block : Block} :
    linkBlock refs.linkTable block = block ↔
      (block.kind = .text → NothingToLink refs.href? block.text) := by
  constructor
  · intro h hk
    rw [← linkText_eq_self_iff, ← text_linkBlock hk, h]
  · intro h
    unfold linkBlock
    split
    · next hk => simp [linkText_eq_self_iff.2 (h (by simpa using hk))]
    · rfl

/-- Only running text is linked. -/
theorem linkBlock_of_ne {block : Block} (h : block.kind ≠ .text) :
    linkBlock refs.linkTable block = block :=
  linkBlock_eq_self_iff.2 fun hk => absurd hk h

theorem Document.link_eq_self_iff {doc : Document} :
    doc.link refs.linkTable = doc ↔
      ∀ block ∈ doc.blocks, block.kind = .text → NothingToLink refs.href? block.text := by
  have hblocks : doc.link refs.linkTable = doc ↔
      doc.blocks.map (linkBlock refs.linkTable) = doc.blocks.map id := by
    rw [List.map_id]
    obtain ⟨location, title, blocks⟩ := doc
    simp only [link, mk.injEq, true_and]
  rw [hblocks, List.map_inj_left]
  exact forall₂_congr fun block _ => linkBlock_eq_self_iff

/-- Linking again changes nothing if and only if nothing was missed in the lines outside fences, and
linking a third time never changes anything.  No name may hold an angle bracket; no identifier
does. -/
theorem Document.link_link_iff (settings : RenderSettings) (hplain : settings.PlainPaths)
    (root : Declaration) (hnames : ∀ placed ∈ pageWorthy root.walk, '<' ∉ placed.declaration.name)
    (doc : Document) :
    let refs := ReferenceMap.ofDeclarations settings root.walk
    ((doc.link refs.linkTable).link refs.linkTable = doc.link refs.linkTable ↔
        ∀ block ∈ doc.blocks, block.kind = .text →
          ∀ line ∈ proseLines false (Text.lines block.text), NothingMissed refs.href? line) ∧
      ((doc.link refs.linkTable).link refs.linkTable).link refs.linkTable =
        (doc.link refs.linkTable).link refs.linkTable := by
  intro refs
  have hnames : ∀ name, (refs.href? name).isSome = true → '<' ∉ name := by
    intro name hmapped
    obtain ⟨placed, hplaced, rfl⟩ := exists_placed_of_href? hmapped
    exact hnames placed hplaced
  have hplain : ∀ name href, refs.href? name = some href → '\x60' ∉ href ∧ '\n' ∉ href :=
    fun _ _ h => hplain.not_mem_href? h
  have hagain (doc : Document) :
      (doc.link refs.linkTable).link refs.linkTable = doc.link refs.linkTable ↔
        ∀ block ∈ doc.blocks, block.kind = .text →
          ∀ line ∈ proseLines false (Text.lines block.text), NothingMissed refs.href? line := by
    rw [Document.link_eq_self_iff, Document.link, List.forall_mem_map]
    refine forall₂_congr fun block _ => ?_
    rw [kind_linkBlock]
    refine forall_congr' fun hk => ?_
    rw [text_linkBlock hk, nothingToLink_linkText_iff hnames hplain]
  refine ⟨hagain doc, (hagain _).2 ?_⟩
  rw [Document.link, List.forall_mem_map]
  intro block _ hk
  rw [kind_linkBlock] at hk
  rw [text_linkBlock hk]
  exact nothingMissed_of_mem_linkText hnames hplain block.text

end documents

/-- An interface that has a page. -/
def userInterface : Declaration where
  name := "User"
  kind := .interfaceType
  comment := none
  signatures := []
  children := []
  type := none
  flags := {}
  defaultValue := none

/-- A span that is linked in the middle, and then a name. -/
def partialUser : Document where
  blocks := [Block.paragraph "\x60Partial<User>.id\x60: \x60User\x60's id"]

/-- Once the end of the first span is running text, it introduces the name as the type of a
parameter. -/
theorem Document.link_link_ne_partialUser :
    let refs := ReferenceMap.ofDeclarations {} userInterface.walk
    (partialUser.link refs.linkTable).link refs.linkTable ≠ partialUser.link refs.linkTable := by
  intro refs
  have hplain : RenderSettings.PlainPaths {} := ⟨by decide, by decide⟩
  have hnames : ∀ placed ∈ pageWorthy userInterface.walk, '<' ∉ placed.declaration.name := by
    decide +kernel
  have huser : (refs.href? "User").isSome = true := by decide +kernel
  have hmissed : MissedParameter refs.href? ⟨[], "Partial<User>.id"⟩ ⟨": ", "User"⟩ "'s id" := by
    refine ⟨⟨"User", "Partial", ".id", huser, by decide⟩, huser, ?_, ?_, ?_⟩
    · rw [← startsFree_iff]
      decide
    · rw [← endsInParameter_iff]
      decide
    · rw [← endsInParameter_iff]
      decide
  rw [Ne, (Document.link_link_iff {} hplain userInterface hnames partialUser).1]
  intro h
  have hchain : NothingMissed refs.href? "\x60Partial<User>.id\x60: \x60User\x60's id" :=
    h _ List.mem_cons_self rfl _ (by decide +kernel)
  have hplaced : SpanLine.placedOf "\x60Partial<User>.id\x60: \x60User\x60's id" =
      [(Span.mk [] "Partial<User>.id", (": " : Text)), (Span.mk ": " "User", "'s id")] := by
    decide +kernel
  rw [NothingMissed, hplaced] at hchain
  exact (List.isChain_cons_cons.1 hchain).1 hmissed

end ApiReference
