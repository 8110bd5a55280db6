import ApiReference.Proofs.OpenTags
import ApiReference.Proofs.Stages

/-! # What pages are put together from

A page is put together from texts that are read, from blocks that are no tags, and from containers
around all these (`Assembled`); its headings are trimmed, and those of the first level come from the
texts (`Composed`).  `pageTexts` lists the texts, and
every page that is rendered is put together from them (`composed_renderPage`). -/

namespace ApiReference

/-! ### Putting blocks together -/

/-- Blocks that are put together from the blocks of texts, listed in their order, from blocks that
are no tags, and from containers.  A container whose stray closing tags are kept has no text
inside. -/
inductive Assembled : List Text → List Block → Prop
  | nil : Assembled [] []
  | content {block : Block} (h : block.isContainer = false) : Assembled [] [block]
  | richText (x : Text) : Assembled [x] (Fragment.richText x)
  | prose (x : Text) : Assembled [x] (Fragment.prose x)
  | append {texts more : List Text} {a b : List Block} (ha : Assembled texts a)
      (hb : Assembled more b) : Assembled (texts ++ more) (a ++ b)
  | wrap {texts : List Text} {content : List Block} {name : Text} (attributes : Text)
      (h : isKeptWhenStray name = true → texts = []) (hc : Assembled texts content) :
      Assembled texts (Fragment.wrap name content attributes)

/-- The titles of headings have no blanks at their ends. -/
def TrimmedHeadings (blocks : List Block) : Prop :=
  ∀ block ∈ blocks, block.kind = .heading → block.text.strip = block.text

theorem trimmedHeadings_blocksOf (x : Text) : TrimmedHeadings (Document.blocksOf x) := by
  have hlines (lines : List Text) : TrimmedHeadings (blocksOfLines (.paragraph []) lines) := by
    intro block hm hk
    rcases mem_blocksOfLines hm with h | h | ⟨line, h⟩
    · cases h.symm.trans hk
    · cases h.symm.trans hk
    · exact strip_of_lineBlock? h hk
  unfold Document.blocksOf blocksOfAll
  split
  · exact nofun
  · split
    · exact List.forall_mem_cons.2 ⟨nofun, hlines _⟩
    · exact hlines _

theorem mem_punctuate_iff_of_heading {block : Block} (hk : block.kind = .heading)
    (blocks : List Block) : block ∈ Fragment.punctuate blocks ↔ block ∈ blocks := by
  have htext {other : Block} (hother : other.kind = .text) : block ≠ other := by
    rintro rfl
    cases hk.symm.trans hother
  fun_induction Fragment.punctuate blocks with
  | case1 => rfl
  | case2 last ht =>
      simp [htext (beq_iff_eq.1 ht), htext (show (Block.paragraph _).kind = .text from rfl)]
  | case3 last ht => rfl
  | case4 first more hne ih => simp only [List.mem_cons, ih]

theorem trimmedHeadings_punctuate {blocks : List Block} (h : TrimmedHeadings blocks) :
    TrimmedHeadings (Fragment.punctuate blocks) := fun block hm hk =>
  h block ((mem_punctuate_iff_of_heading hk blocks).1 hm) hk

/-- The headings of the first level come from texts. -/
def TitlesFrom (texts : List Text) (blocks : List Block) : Prop :=
  ∀ block ∈ blocks, block.kind = .heading →
    2 ≤ block.level ∨ ∃ x ∈ texts, block ∈ Document.blocksOf x

theorem TitlesFrom.mono {texts more : List Text} {blocks : List Block} (h : TitlesFrom texts blocks)
    (hsub : texts ⊆ more) : TitlesFrom more blocks := fun block hm hk =>
  (h block hm hk).imp_right fun ⟨x, hx, hread⟩ => ⟨x, hsub hx, hread⟩

/-- What is put together from texts, with trimmed headings; those of the first level come from the
texts. -/
structure Composed (texts : List Text) (blocks : List Block) : Prop where
  assembled : Assembled texts blocks
  trimmed : TrimmedHeadings blocks
  titles : TitlesFrom texts blocks

namespace Composed

theorem nil : Composed [] [] := ⟨.nil, nofun, nofun⟩

theorem content {block : Block} (h : block.isContainer = false)
    (ht : block.kind = .heading → block.text.strip = block.text ∧ 2 ≤ block.level) :
    Composed [] [block] :=
  ⟨.content h, List.forall_mem_singleton.2 fun hk => (ht hk).1,
    List.forall_mem_singleton.2 fun hk => .inl (ht hk).2⟩

theorem heading {level : Int} (hlevel : 2 ≤ level) (title : Text) :
    Composed [] [Block.heading level title] :=
  content rfl fun _ => ⟨Text.strip_strip title, hlevel⟩

theorem paragraph (x : Text) : Composed [] [Block.paragraph x] := content rfl nofun

theorem richText (x : Text) : Composed [x] (Fragment.richText x) where
  assembled := .richText x
  trimmed block hm := trimmedHeadings_blocksOf x block (List.mem_filter.1 hm).1
  titles _ hm _ := .inr ⟨x, List.mem_cons_self, (List.mem_filter.1 hm).1⟩

theorem prose (x : Text) : Composed [x] (Fragment.prose x) where
  assembled := .prose x
  trimmed := trimmedHeadings_punctuate (richText x).trimmed
  titles block hm hk := (richText x).titles block ((mem_punctuate_iff_of_heading hk _).1 hm) hk

theorem append {texts more : List Text} {a b : List Block} (ha : Composed texts a)
    (hb : Composed more b) : Composed (texts ++ more) (a ++ b) where
  assembled := ha.assembled.append hb.assembled
  trimmed := List.forall_mem_append.2 ⟨ha.trimmed, hb.trimmed⟩
  titles := List.forall_mem_append.2 ⟨ha.titles.mono (List.subset_append_left _ _),
    hb.titles.mono (List.subset_append_right _ _)⟩

theorem cons {texts : List Text} {block : Block} {blocks : List Block}
    (h : Composed [] [block]) (hb : Composed texts blocks) : Composed texts (block :: blocks) :=
  h.append hb

theorem wrap {texts : List Text} {content : List Block} {name : Text} (attributes : Text)
    (h : isKeptWhenStray name = true → texts = []) (hc : Composed texts content) :
    Composed texts (Fragment.wrap name content attributes) := by
  refine ⟨hc.assembled.wrap attributes h, ?_, ?_⟩
  · rw [Fragment.wrap, TrimmedHeadings, List.cons_append, List.forall_mem_cons,
      List.forall_mem_append, List.forall_mem_singleton]
    exact ⟨nofun, hc.trimmed, nofun⟩
  · rw [Fragment.wrap, TitlesFrom, List.cons_append, List.forall_mem_cons,
      List.forall_mem_append, List.forall_mem_singleton]
    exact ⟨nofun, hc.titles, nofun⟩

theorem flatten {textss : List (List Text)} {blockss : List (List Block)}
    (h : List.Forall₂ Composed textss blockss) : Composed textss.flatten blockss.flatten := by
  induction h with
  | nil => exact nil
  | cons hfirst _ ih => exact hfirst.append ih

/-- Items that are put together from texts, one after another. -/
theorem flatMap {α : Type} {textss : List (List Text)} {items : List α} {f : α → List Block}
    (h : List.Forall₂ (fun texts item => Composed texts (f item)) textss items) :
    Composed textss.flatten (items.flatMap f) := by
  rw [List.flatMap_def]
  exact flatten (List.forall₂_map_right_iff.2 h)

/-- Items that are put together from one text each. -/
theorem flatMap_single {α : Type} {texts : List Text} {items : List α} {f : α → List Block}
    (h : List.Forall₂ (fun x item => Composed [x] (f item)) texts items) :
    Composed texts (items.flatMap f) := by
  have hall := flatMap (List.forall₂_map_left_iff.2 h)
  rwa [← List.flatMap_def, List.flatMap_singleton'] at hall

/-- Blocks that are neither tags nor headings. -/
theorem plain {blocks : List Block}
    (h : ∀ block ∈ blocks, block.isContainer = false ∧ block.kind ≠ .heading) :
    Composed [] blocks := by
  induction blocks with
  | nil => exact nil
  | cons block blocks ih =>
      obtain ⟨hc, hk⟩ := h block List.mem_cons_self
      exact cons (content hc fun e => absurd e hk)
        (ih fun b hb => h b (List.mem_cons_of_mem _ hb))

end Composed

/-! ### The texts of a page -/

/-- The texts that callouts show. -/
def calloutTexts (texts : List Text) : List Text :=
  (texts.filter fun x => !x.isAllBlank).map Text.strip

/-- The texts that are read for a comment, its summary apart. -/
def commentTexts : Option Comment → List Text
  | none => []
  | some comment =>
    calloutTexts comment.remarks ++ calloutTexts comment.warnings ++ calloutTexts comment.notes

/-- A text is read unless it is empty. -/
def readUnlessEmpty (x : Text) : List Text := if x.isEmpty then [] else [x]

/-- The text that fills the field of a parameter. -/
def parameterText (refs : ReferenceMap) (parameter : Parameter) : Except DisplayFault Text := do
  let linked ← showPart refs.links parameter.type
  let plain ← showPart Links.none parameter.type
  withTypeMention (← parameterDescription parameter plain) linked

/-- The text that fills the field of the result. -/
def returnText (refs : ReferenceMap) (signature : Signature) : Except DisplayFault Text := do
  let shown ← typeInProse (← showPart refs.links signature.type)
  return Markup.appendSentence (returnsText signature.comment) ("Returns " ++ shown ++ ['.'])

/-- The summary of a signature is read unless it is empty or was shown before. -/
def signatureSummary (view : SignatureView) (comment : Option Comment) : List Text :=
  let summary := summaryText comment
  if summary.isEmpty || sameSummary summary view.shownSummary then [] else [summary]

/-- The text that is read for the result of a signature, if it has one. -/
def resultTexts (refs : ReferenceMap) (view : SignatureView) (signature : Signature) :
    Except DisplayFault (List Text) := do
  if view.asConstructor || !signature.returnsValue then return []
  return [← returnText refs signature]

/-- The texts that are read for a signature. -/
def signatureTexts (refs : ReferenceMap) (view : SignatureView) (signature : Signature) :
    Except DisplayFault (List Text) := do
  let parameters ← signature.parameters.mapM (parameterText refs)
  let result ← resultTexts refs view signature
  return signatureSummary view signature.comment ++ commentTexts signature.comment ++
    parameters ++ result

/-- The text that describes a property of an interface. -/
def interfacePropertyText (ctx : PageContext) (property : Declaration) :
    Except DisplayFault Text := do
  withTypeMention (propertyDescription property) (← showPart ctx.refs.links property.type)

/-- The texts that are read for a constructor, of which the first signature is shown. -/
def constructorTexts (ctx : PageContext) (decl : Declaration) :
    Except DisplayFault (List Text) :=
  match decl.signatures with
  | [] => .ok []
  | first :: _ => signatureTexts ctx.refs { asConstructor := true } first

/-- The texts that are read for a class. -/
def classTexts (ctx : PageContext) (decl : Declaration) : Except DisplayFault (List Text) := do
  let constructors ← (decl.childrenOf .constructor).mapM (constructorTexts ctx)
  let properties ← (decl.childrenOf .property).mapM fun property =>
    .ok (propertyDescription property)
  let methods ← (methodsOf decl).mapM fun method => signatureTexts ctx.refs {} method.signature
  return constructors.flatten ++ properties ++ methods.flatten

/-- The texts that are read for a function. -/
def functionTexts (ctx : PageContext) (decl : Declaration) : Except DisplayFault (List Text) := do
  let view : SignatureView := { shownSummary := decl.pageSummary }
  return (← decl.signatures.mapM (signatureTexts ctx.refs view)).flatten

/-- The texts that are read because of the kind of a declaration. -/
def kindTexts (ctx : PageContext) (decl : Declaration) : Except DisplayFault (List Text) := do
  match decl.kind with
  | .classType => classTexts ctx decl
  | .interfaceType => (decl.childrenOf .property).mapM (interfacePropertyText ctx)
  | .function => functionTexts ctx decl
  | _ => return []

/-- The texts that are read for the page of a declaration, in their order. -/
def pageTexts (ctx : PageContext) (decl : Declaration) : Except DisplayFault (List Text) := do
  return readUnlessEmpty decl.pageSummary ++ commentTexts decl.comment ++ (← kindTexts ctx decl)

/-! ### Pages are assembled from their texts -/

theorem composed_richText_unlessEmpty (x : Text) :
    Composed (readUnlessEmpty x) (if x.isEmpty then [] else Fragment.richText x) := by
  unfold readUnlessEmpty
  split
  · exact .nil
  · exact .richText x

theorem isKeptWhenStray_calloutName (sort : Text) :
    isKeptWhenStray (Fragment.calloutName sort) = false := by
  unfold Fragment.calloutName
  repeat' split
  all_goals decide

theorem composed_calloutBlocks (sort : Text) (texts : List Text) :
    Composed (calloutTexts texts) (calloutBlocks sort texts) := by
  unfold calloutTexts calloutBlocks
  induction texts.filter fun x => !x.isAllBlank with
  | nil => exact .nil
  | cons x texts ih =>
      have hkept := isKeptWhenStray_calloutName sort
      exact (Composed.wrap [] (by simp [hkept]) (.richText x.strip)).append ih

/-- Examples are code, alone or in a group. -/
theorem composed_exampleBlocks (examples : List Example) :
    Composed [] (exampleBlocks examples) := by
  match examples with
  | [] => exact .nil
  | [only] => exact .content rfl nofun
  | first :: second :: more =>
      refine .wrap [] (fun _ => rfl) (.plain fun block hm => ?_)
      obtain ⟨sample, _, rfl⟩ := List.mem_map.1 hm
      exact ⟨rfl, nofun⟩

theorem composed_commentBlocks? (comment : Option Comment) :
    Composed (commentTexts comment) (commentBlocks? comment) := by
  cases comment with
  | none => exact .nil
  | some comment =>
      have h := (((composed_calloutBlocks "info" comment.remarks).append
        (composed_calloutBlocks "warning" comment.warnings)).append
        (composed_calloutBlocks "note" comment.notes)).append
        (composed_exampleBlocks (comment.examples.flatMap examplesOf))
      rwa [List.append_nil] at h

theorem composed_signatureCommentBlocks (view : SignatureView) (comment : Option Comment) :
    Composed (signatureSummary view comment ++ commentTexts comment)
      (signatureCommentBlocks view comment) := by
  cases comment with
  | none => exact .nil
  | some comment =>
      refine Composed.append ?_ (composed_commentBlocks? (some comment))
      unfold signatureSummary
      dsimp only [summaryText]
      split
      · exact .nil
      · exact .richText _

theorem composed_callBlocks {view : SignatureView} {name : Text} {signature : Signature}
    {blocks : List Block} (h : callBlocks view name signature = .ok blocks) :
    Composed [] blocks := by
  have hplain (form : Text) : Composed [] [Block.paragraph (inSpan form)] := .paragraph _
  unfold callBlocks at h
  dsimp only at h
  split at h
  · split at h
    · obtain ⟨form, _, h⟩ := bind_eq_ok.1 h
      exact Except.ok.inj h ▸ hplain form
    · obtain ⟨form, _, h⟩ := bind_eq_ok.1 h
      exact Except.ok.inj h ▸ hplain form
  · exact Except.ok.inj h ▸ .nil

/-- The field that a text fills. -/
inductive IsField (x : Text) : List Block → Prop
  | wrap {name : Text} (h : Block.isFieldName name = true) (attributes : Text) :
      IsField x (Fragment.wrap name (Fragment.prose x) attributes)

/-- Stray closing tags of fields are not kept. -/
theorem isKeptWhenStray_of_isFieldName {name : Text} (h : Block.isFieldName name = true) :
    isKeptWhenStray name = false := by
  rw [Bool.eq_false_iff]
  intro hkept
  obtain rfl : name = ("CodeGroup" : Text) := beq_iff_eq.1 hkept
  exact absurd h (by decide)

theorem IsField.composed {x : Text} {blocks : List Block} (h : IsField x blocks) :
    Composed [x] blocks := by
  cases h with
  | wrap hname attributes =>
      refine .wrap attributes (fun hkept => ?_) (.prose x)
      rw [isKeptWhenStray_of_isFieldName hname] at hkept
      cases hkept

theorem isField_parameterBlocks {refs : ReferenceMap} {parameter : Parameter}
    {blocks : List Block} (h : parameterBlocks refs parameter = .ok blocks) :
    ∃ x, parameterText refs parameter = .ok x ∧ IsField x blocks := by
  unfold parameterBlocks at h
  obtain ⟨linked, hlinked, h⟩ := bind_eq_ok.1 h
  obtain ⟨plain, hplain, h⟩ := bind_eq_ok.1 h
  obtain ⟨description, hdescription, h⟩ := bind_eq_ok.1 h
  obtain ⟨x, hx, h⟩ := bind_eq_ok.1 h
  obtain ⟨type, _, h⟩ := bind_eq_ok.1 h
  cases h
  refine ⟨x, ?_, .wrap rfl _⟩
  exact bind_eq_ok.2 ⟨linked, hlinked, bind_eq_ok.2 ⟨plain, hplain,
    bind_eq_ok.2 ⟨description, hdescription, hx⟩⟩⟩

theorem isField_returnBlocks {refs : ReferenceMap} {signature : Signature} {blocks : List Block}
    (h : returnBlocks refs signature = .ok blocks) :
    ∃ x, returnText refs signature = .ok x ∧ IsField x blocks := by
  unfold returnBlocks at h
  obtain ⟨linked, hlinked, h⟩ := bind_eq_ok.1 h
  obtain ⟨plain, _, h⟩ := bind_eq_ok.1 h
  obtain ⟨shown, hshown, h⟩ := bind_eq_ok.1 h
  obtain ⟨type, _, h⟩ := bind_eq_ok.1 h
  cases h
  refine ⟨_, ?_, .wrap rfl _⟩
  exact bind_eq_ok.2 ⟨linked, hlinked, bind_eq_ok.2 ⟨shown, hshown, rfl⟩⟩

/-- Nothing, or a part that can be unfolded with the fields that texts fill. -/
inductive FoldedFields : List Text → List Block → Prop
  | nil : FoldedFields [] []
  | fold {texts : List Text} {fields : List (List Block)} (title : Text)
      (h : List.Forall₂ IsField texts fields) :
      FoldedFields texts (Fragment.expandable title fields.flatten false)

theorem composed_fields {texts : List Text} {fields : List (List Block)}
    (h : List.Forall₂ IsField texts fields) : Composed texts fields.flatten := by
  rw [← List.flatMap_id]
  exact .flatMap_single (h.imp fun _ _ hfield => hfield.composed)

theorem FoldedFields.composed {texts : List Text} {blocks : List Block}
    (h : FoldedFields texts blocks) : Composed texts blocks := by
  cases h with
  | nil => exact .nil
  | fold title h => exact .wrap _ (fun hk => by cases hk) (composed_fields h)

/-- The parameters of a signature as a part that can be unfolded. -/
def parameterSection (refs : ReferenceMap) (parameters : List Parameter) :
    Except DisplayFault (List Block) := do
  if parameters.isEmpty then return []
  return Fragment.expandable "Parameters" (← parameters.mapM (parameterBlocks refs)).flatten false

/-- The result of a signature as a part that can be unfolded. -/
def returnSection (refs : ReferenceMap) (view : SignatureView) (signature : Signature) :
    Except DisplayFault (List Block) := do
  if view.asConstructor || !signature.returnsValue then return []
  return Fragment.expandable "Returns" (← returnBlocks refs signature) false

theorem signatureBlocks_eq (refs : ReferenceMap) (view : SignatureView) (name : Text)
    (signature : Signature) :
    signatureBlocks refs view name signature = do
      let call ← callBlocks view name signature
      let parameters ← parameterSection refs signature.parameters
      let result ← returnSection refs view signature
      return call ++ signatureCommentBlocks view signature.comment ++ parameters ++ result := by
  unfold signatureBlocks parameterSection returnSection
  refine congrArg (callBlocks view name signature >>= ·) (funext fun call => ?_)
  cases signature.parameters.isEmpty <;> cases view.asConstructor <;>
    cases signature.returnsValue <;> simp

theorem foldedFields_parameterSection {refs : ReferenceMap} {parameters : List Parameter}
    {blocks : List Block} (h : parameterSection refs parameters = .ok blocks) :
    ∃ texts, parameters.mapM (parameterText refs) = .ok texts ∧ FoldedFields texts blocks := by
  unfold parameterSection at h
  split at h
  · next hempty =>
    rw [List.isEmpty_iff.1 hempty]
    cases h
    exact ⟨[], rfl, .nil⟩
  · obtain ⟨fields, hfields, h⟩ := bind_eq_ok.1 h
    cases h
    obtain ⟨texts, htexts, hall⟩ := exists_mapM_of_forall (R := IsField)
      (fun _ _ _ h => isField_parameterBlocks h) hfields
    exact ⟨texts, htexts, .fold _ hall⟩

theorem foldedFields_returnSection {refs : ReferenceMap} {view : SignatureView}
    {signature : Signature} {blocks : List Block}
    (h : returnSection refs view signature = .ok blocks) :
    ∃ texts, resultTexts refs view signature = .ok texts ∧ FoldedFields texts blocks := by
  unfold returnSection at h
  unfold resultTexts
  split at h
  · next hr =>
    cases h
    exact ⟨[], if_pos hr, .nil⟩
  · next hr =>
    obtain ⟨shown, hshown, h⟩ := bind_eq_ok.1 h
    cases h
    obtain ⟨x, hx, hfield⟩ := isField_returnBlocks hshown
    refine ⟨[x], by rw [if_neg hr, hx]; rfl, ?_⟩
    have hfolded := FoldedFields.fold "Returns" (.cons hfield .nil)
    rwa [List.flatten_singleton] at hfolded

theorem composed_signatureBlocks {refs : ReferenceMap} {view : SignatureView} {name : Text}
    {signature : Signature} {blocks : List Block}
    (h : signatureBlocks refs view name signature = .ok blocks) :
    ∃ texts, signatureTexts refs view signature = .ok texts ∧ Composed texts blocks := by
  rw [signatureBlocks_eq] at h
  obtain ⟨call, hcall, h⟩ := bind_eq_ok.1 h
  obtain ⟨parameters, hparameters, h⟩ := bind_eq_ok.1 h
  obtain ⟨result, hresult, h⟩ := bind_eq_ok.1 h
  cases h
  obtain ⟨texts, htexts, hfields⟩ := foldedFields_parameterSection hparameters
  obtain ⟨more, hmore, hreturned⟩ := foldedFields_returnSection hresult
  refine ⟨_, bind_eq_ok.2 ⟨texts, htexts, bind_eq_ok.2 ⟨more, hmore, rfl⟩⟩, ?_⟩
  exact (((composed_callBlocks hcall).append
    (composed_signatureCommentBlocks view signature.comment)).append hfields.composed).append
      hreturned.composed

/-- Foldable sections, each put together from texts. -/
theorem composed_accordionGroup {textss : List (List Text)} {items : List (Text × List Block)}
    (h : List.Forall₂ (fun texts item => Composed texts item.2) textss items) :
    Composed textss.flatten (Fragment.accordionGroup items) := by
  refine .wrap _ (fun hk => by cases hk) (.flatMap ?_)
  exact h.imp fun _ _ hitem => .wrap _ (fun hk => by cases hk) hitem

theorem composed_propertySection {ctx : PageContext}
    {blocksOf : Declaration → Except DisplayFault (List Block)}
    (textOf : Declaration → Except DisplayFault Text) {properties : List Declaration}
    {blocks : List Block}
    (hall : ∀ property blocks, blocksOf property = .ok blocks →
      ∃ x, textOf property = .ok x ∧ Composed [x] blocks)
    (h : propertySection ctx blocksOf properties = .ok blocks) :
    ∃ texts, properties.mapM textOf = .ok texts ∧ Composed texts blocks := by
  unfold propertySection at h
  split at h
  · next hempty =>
    rw [List.isEmpty_iff.1 hempty]
    cases h
    exact ⟨[], rfl, .nil⟩
  · obtain ⟨shown, hshown, h⟩ := bind_eq_ok.1 h
    cases h
    obtain ⟨texts, htexts, hitems⟩ := exists_mapM_of_forall (g := textOf)
      (R := fun x (item : Text × List Block) => Composed [x] item.2) (fun property _ item h => by
        obtain ⟨blocks, hblocks, h⟩ := bind_eq_ok.1 h
        cases h
        exact hall property blocks hblocks) hshown
    refine ⟨texts, htexts, .cons (.heading (by decide) _) ?_⟩
    split
    · have hflat : texts = (texts.map fun x => [x]).flatten := by
        rw [← List.flatMap_def, List.flatMap_singleton']
      rw [hflat]
      exact composed_accordionGroup (List.forall₂_map_left_iff.2 hitems)
    · exact .flatMap_single (hitems.imp fun _ _ hitem => .cons (.paragraph _) hitem)

theorem composed_constructorSection {ctx : PageContext} {name : Text}
    {constructors : List Declaration} {blocks : List Block}
    (h : constructorSection ctx name constructors = .ok blocks) :
    ∃ textss, constructors.mapM (constructorTexts ctx) = .ok textss ∧
      Composed textss.flatten blocks := by
  unfold constructorSection at h
  split at h
  · next hempty =>
    rw [List.isEmpty_iff.1 hempty]
    cases h
    exact ⟨[], rfl, .nil⟩
  · obtain ⟨shown, hshown, h⟩ := bind_eq_ok.1 h
    cases h
    obtain ⟨textss, htextss, hall⟩ := exists_mapM_of_forall (g := constructorTexts ctx)
      (R := Composed) (fun decl _ blocks h => by
        unfold constructorTexts
        cases hs : decl.signatures with
        | nil =>
            rw [hs] at h
            cases h
            exact ⟨[], rfl, .nil⟩
        | cons first more =>
            rw [hs] at h
            exact composed_signatureBlocks h) hshown
    exact ⟨textss, htextss, .cons (.heading (by decide) _) (.flatten hall)⟩

theorem composed_methodSection {ctx : PageContext} {methods : List MethodView}
    {blocks : List Block} (h : methodSection ctx methods = .ok blocks) :
    ∃ textss, (methods.mapM fun method => signatureTexts ctx.refs {} method.signature) = .ok textss ∧
      Composed textss.flatten blocks := by
  unfold methodSection at h
  split at h
  · next hempty =>
    rw [List.isEmpty_iff.1 hempty]
    cases h
    exact ⟨[], rfl, .nil⟩
  · dsimp only at h
    split at h
    · obtain ⟨items, hitems, h⟩ := bind_eq_ok.1 h
      cases h
      obtain ⟨textss, htextss, hall⟩ := exists_mapM_of_forall
        (g := fun method => signatureTexts ctx.refs {} method.signature)
        (R := fun texts (item : Text × List Block) => Composed texts item.2)
        (fun method _ item h => by
          obtain ⟨title, _, h⟩ := bind_eq_ok.1 h
          obtain ⟨blocks, hblocks, h⟩ := bind_eq_ok.1 h
          cases h
          obtain ⟨texts, htexts, hcomposed⟩ := composed_signatureBlocks hblocks
          exact ⟨texts, htexts, hcomposed⟩) hitems
      exact ⟨textss, htextss, .cons (.heading (by decide) _) (composed_accordionGroup hall)⟩
    · obtain ⟨shown, hshown, h⟩ := bind_eq_ok.1 h
      cases h
      obtain ⟨textss, htextss, hall⟩ := exists_mapM_of_forall
        (g := fun method => signatureTexts ctx.refs {} method.signature)
        (R := Composed) (fun method _ item h => by
          obtain ⟨blocks, hblocks, h⟩ := bind_eq_ok.1 h
          cases h
          obtain ⟨texts, htexts, hcomposed⟩ := composed_signatureBlocks hblocks
          exact ⟨texts, htexts, .cons (.heading (by decide) _) hcomposed⟩) hshown
      exact ⟨textss, htextss, .cons (.heading (by decide) _) (.flatten hall)⟩

theorem composed_contents {layout : Layout} {titles : List Text} {blocks : List Block}
    (h : Fragment.contents layout titles = .ok blocks) : Composed [] blocks := by
  unfold Fragment.contents at h
  split at h
  · cases h
    exact .nil
  · obtain ⟨links, _, h⟩ := bind_eq_ok.1 h
    cases h
    exact .wrap [] (fun _ => rfl) (.paragraph _)

theorem composed_typeLine {ctx : PageContext} {type : Option TypeExpr} {line : Block}
    (h : typeLine ctx type = .ok line) : Composed [] [line] := by
  unfold typeLine at h
  obtain ⟨shown, _, h⟩ := bind_eq_ok.1 h
  obtain ⟨x, _, h⟩ := bind_eq_ok.1 h
  cases h
  exact .paragraph _

theorem composed_classPropertyBlocks {ctx : PageContext} {property : Declaration}
    {blocks : List Block} (h : classPropertyBlocks ctx property = .ok blocks) :
    Composed [propertyDescription property] blocks := by
  unfold classPropertyBlocks at h
  obtain ⟨line, hline, h⟩ := bind_eq_ok.1 h
  cases h
  exact (composed_typeLine hline).append (.prose _)

theorem composed_interfacePropertyBlocks {ctx : PageContext} {property : Declaration}
    {blocks : List Block} (h : interfacePropertyBlocks ctx property = .ok blocks) :
    ∃ x, interfacePropertyText ctx property = .ok x ∧ Composed [x] blocks := by
  unfold interfacePropertyBlocks at h
  obtain ⟨linked, hlinked, h⟩ := bind_eq_ok.1 h
  obtain ⟨x, hx, h⟩ := bind_eq_ok.1 h
  obtain ⟨plain, _, h⟩ := bind_eq_ok.1 h
  obtain ⟨type, _, h⟩ := bind_eq_ok.1 h
  cases h
  exact ⟨x, bind_eq_ok.2 ⟨linked, hlinked, hx⟩, .wrap _ (fun hk => by cases hk) (.prose x)⟩

theorem composed_classBlocks {ctx : PageContext} {decl : Declaration} {blocks : List Block}
    (h : classBlocks ctx decl = .ok blocks) :
    ∃ texts, classTexts ctx decl = .ok texts ∧ Composed texts blocks := by
  unfold classBlocks at h
  obtain ⟨contents, hcontents, h⟩ := bind_eq_ok.1 h
  obtain ⟨constructors, hconstructors, h⟩ := bind_eq_ok.1 h
  obtain ⟨properties, hproperties, h⟩ := bind_eq_ok.1 h
  obtain ⟨methods, hmethods, h⟩ := bind_eq_ok.1 h
  cases h
  obtain ⟨first, hfirst, hcomposed⟩ := composed_constructorSection (mapError_eq_ok.1 hconstructors)
  obtain ⟨second, hsecond, hcomposed'⟩ := composed_propertySection
    (fun property => .ok (propertyDescription property))
    (fun property _ h => ⟨_, rfl, composed_classPropertyBlocks h⟩) (mapError_eq_ok.1 hproperties)
  obtain ⟨third, hthird, hcomposed''⟩ := composed_methodSection (mapError_eq_ok.1 hmethods)
  refine ⟨_, ?_, (((composed_contents (mapError_eq_ok.1 hcontents)).append hcomposed).append
    hcomposed').append hcomposed''⟩
  exact bind_eq_ok.2 ⟨first, hfirst, bind_eq_ok.2 ⟨second, hsecond,
    bind_eq_ok.2 ⟨third, hthird, rfl⟩⟩⟩

theorem composed_interfaceBlocks {ctx : PageContext} {decl : Declaration} {blocks : List Block}
    (h : interfaceBlocks ctx decl = .ok blocks) :
    ∃ texts, (decl.childrenOf .property).mapM (interfacePropertyText ctx) = .ok texts ∧
      Composed texts blocks := by
  unfold interfaceBlocks at h
  dsimp only at h
  split at h
  · next hempty =>
    rw [List.isEmpty_iff.1 hempty]
    cases h
    exact ⟨[], rfl, .nil⟩
  · obtain ⟨contents, hcontents, h⟩ := bind_eq_ok.1 h
    obtain ⟨body, hbody, h⟩ := bind_eq_ok.1 h
    cases h
    obtain ⟨texts, htexts, hcomposed⟩ := composed_propertySection (interfacePropertyText ctx)
      (fun _ _ h => composed_interfacePropertyBlocks h) (mapError_eq_ok.1 hbody)
    exact ⟨texts, htexts, (composed_contents (mapError_eq_ok.1 hcontents)).append hcomposed⟩

theorem composed_functionBlocks {ctx : PageContext} {decl : Declaration} {blocks : List Block}
    (h : functionBlocks ctx decl = .ok blocks) :
    ∃ texts, functionTexts ctx decl = .ok texts ∧ Composed texts blocks := by
  unfold functionBlocks at h
  obtain ⟨shown, hshown, h⟩ := bind_eq_ok.1 h
  cases h
  obtain ⟨textss, htextss, hall⟩ := exists_mapM_of_forall (R := Composed)
    (fun _ _ _ h => composed_signatureBlocks h) hshown
  exact ⟨_, bind_eq_ok.2 ⟨textss, htextss, rfl⟩, .flatten hall⟩

theorem composed_enumBlocks {ctx : PageContext} {decl : Declaration} {blocks : List Block}
    (h : enumBlocks ctx decl = .ok blocks) : Composed [] blocks := by
  unfold enumBlocks at h
  dsimp only at h
  split at h
  · cases h
    exact .nil
  · obtain ⟨contents, hcontents, h⟩ := bind_eq_ok.1 h
    obtain ⟨table, htable, h⟩ := bind_eq_ok.1 h
    cases h
    unfold memberTable Fragment.table at htable
    obtain ⟨x, _, htable⟩ := bind_eq_ok.1 htable
    cases htable
    exact (composed_contents hcontents).append (.cons (.heading (by decide) _) (.paragraph _))

theorem composed_aliasBlocks {ctx : PageContext} {decl : Declaration} {blocks : List Block}
    (h : aliasBlocks ctx decl = .ok blocks) : Composed [] blocks := by
  unfold aliasBlocks at h
  split at h
  · cases h
    exact .nil
  · obtain ⟨line, hline, h⟩ := bind_eq_ok.1 h
    cases h
    exact composed_typeLine hline

theorem composed_kindBlocks {ctx : PageContext} {decl : Declaration} {blocks : List Block}
    (h : kindBlocks ctx decl = .ok blocks) :
    ∃ texts, kindTexts ctx decl = .ok texts ∧ Composed texts blocks := by
  unfold kindBlocks at h
  unfold kindTexts
  cases hk : decl.kind <;> rw [hk] at h
  case classType => exact composed_classBlocks h
  case interfaceType => exact composed_interfaceBlocks h
  case function => exact composed_functionBlocks (mapError_eq_ok.1 h)
  case enumeration => exact ⟨[], rfl, composed_enumBlocks (mapError_eq_ok.1 h)⟩
  case typeAlias => exact ⟨[], rfl, composed_aliasBlocks (mapError_eq_ok.1 h)⟩
  all_goals exact ⟨[], rfl, Except.ok.inj h ▸ .nil⟩

theorem composed_openingBlocks {ctx : PageContext} {placed : Placed} {blocks : List Block}
    (h : openingBlocks ctx placed = .ok blocks) :
    Composed (readUnlessEmpty placed.declaration.pageSummary ++
      commentTexts placed.declaration.comment) blocks := by
  unfold openingBlocks at h
  obtain ⟨frontmatter, hfrontmatter, h⟩ := bind_eq_ok.1 h
  cases h
  unfold Fragment.frontmatter at hfrontmatter
  obtain ⟨x, _, hfrontmatter⟩ := bind_eq_ok.1 hfrontmatter
  cases hfrontmatter
  have htop : Composed [] [{ kind := .frontmatter, text := x }, backLink ctx placed.lineage,
      Block.heading 2 placed.declaration.name] :=
    .cons (.content rfl nofun) (.cons (.paragraph _) (.heading (by decide) _))
  exact (htop.append (composed_richText_unlessEmpty _)).append
    (composed_commentBlocks? placed.declaration.comment)

/-- A page is put together from the texts that are read for it. -/
theorem composed_renderPage {ctx : PageContext} {placed : Placed} {location : Text}
    {doc : Document} (h : renderPage ctx placed location = .ok doc) :
    ∃ texts, pageTexts ctx placed.declaration = .ok texts ∧ Composed texts doc.blocks := by
  unfold renderPage at h
  obtain ⟨opening, hopening, h⟩ := bind_eq_ok.1 h
  obtain ⟨body, hbody, h⟩ := bind_eq_ok.1 h
  cases h
  obtain ⟨texts, htexts, hcomposed⟩ := composed_kindBlocks hbody
  exact ⟨_, bind_eq_ok.2 ⟨texts, htexts, rfl⟩,
    (composed_openingBlocks (mapError_eq_ok.1 hopening)).append hcomposed⟩

end ApiReference
