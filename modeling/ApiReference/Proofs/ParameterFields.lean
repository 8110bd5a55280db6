import ApiReference.Proofs.Fields
import ApiReference.Proofs.WalkedSite

/-! # Parameters on finished pages

The rendered page of a function holds a field for every parameter of every signature, in their order
(`standIn_renderPage`).  Tags in comments share a stack with the tags of the page, so they can close a
field from outside or leave it unclosed; what becomes of each field once the rendered page is linked and
repaired is told exactly by `fields_of_build`.  A field is safe from the tags in all other comments: it
is kept if its own description neither closes a container around it nor leaves a field open. -/

namespace ApiReference

/-! ### Pieces that stand apart -/

/-- The pieces stand among blocks, in their order and apart from one another. -/
inductive StandIn : List (List Block) → List Block → Prop
  | nil (blocks : List Block) : StandIn [] blocks
  | cons (gap : List Block) {piece : List Block} {pieces : List (List Block)} {rest : List Block}
      (h : StandIn pieces rest) : StandIn (piece :: pieces) (gap ++ (piece ++ rest))

namespace StandIn

variable {pieces more : List (List Block)} {a b : List Block}

theorem prepend (gap : List Block) (h : StandIn pieces a) : StandIn pieces (gap ++ a) := by
  cases h with
  | nil => exact .nil _
  | cons gap' h =>
      rw [← List.append_assoc]
      exact .cons _ h

theorem append (h : StandIn pieces a) (h' : StandIn more b) : StandIn (pieces ++ more) (a ++ b) := by
  induction h with
  | nil blocks => exact h'.prepend blocks
  | cons gap _ ih =>
      rw [List.append_assoc, List.append_assoc]
      exact .cons gap ih

theorem flatten (pieces : List (List Block)) : StandIn pieces pieces.flatten := by
  induction pieces with
  | nil => exact .nil []
  | cons piece pieces ih => exact .cons [] ih

/-- Pieces of parts that stand one after another. -/
theorem flatten_of_forall {piecess : List (List (List Block))} {parts : List (List Block)}
    (h : List.Forall₂ StandIn piecess parts) : StandIn piecess.flatten parts.flatten := by
  induction h with
  | nil => exact .nil []
  | cons hfirst _ ih => exact hfirst.append ih

theorem map (f : Block → Block) (h : StandIn pieces a) :
    StandIn (pieces.map (List.map f)) (a.map f) := by
  induction h with
  | nil blocks => exact .nil _
  | cons gap _ ih =>
      rw [List.map_append, List.map_append]
      exact .cons _ ih

end StandIn

/-! ### Fields of a function page -/

/-- The fields of all parameters of a declaration, one list for each signature. -/
def parameterFields (refs : ReferenceMap) (decl : Declaration) :
    Except DisplayFault (List (List (List Block))) :=
  decl.signatures.mapM fun signature => signature.parameters.mapM (parameterBlocks refs)

/-- A parameter is shown as a field. -/
theorem exists_wrap_of_parameterBlocks {refs : ReferenceMap} {parameter : Parameter}
    {field : List Block} (h : parameterBlocks refs parameter = .ok field) :
    ∃ attributes content, field = Fragment.wrap "ParamField" content attributes := by
  unfold parameterBlocks at h
  obtain ⟨linked, _, h⟩ := bind_eq_ok.1 h
  obtain ⟨plain, _, h⟩ := bind_eq_ok.1 h
  obtain ⟨description, _, h⟩ := bind_eq_ok.1 h
  obtain ⟨x, _, h⟩ := bind_eq_ok.1 h
  obtain ⟨type, _, h⟩ := bind_eq_ok.1 h
  cases h
  exact ⟨_, _, rfl⟩

theorem exists_wrap_of_parameterFields {refs : ReferenceMap} {decl : Declaration}
    {fieldss : List (List (List Block))} (h : parameterFields refs decl = .ok fieldss) :
    ∀ field ∈ fieldss.flatten,
      ∃ attributes content, field = Fragment.wrap "ParamField" content attributes := by
  intro field hm
  obtain ⟨fields, hfields, hm⟩ := List.mem_flatten.1 hm
  obtain ⟨signature, _, hsignature⟩ := exists_of_mem_mapM h fields hfields
  obtain ⟨parameter, _, hparameter⟩ := exists_of_mem_mapM hsignature field hm
  exact exists_wrap_of_parameterBlocks hparameter

theorem standIn_signatureBlocks {refs : ReferenceMap} {view : SignatureView} {name : Text}
    {signature : Signature} {blocks : List Block}
    (h : signatureBlocks refs view name signature = .ok blocks) :
    ∃ fields, signature.parameters.mapM (parameterBlocks refs) = .ok fields ∧
      StandIn fields blocks := by
  rw [signatureBlocks_eq] at h
  obtain ⟨call, _, h⟩ := bind_eq_ok.1 h
  obtain ⟨parameters, hparameters, h⟩ := bind_eq_ok.1 h
  obtain ⟨result, _, h⟩ := bind_eq_ok.1 h
  cases h
  unfold parameterSection at hparameters
  split at hparameters
  · next hempty =>
    rw [List.isEmpty_iff.1 hempty]
    exact ⟨[], rfl, .nil _⟩
  · obtain ⟨fields, hfields, hparameters⟩ := bind_eq_ok.1 hparameters
    cases hparameters
    refine ⟨fields, hfields, ?_⟩
    have hsection : StandIn fields (Fragment.expandable "Parameters" fields.flatten false) := by
      have h := (StandIn.flatten fields).append (.nil [Block.closeTag "Expandable"])
      rw [List.append_nil] at h
      exact h.prepend [_]
    have h := ((hsection.prepend (call ++ signatureCommentBlocks view signature.comment)).append
      (.nil result))
    rwa [List.append_nil] at h

theorem standIn_functionBlocks {ctx : PageContext} {decl : Declaration} {blocks : List Block}
    (h : functionBlocks ctx decl = .ok blocks) :
    ∃ fieldss, parameterFields ctx.refs decl = .ok fieldss ∧ StandIn fieldss.flatten blocks := by
  unfold functionBlocks at h
  obtain ⟨shown, hshown, h⟩ := bind_eq_ok.1 h
  cases h
  obtain ⟨fieldss, hfieldss, hall⟩ := exists_mapM_of_forall (R := StandIn)
    (fun _ _ _ h => standIn_signatureBlocks h) hshown
  exact ⟨fieldss, hfieldss, .flatten_of_forall hall⟩

theorem standIn_renderPage {ctx : PageContext} {placed : Placed} {location : Text} {doc : Document}
    (h : renderPage ctx placed location = .ok doc) (hk : placed.declaration.kind = .function) :
    ∃ fieldss, parameterFields ctx.refs placed.declaration = .ok fieldss ∧
      StandIn fieldss.flatten doc.blocks := by
  unfold renderPage at h
  obtain ⟨opening, _, h⟩ := bind_eq_ok.1 h
  obtain ⟨body, hbody, h⟩ := bind_eq_ok.1 h
  cases h
  unfold kindBlocks at hbody
  rw [hk] at hbody
  obtain ⟨fieldss, hfieldss, hstand⟩ := standIn_functionBlocks (mapError_eq_ok.1 hbody)
  exact ⟨fieldss, hfieldss, hstand.prepend opening⟩

/-! ### What becomes of a field -/

/-- What becomes of a field when the blocks around it are repaired with it. -/
structure FieldFate (maxLevel : Int) (before : List Block) (tag : Block) (content : List Block)
    (closing : Block) (after repaired : List Block) : Prop where
  /-- A field that is kept stays whole, with its content repaired by itself. -/
  whole : ∀ own other rest, content ++ closing :: after = own ++ other :: rest →
    KeepsField maxLevel before tag own other →
    ∃ front back, RepairedFrom maxLevel before front ∧ RepairedFrom maxLevel rest back ∧
      repaired = front ++ tag :: (repairBlocks maxLevel own ++ other :: back)
  /-- The opening tag of a field that is not kept is gone. -/
  lost : (∀ own other rest, content ++ closing :: after = own ++ other :: rest →
      ¬ KeepsField maxLevel before tag own other) →
    RepairedFrom maxLevel (before ++ (content ++ closing :: after)) repaired
  /-- A field is kept if its content neither leaves a container of its name open nor closes one
  around, whatever the other blocks are. -/
  safe : repairBlocks maxLevel content ≠ [] → tag.name ∉ openedBlocks [] content →
    (∀ name ∈ strayNames [] content, name ∉ tag.name :: openedBlocks [] before) →
    KeepsField maxLevel before tag content closing
  /-- An opening tag that stands nowhere else is found if and only if its field is kept. -/
  found : tag ∉ before → tag ∉ content ++ closing :: after →
    (tag ∈ repaired ↔ ∃ own other rest, content ++ closing :: after = own ++ other :: rest ∧
      KeepsField maxLevel before tag own other)

theorem fieldFate (maxLevel : Int) (before : List Block) (tag : Block) (content : List Block)
    (closing : Block) (after : List Block) (ho : tag.opens = true)
    (hf : Block.isFieldName tag.name = true) (hc : closing.closes = true)
    (hname : closing.name = tag.name) :
    FieldFate maxLevel before tag content closing after
      (repairBlocks maxLevel (before ++ tag :: (content ++ closing :: after))) where
  whole := by
    intro own other rest e hkeeps
    rw [e]
    exact repairBlocks_of_keepsField rest ho hkeeps
  lost := repairedFrom_of_not_keepsField ho hf
  safe hfilled hopen hstray := ⟨closesAfter_own hc hname hopen hstray, hfilled⟩
  found := by
    intro hbefore hafter
    constructor
    · intro hm
      by_contra hno
      have hnone : ∀ own other rest, content ++ closing :: after = own ++ other :: rest →
          ¬ KeepsField maxLevel before tag own other :=
        fun own other rest e hk => hno ⟨own, other, rest, e, hk⟩
      have hlost := repairedFrom_of_not_keepsField ho hf hnone
      have hm' := hlost.mem_of_isContainer (isContainer_of_opens ho) hm
      exact (List.mem_append.1 hm').elim hbefore hafter
    · rintro ⟨own, other, rest, e, hk⟩
      obtain ⟨front, back, _, _, hwhole⟩ := repairBlocks_of_keepsField rest ho hk
      rw [e, hwhole]
      exact List.mem_append_right _ List.mem_cons_self

/-- How the fields of a function fare from the rendered page to the finished one.  There is a field for
each parameter of each signature. -/
structure FieldsFare (refs : ReferenceMap) (decl : Declaration) (rendered page : Document)
    (fieldss : List (List (List Block))) : Prop where
  made : parameterFields refs decl = .ok fieldss
  /-- Every field is a container with the tags that are made for it. -/
  container : ∀ field ∈ fieldss.flatten,
    ∃ attributes content, field = Fragment.wrap "ParamField" content attributes
  /-- The rendered page holds the fields, one after another. -/
  standing : StandIn fieldss.flatten rendered.blocks
  /-- The finished page is the rendered one, linked and repaired. -/
  finished : page = (rendered.link refs.linkTable).repair maxHeadingLevel
  /-- What becomes of a field, wherever it stands on the linked page. -/
  fate : ∀ attributes content, Fragment.wrap "ParamField" content attributes ∈ fieldss.flatten →
    ∀ before after,
      (rendered.link refs.linkTable).blocks = before ++
        (Fragment.wrap "ParamField" (content.map (linkBlock refs.linkTable)) attributes ++ after) →
      FieldFate maxHeadingLevel before (Block.openTag "ParamField" attributes false)
        (content.map (linkBlock refs.linkTable)) (Block.closeTag "ParamField") after page.blocks

theorem fieldsFare_of_renderPage {ctx : PageContext} {placed : Placed} {location : Text}
    {rendered : Document} (h : renderPage ctx placed location = .ok rendered)
    (hk : placed.declaration.kind = .function) :
    ∃ fieldss, FieldsFare ctx.refs placed.declaration rendered
      ((rendered.link ctx.refs.linkTable).repair maxHeadingLevel) fieldss := by
  obtain ⟨fieldss, hfieldss, hstand⟩ := standIn_renderPage h hk
  refine ⟨fieldss, hfieldss, exists_wrap_of_parameterFields hfieldss, hstand, rfl,
    fun attributes content _ before after hplace => ?_⟩
  have hfate := fieldFate maxHeadingLevel before (Block.openTag "ParamField" attributes false)
    (content.map (linkBlock ctx.refs.linkTable)) (Block.closeTag "ParamField") after rfl rfl rfl rfl
  have hpage : ((rendered.link ctx.refs.linkTable).repair maxHeadingLevel).blocks =
      repairBlocks maxHeadingLevel (rendered.link ctx.refs.linkTable).blocks := rfl
  rw [hpage, hplace, Fragment.wrap, List.cons_append, List.cons_append, List.append_assoc,
    List.singleton_append]
  exact hfate

namespace Site

/-- The rendered page of every function holds a field for every parameter of every signature.
Repairing the linked page keeps a field whole, with its content repaired by itself, if some tag closes
it and something is left of its content; otherwise its opening tag is gone.  It is kept in particular
where the description of the parameter neither closes a container around the field nor leaves a field
open, whatever tags there are elsewhere.  A site is made of every tree whose types can be shown. -/
theorem fields_of_build (plan : Plan) (root : Declaration) :
    (∀ site log, build plan root = .ok (site, log) →
      List.Forall₂ (fun placed page => placed.declaration.kind = .function →
          ∃ rendered fieldss,
            renderPage (contextFor plan root) placed page.location = .ok rendered ∧
              FieldsFare site.refs placed.declaration rendered page fieldss)
        (pageWorthy (root.preorder [])) site.pages) ∧
      (plan.layout.LaysOut → root.wellNamed = true → Succeeds (build plan root)) := by
  refine ⟨fun site log h => (followsWalk_of_build h).pages.imp fun placed page hpage hk => ?_,
    succeeds_build⟩
  obtain ⟨-, -, rendered, hrendered, hpage⟩ := hpage
  obtain ⟨fieldss, hfare⟩ := fieldsFare_of_renderPage hrendered hk
  rw [← refs_of_build h] at hfare
  exact ⟨rendered, fieldss, hrendered, hpage ▸ hfare⟩

/-- A function whose first parameter is described with a closing tag of the part that holds both
fields. -/
def resizeFunction : Declaration where
  name := "resize"
  kind := .function
  comment := none
  signatures := [
    { name := "resize"
      parameters := [
        { name := "width"
          type := some (.intrinsic "number")
          flags := {}
          comment := some { summary := "Pixels.\n\n</Expandable>" } },
        { name := "scale"
          type := some (.intrinsic "number")
          flags := {}
          comment := some { summary := "The factor.\n\n<Note>" } }]
      type := none
      comment := none }]
  children := []
  type := none
  flags := {}
  defaultValue := none

/-- The project of that function. -/
def resizeProject : Declaration where
  name := "sdk"
  kind := .project
  comment := none
  signatures := []
  children := [resizeFunction]
  type := none
  flags := {}
  defaultValue := none

/-- The attributes of the field that is made for a parameter of that function. -/
def resizeAttributes (name : Text) : Text := "path=\"" ++ name ++ "\" type=\"number\" required"

/-- The opening tag that is made for a parameter of that function. -/
def resizeTag (name : Text) : Block := Block.openTag "ParamField" (resizeAttributes name) false

/-- What is said about the first parameter. -/
def widthContent : List Block := [Block.paragraph "Pixels.", Block.closeTag "Expandable"]

/-- What is said about the second parameter. -/
def scaleContent : List Block := [Block.paragraph "The factor.", Block.openTag "Note" [] false]

/-- The blocks before the fields on the rendered page. -/
def resizeHead : List Block := [
  { kind := .frontmatter
    text := "---\ntitle: \"resize\"\ndescription: \"Call resize to resize.\"\n---" },
  Block.paragraph "[← Back to API Reference](/api/index)",
  Block.heading 2 "resize",
  Block.paragraph "\x60resize(width: number, scale: number): void\x60",
  Block.openTag "Expandable" "title=\"Parameters\"" false]

/-- The fields of the function. -/
def resizeFields : List (List Block) := [
  Fragment.wrap "ParamField" widthContent (resizeAttributes "width"),
  Fragment.wrap "ParamField" scaleContent (resizeAttributes "scale")]

/-- The place of the function in the project. -/
def placedResize : Placed := ⟨resizeFunction, [resizeProject.asAncestor]⟩

theorem pageWorthy_resizeProject : pageWorthy (resizeProject.preorder []) = [placedResize] := by
  rw [← Declaration.walk_eq_preorder]
  simp [Declaration.walk, Placed.visit, Placed.children, pageWorthy, resizeProject, resizeFunction,
    Kind.hasPage, placedResize]

/-- The closing tag in its description is the first one that names a container around the first
field, so no tag closes the field. -/
theorem not_keepsField_width {after own rest : List Block} {other : Block}
    (e : widthContent ++ Block.closeTag "ParamField" :: after = own ++ other :: rest) :
    ¬ KeepsField maxHeadingLevel resizeHead (resizeTag "width") own other := by
  rintro ⟨⟨hcloses, hname, hinner⟩, -⟩
  rw [widthContent, List.cons_append, List.cons_append] at e
  match own with
  | [] =>
      obtain rfl := (List.cons.inj e).1
      exact absurd hcloses (by decide)
  | [_] =>
      obtain rfl := (List.cons.inj (List.cons.inj e).2).1
      exact absurd hname (by decide)
  | first :: second :: own =>
      obtain ⟨hfirst, hmore⟩ := List.cons.inj e
      obtain ⟨hsecond, -⟩ := List.cons.inj hmore
      rw [← hfirst, ← hsecond] at hinner
      have hstray : ("Expandable" : Text) ∈
          strayNames [] (Block.paragraph "Pixels." :: Block.closeTag "Expandable" :: own) :=
        List.mem_cons_self
      exact hinner _ hstray (by decide)

/-- The second field is closed by its own tag, although its description leaves a container open. -/
theorem keepsField_scale {before : List Block} {after repaired : List Block}
    (h : FieldFate maxHeadingLevel before (resizeTag "scale") scaleContent
      (Block.closeTag "ParamField") after repaired) :
    ∃ front back, repaired = front ++ resizeTag "scale" ::
      (repairBlocks maxHeadingLevel scaleContent ++ Block.closeTag "ParamField" :: back) := by
  have hstray : strayNames [] scaleContent = [] := by decide
  have hkept := h.safe (by decide +kernel) (by decide) (by rw [hstray]; exact nofun)
  obtain ⟨front, back, -, -, e⟩ := h.whole _ _ after rfl hkept
  exact ⟨front, back, e⟩

/-- The fields that are made for the parameters. -/
theorem fields_resize {fieldss : List (List (List Block))}
    (h : parameterFields (contextFor {} resizeProject).refs resizeFunction = .ok fieldss) :
    fieldss.flatten = resizeFields := by
  have hfields : (parameterFields (contextFor {} resizeProject).refs resizeFunction).toOption.all
      fun fieldss => fieldss.flatten == resizeFields := by
    decide +kernel
  have hsame := of_all_toOption hfields h
  exact eq_of_beq hsame

/-- The blocks of the linked page. -/
theorem linked_resize {rendered : Document}
    (h : renderPage (contextFor {} resizeProject) placedResize "functions/resize" = .ok rendered) :
    (rendered.link (contextFor {} resizeProject).refs.linkTable).blocks =
      resizeHead ++ (resizeFields.flatten ++ [Block.closeTag "Expandable"]) := by
  have hlinked : (renderPage (contextFor {} resizeProject) placedResize
      "functions/resize").toOption.all fun rendered =>
        (rendered.link (contextFor {} resizeProject).refs.linkTable).blocks ==
          resizeHead ++ (resizeFields.flatten ++ [Block.closeTag "Expandable"]) := by
    decide +kernel
  have hsame := of_all_toOption hlinked h
  exact eq_of_beq hsame

/-- How both fields fare: the first one is lost, and the second one stays whole. -/
theorem fates_resize {rendered page : Document} {fieldss : List (List (List Block))}
    (h : renderPage (contextFor {} resizeProject) placedResize "functions/resize" = .ok rendered)
    (hfare : FieldsFare (contextFor {} resizeProject).refs resizeFunction rendered page fieldss) :
    resizeTag "width" ∉ page.blocks ∧
      ∃ front back, page.blocks = front ++ resizeTag "scale" ::
        (repairBlocks maxHeadingLevel scaleContent ++ Block.closeTag "ParamField" :: back) := by
  have hfields := fields_resize hfare.made
  have hlinked := linked_resize h
  have hwidth : widthContent.map (linkBlock (contextFor {} resizeProject).refs.linkTable) =
      widthContent := by
    decide +kernel
  have hscale : scaleContent.map (linkBlock (contextFor {} resizeProject).refs.linkTable) =
      scaleContent := by
    decide +kernel
  constructor
  · have hfate := hfare.fate (resizeAttributes "width") widthContent
      (by simp [hfields, resizeFields]) resizeHead
      (Fragment.wrap "ParamField" scaleContent (resizeAttributes "scale") ++
        [Block.closeTag "Expandable"])
      (by rw [hlinked, hwidth]; simp [resizeFields])
    rw [hwidth] at hfate
    intro hm
    obtain ⟨own, other, rest, e, hkept⟩ := (hfate.found (by decide) (by decide)).1 hm
    exact not_keepsField_width e hkept
  · have hfate := hfare.fate (resizeAttributes "scale") scaleContent
      (by simp [hfields, resizeFields])
      (resizeHead ++ Fragment.wrap "ParamField" widthContent (resizeAttributes "width"))
      [Block.closeTag "Expandable"] (by rw [hlinked, hscale]; simp [resizeFields])
    rw [hscale] at hfate
    exact keepsField_scale hfate

/-- The site of the project has one page. -/
theorem exists_resizePage :
    ∃ site log page, build {} resizeProject = .ok (site, log) ∧ site.pages = [page] ∧
      page.location = "functions/resize" ∧ ∃ rendered,
        renderPage (contextFor {} resizeProject) placedResize "functions/resize" = .ok rendered ∧
          page = (rendered.link site.refs.linkTable).repair maxHeadingLevel := by
  have hsucceeds : Succeeds (build {} resizeProject) :=
    succeeds_build laysOut_standard (by decide +kernel)
  obtain ⟨⟨site, log⟩, h⟩ := hsucceeds
  have hpages := (followsWalk_of_build h).pages
  rw [pageWorthy_resizeProject] at hpages
  obtain ⟨page, _, ⟨-, hlocation, rendered, hrendered, hpage⟩, hnil, hsite⟩ :=
    List.forall₂_cons_left_iff.1 hpages
  rw [List.forall₂_nil_left_iff.1 hnil] at hsite
  have hplace : page.location = "functions/resize" := hlocation.trans (by decide +kernel)
  rw [hplace] at hrendered
  exact ⟨site, log, page, h, hsite, hplace, rendered, hrendered, hpage⟩

/-- The first field is lost to the closing tag in its description, and the second one stays whole
although a container is left open in it. -/
theorem fields_of_build_resize :
    ∃ site log page rendered fieldss, build {} resizeProject = .ok (site, log) ∧
      site.pages = [page] ∧
      renderPage (contextFor {} resizeProject) placedResize page.location = .ok rendered ∧
      FieldsFare site.refs resizeFunction rendered page fieldss ∧ fieldss.flatten = resizeFields ∧
      resizeTag "width" ∉ page.blocks ∧
      ∃ front back, page.blocks = front ++ resizeTag "scale" ::
        (repairBlocks maxHeadingLevel scaleContent ++ Block.closeTag "ParamField" :: back) := by
  obtain ⟨site, log, page, h, hpages, hplace, -⟩ := exists_resizePage
  have hall := (fields_of_build {} resizeProject).1 site log h
  rw [pageWorthy_resizeProject, hpages, List.forall₂_cons] at hall
  obtain ⟨rendered, fieldss, hrendered, hfare⟩ := hall.1 rfl
  refine ⟨site, log, page, rendered, fieldss, h, hpages, hrendered, hfare, ?_⟩
  rw [hplace] at hrendered
  rw [refs_of_build h] at hfare
  exact ⟨fields_resize hfare.made, fates_resize hrendered hfare⟩

/-- A closing tag in the description of a parameter takes the opening tag of its field away. -/
theorem field_lost_of_closingTag :
    ∃ site log page fieldss field, build {} resizeProject = .ok (site, log) ∧ site.pages = [page] ∧
      parameterFields site.refs resizeFunction = .ok fieldss ∧ field ∈ fieldss.flatten ∧
      field.head? = some (resizeTag "width") ∧ (resizeTag "width").opens = true ∧
      resizeTag "width" ∉ page.blocks := by
  obtain ⟨site, log, page, h, hpages, -, rendered, hrendered, hpage⟩ := exists_resizePage
  rw [refs_of_build h] at hpage
  obtain ⟨fieldss, hfare⟩ := fieldsFare_of_renderPage hrendered rfl
  have hlost := (fates_resize hrendered hfare).1
  rw [← hpage] at hlost
  have hfield : Fragment.wrap "ParamField" widthContent (resizeAttributes "width") ∈
      fieldss.flatten := by
    simp [fields_resize hfare.made, resizeFields]
  exact ⟨site, log, page, fieldss, _, h, hpages, refs_of_build h ▸ hfare.made, hfield, rfl, rfl, hlost⟩

end Site

end ApiReference
