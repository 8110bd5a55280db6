import ApiReference.Proofs.PageAssembly

/-! # Trees whose pages can be rendered

The only types that may not be shown are those of an unknown variant to which the input gives a name
that is no text.  In a tree without them (`Declaration.wellNamed`) every type is shown as a text
(`exists_show`), so every page is rendered and, with layouts that lay everything out, the whole site
is made (`Site.succeeds_build`). -/

namespace ApiReference

/-! ### Well-named trees -/

mutual

/-- The names of unknown variants in a type are texts, where they are given. -/
def TypeExpr.wellNamed : TypeExpr → Bool
  | .intrinsic _ | .literal _ | .query _ => true
  | .reference _ arguments => wellNamedAll arguments
  | .array element => wellNamedPart element
  | .union members | .intersection members | .tuple members => wellNamedAll members
  | .reflection none members => wellNamedDeclarations members
  | .reflection (some signature) members => signature.wellNamed && wellNamedDeclarations members
  | .conditional check bound whenTrue whenFalse =>
    wellNamedPart check && wellNamedPart bound && wellNamedPart whenTrue && wellNamedPart whenFalse
  | .indexedAccess object index => wellNamedPart object && wellNamedPart index
  | .predicate _ target => wellNamedPart target
  | .unknown _ (.str _) => true
  | .unknown _ text => text.isVoid

/-- The same for a part of a type that may be missing. -/
def wellNamedPart : Option TypeExpr → Bool
  | none => true
  | some type => type.wellNamed

/-- The same for types. -/
def wellNamedAll : List TypeExpr → Bool
  | [] => true
  | type :: more => type.wellNamed && wellNamedAll more

/-- The same for parameters. -/
def wellNamedParameters : List Parameter → Bool
  | [] => true
  | ⟨_, type, _, _⟩ :: more => wellNamedPart type && wellNamedParameters more

/-- The same for a signature. -/
def Signature.wellNamed : Signature → Bool
  | ⟨_, parameters, type, _⟩ => wellNamedParameters parameters && wellNamedPart type

/-- The same for signatures. -/
def wellNamedSignatures : List Signature → Bool
  | [] => true
  | signature :: more => signature.wellNamed && wellNamedSignatures more

/-- The same for a declaration with all below it. -/
def Declaration.wellNamed : Declaration → Bool
  | ⟨_, _, _, signatures, children, type, _, _⟩ =>
    wellNamedSignatures signatures && wellNamedDeclarations children && wellNamedPart type

/-- The same for declarations. -/
def wellNamedDeclarations : List Declaration → Bool
  | [] => true
  | decl :: more => decl.wellNamed && wellNamedDeclarations more

end

/-! ### Types are shown -/

theorem joinTexts_str (sep : Text) (texts : List Text) :
    joinTexts sep (texts.map .str) = .ok (Text.joinWith sep texts) := by
  refine bind_eq_ok.2 ⟨texts, ?_, rfl⟩
  rw [mapM_eq_ok_iff, List.forall₂_map_left_iff]
  exact List.forall₂_same.2 fun _ _ => rfl

mutual

theorem exists_show (links : Links) : ∀ (type : TypeExpr), type.wellNamed = true →
    ∃ x, type.show links = .ok (.str x)
  | .intrinsic name, _ => ⟨name, by rw [TypeExpr.show]⟩
  | .literal value, _ => ⟨value.render, by rw [TypeExpr.show]⟩
  | .query name, _ => ⟨_, by rw [TypeExpr.show]⟩
  | .reference name [], _ => ⟨shownName links name, by rw [TypeExpr.show]; rfl⟩
  | .reference name (first :: more), h => by
      rw [TypeExpr.wellNamed] at h
      obtain ⟨texts, htexts⟩ := exists_showAll links (first :: more) h
      exact ⟨_, by rw [TypeExpr.show, htexts, ok_bind, joinTexts_str]; rfl⟩
  | .array element, h => by
      rw [TypeExpr.wellNamed] at h
      obtain ⟨x, hx⟩ := exists_showPart links element h
      exact ⟨_, by rw [TypeExpr.show, hx]; rfl⟩
  | .union members, h => by
      rw [TypeExpr.wellNamed] at h
      obtain ⟨texts, htexts⟩ := exists_showAll links members h
      exact ⟨_, by rw [TypeExpr.show, htexts, ok_bind, joinTexts_str]; rfl⟩
  | .intersection members, h => by
      rw [TypeExpr.wellNamed] at h
      obtain ⟨texts, htexts⟩ := exists_showAll links members h
      exact ⟨_, by rw [TypeExpr.show, htexts, ok_bind, joinTexts_str]; rfl⟩
  | .tuple elements, h => by
      rw [TypeExpr.wellNamed] at h
      obtain ⟨texts, htexts⟩ := exists_showAll links elements h
      exact ⟨_, by rw [TypeExpr.show, htexts, ok_bind, joinTexts_str]; rfl⟩
  | .reflection none [], _ => ⟨_, by rw [TypeExpr.show]⟩
  | .reflection none (first :: more), h => by
      rw [TypeExpr.wellNamed] at h
      obtain ⟨shown, hshown⟩ := exists_showMembers links (first :: more) h
      exact ⟨_, by rw [TypeExpr.show, hshown]; rfl⟩
  | .reflection (some ⟨_, parameters, type, _⟩) _, h => by
      rw [TypeExpr.wellNamed, Signature.wellNamed, Bool.and_eq_true, Bool.and_eq_true] at h
      obtain ⟨shown, hshown⟩ := exists_showParameters links parameters h.1.1
      obtain ⟨x, hx⟩ := exists_showPart links type h.1.2
      exact ⟨_, by rw [TypeExpr.show, hshown, hx]; rfl⟩
  | .conditional check bound whenTrue whenFalse, h => by
      rw [TypeExpr.wellNamed, Bool.and_eq_true, Bool.and_eq_true, Bool.and_eq_true] at h
      obtain ⟨a, ha⟩ := exists_showPart links check h.1.1.1
      obtain ⟨b, hb⟩ := exists_showPart links bound h.1.1.2
      obtain ⟨c, hc⟩ := exists_showPart links whenTrue h.1.2
      obtain ⟨d, hd⟩ := exists_showPart links whenFalse h.2
      exact ⟨_, by rw [TypeExpr.show, ha, hb, hc, hd]; rfl⟩
  | .indexedAccess object index, h => by
      rw [TypeExpr.wellNamed, Bool.and_eq_true] at h
      obtain ⟨a, ha⟩ := exists_showPart links object h.1
      obtain ⟨b, hb⟩ := exists_showPart links index h.2
      exact ⟨_, by rw [TypeExpr.show, ha, hb]; rfl⟩
  | .predicate name target, h => by
      rw [TypeExpr.wellNamed] at h
      obtain ⟨x, hx⟩ := exists_showPart links target h
      exact ⟨_, by rw [TypeExpr.show, hx]; rfl⟩
  | .unknown _ text, h => by
      by_cases hvoid : text.isVoid = true
      · exact ⟨"any", by rw [TypeExpr.show, Json.orText, if_pos hvoid]⟩
      · cases text with
        | str x => exact ⟨x, by rw [TypeExpr.show, Json.orText, if_neg hvoid]⟩
        | _ => exact absurd (by simpa [TypeExpr.wellNamed] using h) hvoid

theorem exists_showPart (links : Links) : ∀ (type : Option TypeExpr), wellNamedPart type = true →
    ∃ x, showPart links type = .ok (.str x)
  | none, _ => ⟨"any", by rw [showPart]⟩
  | some type, h => by
      rw [wellNamedPart] at h
      obtain ⟨x, hx⟩ := exists_show links type h
      exact ⟨x, by rw [showPart, hx]⟩

theorem exists_showAll (links : Links) : ∀ (types : List TypeExpr), wellNamedAll types = true →
    ∃ texts : List Text, showAll links types = .ok (texts.map .str)
  | [], _ => ⟨[], by rw [showAll]; rfl⟩
  | type :: more, h => by
      rw [wellNamedAll, Bool.and_eq_true] at h
      obtain ⟨x, hx⟩ := exists_show links type h.1
      obtain ⟨texts, htexts⟩ := exists_showAll links more h.2
      exact ⟨x :: texts, by rw [showAll, hx, htexts]; rfl⟩

theorem exists_showParameters (links : Links) : ∀ (parameters : List Parameter),
    wellNamedParameters parameters = true → ∃ texts, showParameters links parameters = .ok texts
  | [], _ => ⟨[], by rw [showParameters]⟩
  | ⟨name, type, flags, _⟩ :: more, h => by
      rw [wellNamedParameters, Bool.and_eq_true] at h
      obtain ⟨x, hx⟩ := exists_showPart links type h.1
      obtain ⟨texts, htexts⟩ := exists_showParameters links more h.2
      exact ⟨_, by rw [showParameters, hx, htexts]; rfl⟩

theorem exists_showMembers (links : Links) : ∀ (members : List Declaration),
    wellNamedDeclarations members = true → ∃ texts, showMembers links members = .ok texts
  | [], _ => ⟨[], by rw [showMembers]⟩
  | ⟨name, _, _, ⟨_, parameters, result, _⟩ :: _, _, none, flags, _⟩ :: more, h => by
      rw [wellNamedDeclarations, Declaration.wellNamed, wellNamedSignatures, Signature.wellNamed]
        at h
      simp only [Bool.and_eq_true] at h
      obtain ⟨shown, hshown⟩ := exists_showParameters links parameters h.1.1.1.1.1
      obtain ⟨x, hx⟩ := exists_showPart links result h.1.1.1.1.2
      obtain ⟨texts, htexts⟩ := exists_showMembers links more h.2
      exact ⟨_, by rw [showMembers, hshown, hx, htexts]; rfl⟩
  | ⟨name, _, _, _, _, some type, flags, _⟩ :: more, h => by
      rw [wellNamedDeclarations, Declaration.wellNamed, wellNamedPart] at h
      simp only [Bool.and_eq_true] at h
      obtain ⟨x, hx⟩ := exists_show links type h.1.2
      obtain ⟨texts, htexts⟩ := exists_showMembers links more h.2
      rw [showMembers, showPart, hx, htexts]
      · exact ⟨_, rfl⟩
      · nofun
  | ⟨name, _, _, [], _, none, flags, _⟩ :: more, h => by
      rw [wellNamedDeclarations, Bool.and_eq_true] at h
      obtain ⟨texts, htexts⟩ := exists_showMembers links more h.2
      rw [showMembers, showPart, htexts]
      · exact ⟨_, rfl⟩
      · nofun

end

/-! ### Parts of well-named trees -/

theorem wellNamed_of_mem_declarations {decls : List Declaration} {decl : Declaration}
    (h : wellNamedDeclarations decls = true) (hm : decl ∈ decls) : decl.wellNamed = true := by
  induction decls with
  | nil => cases hm
  | cons first decls ih =>
      rw [wellNamedDeclarations, Bool.and_eq_true] at h
      rcases List.mem_cons.1 hm with rfl | hm
      · exact h.1
      · exact ih h.2 hm

theorem wellNamed_of_mem_signatures {signatures : List Signature} {signature : Signature}
    (h : wellNamedSignatures signatures = true) (hm : signature ∈ signatures) :
    signature.wellNamed = true := by
  induction signatures with
  | nil => cases hm
  | cons first signatures ih =>
      rw [wellNamedSignatures, Bool.and_eq_true] at h
      rcases List.mem_cons.1 hm with rfl | hm
      · exact h.1
      · exact ih h.2 hm

theorem wellNamedPart_of_mem_parameters {parameters : List Parameter} {parameter : Parameter}
    (h : wellNamedParameters parameters = true) (hm : parameter ∈ parameters) :
    wellNamedPart parameter.type = true := by
  induction parameters with
  | nil => cases hm
  | cons first parameters ih =>
      obtain ⟨_, _, _, _⟩ := first
      rw [wellNamedParameters, Bool.and_eq_true] at h
      rcases List.mem_cons.1 hm with rfl | hm
      · exact h.1
      · exact ih h.2 hm

theorem Signature.wellNamed_iff {signature : Signature} : signature.wellNamed = true ↔
    wellNamedParameters signature.parameters = true ∧ wellNamedPart signature.type = true := by
  obtain ⟨_, _, _, _⟩ := signature
  rw [Signature.wellNamed, Bool.and_eq_true]

namespace Declaration

variable {decl : Declaration}

theorem wellNamed_iff : decl.wellNamed = true ↔ wellNamedSignatures decl.signatures = true ∧
    wellNamedDeclarations decl.children = true ∧ wellNamedPart decl.type = true := by
  obtain ⟨_, _, _, _, _, _, _, _⟩ := decl
  rw [Declaration.wellNamed, Bool.and_eq_true, Bool.and_eq_true, and_assoc]

theorem wellNamed_of_mem_childrenOf (h : decl.wellNamed = true) {kind : Kind} {child : Declaration}
    (hm : child ∈ decl.childrenOf kind) : child.wellNamed = true :=
  wellNamed_of_mem_declarations (wellNamed_iff.1 h).2.1 (List.mem_of_mem_filter hm)

/-- What is visited in a walk through well-named declarations is well named. -/
theorem wellNamed_of_mem_visit {waiting : List Placed}
    (h : ∀ placed ∈ waiting, placed.declaration.wellNamed = true) :
    ∀ placed ∈ Placed.visit waiting, placed.declaration.wellNamed = true := by
  induction waiting using Placed.visit.induct with
  | case1 =>
      rw [Placed.visit]
      exact fun _ hm => by cases hm
  | case2 first waiting ih =>
      obtain ⟨hfirst, hwaiting⟩ := List.forall_mem_cons.1 h
      rw [Placed.visit, List.forall_mem_cons]
      refine ⟨hfirst, ih (List.forall_mem_append.2 ⟨fun placed hm => ?_, hwaiting⟩)⟩
      obtain ⟨child, hchild, rfl⟩ := List.mem_map.1 hm
      exact wellNamed_of_mem_declarations (wellNamed_iff.1 hfirst).2.1 hchild

theorem wellNamed_of_mem_walk (h : decl.wellNamed = true) :
    ∀ placed ∈ decl.walk, placed.declaration.wellNamed = true :=
  wellNamed_of_mem_visit fun placed hm => by rwa [List.mem_singleton.1 hm]

end Declaration

/-! ### Computations that succeed -/

/-- The computation gives a result. -/
def Succeeds {ε α : Type} (x : Except ε α) : Prop := ∃ a, x = .ok a

namespace Succeeds

variable {ε ε' α β : Type}

theorem ok (a : α) : Succeeds (Except.ok a : Except ε α) := ⟨a, rfl⟩

theorem bind {x : Except ε α} {f : α → Except ε β} (hx : Succeeds x)
    (hf : ∀ a, x = .ok a → Succeeds (f a)) : Succeeds (x >>= f) := by
  obtain ⟨a, rfl⟩ := hx
  exact hf a rfl

theorem mapError {f : ε → ε'} {x : Except ε α} (hx : Succeeds x) : Succeeds (x.mapError f) := by
  obtain ⟨a, rfl⟩ := hx
  exact ok a

theorem ite {c : Prop} [Decidable c] {x y : Except ε α} (hx : Succeeds x) (hy : Succeeds y) :
    Succeeds (if c then x else y) := by
  split
  · exact hx
  · exact hy

theorem mapM {f : α → Except ε β} {items : List α} (h : ∀ a ∈ items, Succeeds (f a)) :
    Succeeds (items.mapM f) := by
  induction items with
  | nil => exact ok []
  | cons a items ih =>
      rw [List.mapM_cons]
      exact (h a List.mem_cons_self).bind fun b _ =>
        (ih fun a' ha' => h a' (List.mem_cons_of_mem _ ha')).bind fun results _ => ok _

end Succeeds

/-! ### Signatures and properties -/

/-- A computation with a part of a type succeeds if it does so with any text in its place. -/
theorem Succeeds.showPart_bind {β : Type} {links : Links} {type : Option TypeExpr}
    {f : Json → Except DisplayFault β} (h : wellNamedPart type = true)
    (hf : ∀ x, Succeeds (f (.str x))) : Succeeds (showPart links type >>= f) := by
  obtain ⟨x, hx⟩ := exists_showPart links type h
  rw [hx]
  exact hf x

theorem succeeds_withTypeMention (description linked : Text) :
    Succeeds (withTypeMention description (.str linked)) :=
  (Succeeds.ok _).bind fun _ _ => .ite (.ite (.ok _) (.ok _)) (.ok _)

theorem succeeds_typeInProse (shown : Text) : Succeeds (typeInProse (.str shown)) :=
  (Succeeds.ok _).bind fun _ _ => .ite (.ok _) (.ok _)

theorem succeeds_parameterDescription (parameter : Parameter) (plain : Text) :
    Succeeds (parameterDescription parameter (.str plain)) := by
  unfold parameterDescription
  refine .ite (.ok _) ?_
  split <;> exact .ok _

section

variable {ctx : PageContext} {refs : ReferenceMap} {signature : Signature} {decl : Declaration}

theorem succeeds_parameterBlocks {parameter : Parameter} (h : wellNamedPart parameter.type = true) :
    Succeeds (parameterBlocks refs parameter) :=
  .showPart_bind h fun linked => .showPart_bind h fun plain =>
    (succeeds_parameterDescription parameter plain).bind fun x _ =>
      (succeeds_withTypeMention x linked).bind fun _ _ => .ok _

theorem succeeds_returnBlocks (h : wellNamedPart signature.type = true) :
    Succeeds (returnBlocks refs signature) :=
  .showPart_bind h fun linked => .showPart_bind h fun _ =>
    (succeeds_typeInProse linked).bind fun _ _ => .ok _

theorem succeeds_callForm (h : signature.wellNamed = true) (name : Text) :
    Succeeds (signature.callForm name) := by
  obtain ⟨hparameters, htype⟩ := Signature.wellNamed_iff.1 h
  have hlist : Succeeds (showParameterList Links.none signature.parameters) :=
    .bind (exists_showParameters Links.none _ hparameters) fun _ _ => .ok _
  refine hlist.bind fun parameters _ => ?_
  cases ht : signature.type with
  | none => exact .ok _
  | some type =>
      rw [ht, wellNamedPart] at htype
      obtain ⟨x, hx⟩ := exists_show Links.none type htype
      exact .bind ⟨_, hx⟩ fun _ _ => .ok _

theorem succeeds_newForm (h : signature.wellNamed = true) (name : Text) :
    Succeeds (signature.newForm name) :=
  .bind (.bind (exists_showParameters Links.none _ (Signature.wellNamed_iff.1 h).1)
    fun _ _ => .ok _) fun _ _ => .ok _

theorem succeeds_callBlocks (view : SignatureView) (name : Text) (h : signature.wellNamed = true) :
    Succeeds (callBlocks view name signature) := by
  unfold callBlocks
  refine .ite ?_ (.ok _)
  dsimp only
  split
  · exact (succeeds_newForm h name).bind fun _ _ => .ok _
  · exact (succeeds_callForm h name).bind fun _ _ => .ok _

theorem succeeds_signatureBlocks (view : SignatureView) (name : Text)
    (h : signature.wellNamed = true) : Succeeds (signatureBlocks refs view name signature) := by
  obtain ⟨hparameters, htype⟩ := Signature.wellNamed_iff.1 h
  have hsection : Succeeds (parameterSection refs signature.parameters) :=
    .ite (.ok _) (.bind (.mapM fun parameter hm =>
      succeeds_parameterBlocks (wellNamedPart_of_mem_parameters hparameters hm)) fun _ _ => .ok _)
  have hresult : Succeeds (returnSection refs view signature) :=
    .ite (.ok _) ((succeeds_returnBlocks htype).bind fun _ _ => .ok _)
  rw [signatureBlocks_eq]
  exact (succeeds_callBlocks view name h).bind fun _ _ => hsection.bind fun _ _ =>
    hresult.bind fun _ _ => .ok _

theorem succeeds_typeLine {type : Option TypeExpr} (h : wellNamedPart type = true) :
    Succeeds (typeLine ctx type) :=
  .showPart_bind h fun shown => (succeeds_typeInProse shown).bind fun _ _ => .ok _

theorem succeeds_classPropertyBlocks (h : decl.wellNamed = true) :
    Succeeds (classPropertyBlocks ctx decl) :=
  (succeeds_typeLine (Declaration.wellNamed_iff.1 h).2.2).bind fun _ _ => .ok _

theorem succeeds_interfacePropertyBlocks (h : decl.wellNamed = true) :
    Succeeds (interfacePropertyBlocks ctx decl) :=
  have htype := (Declaration.wellNamed_iff.1 h).2.2
  .showPart_bind htype fun linked =>
    (succeeds_withTypeMention (propertyDescription decl) linked).bind fun _ _ =>
      .showPart_bind htype fun _ => .ok _

/-! ### Pages -/

/-- The layouts lay out whatever they are given. -/
structure Layout.LaysOut (layout : Layout) : Prop where
  frontmatter : ∀ title description, Succeeds (layout.frontmatter title description)
  table : ∀ headers rows, Succeeds (layout.table headers rows)
  contents : ∀ items, Succeeds (layout.contents items)

theorem laysOut_standard : Layout.standard.LaysOut where
  frontmatter _ _ := .ok _
  table _ _ := .ok _
  contents _ := .ok _

theorem succeeds_frontmatter (hl : ctx.layout.LaysOut) (title description : Text) :
    Succeeds (Fragment.frontmatter ctx.layout title description) :=
  (hl.frontmatter _ _).bind fun _ _ => .ok _

theorem succeeds_contents (hl : ctx.layout.LaysOut) (titles : List Text) :
    Succeeds (Fragment.contents ctx.layout titles) :=
  .ite (.ok _) ((hl.contents _).bind fun _ _ => .ok _)

theorem succeeds_propertySection {blocksOf : Declaration → Except DisplayFault (List Block)}
    {properties : List Declaration} (h : ∀ property ∈ properties, Succeeds (blocksOf property)) :
    Succeeds (propertySection ctx blocksOf properties) :=
  .ite (.ok _) (.bind (.mapM fun property hm => (h property hm).bind fun _ _ => .ok _)
    fun _ _ => .ok _)

theorem succeeds_constructorSection (name : Text) {constructors : List Declaration}
    (h : ∀ constructor ∈ constructors, constructor.wellNamed = true) :
    Succeeds (constructorSection ctx name constructors) := by
  refine .ite (.ok _) (.bind (.mapM fun constructor hm => ?_) fun _ _ => .ok _)
  cases hs : constructor.signatures with
  | nil => exact .ok _
  | cons first more =>
      have hfirst : first ∈ constructor.signatures := hs ▸ List.mem_cons_self
      exact succeeds_signatureBlocks _ name
        (wellNamed_of_mem_signatures (Declaration.wellNamed_iff.1 (h constructor hm)).1 hfirst)

theorem wellNamed_of_mem_methodsOf (h : decl.wellNamed = true) {method : MethodView}
    (hm : method ∈ methodsOf decl) : method.signature.wellNamed = true := by
  obtain ⟨child, hchild, hmethod⟩ := List.mem_filterMap.1 hm
  obtain ⟨signature, hsignature, rfl⟩ := Option.map_eq_some_iff.1 hmethod
  exact wellNamed_of_mem_signatures
    (Declaration.wellNamed_iff.1 (Declaration.wellNamed_of_mem_childrenOf h hchild)).1
    (List.mem_of_mem_head? hsignature)

theorem succeeds_methodSection {methods : List MethodView}
    (h : ∀ method ∈ methods, method.signature.wellNamed = true) :
    Succeeds (methodSection ctx methods) := by
  refine .ite (.ok _) ?_
  dsimp only
  split
  · refine .bind (.mapM fun method hm => ?_) fun _ _ => .ok _
    exact (succeeds_callForm (h method hm) method.name).bind fun _ _ =>
      (succeeds_signatureBlocks _ method.name (h method hm)).bind fun _ _ => .ok _
  · refine .bind (.mapM fun method hm => ?_) fun _ _ => .ok _
    exact (succeeds_signatureBlocks _ method.name (h method hm)).bind fun _ _ => .ok _

theorem succeeds_kindBlocks (hl : ctx.layout.LaysOut) (h : decl.wellNamed = true) :
    Succeeds (kindBlocks ctx decl) := by
  have hchild {kind : Kind} : ∀ child ∈ decl.childrenOf kind, child.wellNamed = true :=
    fun _ hm => Declaration.wellNamed_of_mem_childrenOf h hm
  have hown := Declaration.wellNamed_iff.1 h
  unfold kindBlocks
  cases decl.kind
  case classType =>
    refine (succeeds_contents hl _).mapError.bind fun _ _ => ?_
    refine (succeeds_constructorSection decl.name hchild).mapError.bind fun _ _ => ?_
    refine (succeeds_propertySection fun property hm =>
      succeeds_classPropertyBlocks (hchild property hm)).mapError.bind fun _ _ => ?_
    exact (succeeds_methodSection fun method hm =>
      wellNamed_of_mem_methodsOf h hm).mapError.bind fun _ _ => .ok _
  case interfaceType =>
    refine .ite (.ok _) ((succeeds_contents hl _).mapError.bind fun _ _ => ?_)
    exact (succeeds_propertySection fun property hm =>
      succeeds_interfacePropertyBlocks (hchild property hm)).mapError.bind fun _ _ => .ok _
  case function =>
    refine Succeeds.mapError (.bind (.mapM fun signature hm => ?_) fun _ _ => .ok _)
    exact succeeds_signatureBlocks _ decl.name (wellNamed_of_mem_signatures hown.1 hm)
  case enumeration =>
    refine Succeeds.mapError (.ite (.ok _) ((succeeds_contents hl _).bind fun _ _ => ?_))
    exact .bind (.bind (hl.table _ _) fun _ _ => .ok _) fun _ _ => .ok _
  case typeAlias =>
    exact Succeeds.mapError (.ite (.ok _) ((succeeds_typeLine hown.2.2).bind fun _ _ => .ok _))
  all_goals exact .ok _

/-- The page of a well-named declaration is rendered. -/
theorem succeeds_renderPage (hl : ctx.layout.LaysOut) {placed : Placed}
    (h : placed.declaration.wellNamed = true) (location : Text) :
    Succeeds (renderPage ctx placed location) := by
  refine .bind (Succeeds.mapError ?_) fun _ _ => (succeeds_kindBlocks hl h).bind fun _ _ => .ok _
  exact (succeeds_frontmatter hl _ _).bind fun _ _ => .ok _

end

/-- The site of a well-named tree is made. -/
theorem Site.succeeds_build {plan : Plan} {root : Declaration} (hl : plan.layout.LaysOut)
    (h : root.wellNamed = true) : Succeeds (build plan root) := by
  have hstages : Succeeds (allStages (contextFor plan root) root.walk) :=
    .mapM fun placed hm => (succeeds_renderPage hl
      (Declaration.wellNamed_of_mem_walk h placed (List.mem_of_mem_filter hm)) _).bind
        fun _ _ => .ok _
  have hoverview (details : List PageDetail) (name description : Option Text) :
      Succeeds (Overview.document (contextFor plan root) details name description) :=
    (succeeds_frontmatter hl _ _).bind fun _ _ => .ok _
  exact hstages.bind fun _ _ => (hoverview _ _ _).mapError.bind fun _ _ => .ok _

end ApiReference
