import ApiReference.Site.Basic
import Mathlib.Data.List.Forall2

/-! # How a site was made

A site that was built came through its stages: every page and the overview is a document that was
rendered, linked and repaired (`Site.exists_rendered_of_mem`). -/

namespace ApiReference

/-! ### Computations that succeed -/

theorem bind_eq_ok {ε α β : Type} {x : Except ε α} {f : α → Except ε β} {b : β} :
    x >>= f = .ok b ↔ ∃ a, x = .ok a ∧ f a = .ok b := by
  cases x with
  | error fault => simp [bind, Except.bind]
  | ok a => simp [bind, Except.bind]

theorem ok_bind {ε α β : Type} (a : α) (f : α → Except ε β) : (Except.ok a >>= f) = f a := rfl

theorem mapError_eq_ok {ε ε' α : Type} {f : ε → ε'} {x : Except ε α} {a : α} :
    x.mapError f = .ok a ↔ x = .ok a := by
  cases x with
  | error fault => exact ⟨fun h => (by cases h), fun h => (by cases h)⟩
  | ok b => exact ⟨fun h => Except.ok.inj h ▸ rfl, fun h => Except.ok.inj h ▸ rfl⟩

theorem toOption_eq_some {ε α : Type} {x : Except ε α} {a : α} :
    x.toOption = some a ↔ x = .ok a := by
  cases x with
  | error fault => exact ⟨fun h => (by cases h), fun h => (by cases h)⟩
  | ok b => exact ⟨fun h => Option.some.inj h ▸ rfl, fun h => Except.ok.inj h ▸ rfl⟩

/-- A computation whose result passes a check has a result. -/
theorem exists_ok_of_any {ε α : Type} {x : Except ε α} {p : α → Bool}
    (h : x.toOption.any p = true) : ∃ a, x = .ok a ∧ p a = true := by
  obtain ⟨a, ha, hp⟩ := (Option.any_eq_true _ _).1 h
  exact ⟨a, toOption_eq_some.1 ha, hp⟩

theorem of_all_toOption {ε α : Type} {x : Except ε α} {p : α → Bool} {a : α}
    (h : x.toOption.all p = true) (hx : x = .ok a) : p a = true := by
  rw [hx] at h
  exact h

/-- A list of computations succeeds if and only if each of them does. -/
theorem mapM_eq_ok_iff {ε α β : Type} {f : α → Except ε β} {items : List α} {results : List β} :
    items.mapM f = .ok results ↔ List.Forall₂ (fun a b => f a = .ok b) items results := by
  induction items generalizing results with
  | nil =>
      rw [List.mapM_nil, List.forall₂_nil_left_iff]
      exact ⟨fun h => (Except.ok.inj h).symm, fun h => h ▸ rfl⟩
  | cons a items ih =>
      rw [List.mapM_cons, List.forall₂_cons_left_iff, bind_eq_ok]
      constructor
      · rintro ⟨b, hb, h⟩
        obtain ⟨more, hmore, h⟩ := bind_eq_ok.1 h
        exact ⟨b, more, hb, ih.1 hmore, (Except.ok.inj h).symm⟩
      · rintro ⟨b, more, hb, hmore, rfl⟩
        exact ⟨b, hb, bind_eq_ok.2 ⟨more, ih.2 hmore, rfl⟩⟩

/-- Where each computation of a list goes with another one, so do the lists. -/
theorem exists_mapM_of_forall {ε α β γ : Type} {f : α → Except ε β} {g : α → Except ε γ}
    {R : γ → β → Prop} {items : List α} {results : List β}
    (hfg : ∀ a ∈ items, ∀ b, f a = .ok b → ∃ c, g a = .ok c ∧ R c b)
    (h : items.mapM f = .ok results) : ∃ others, items.mapM g = .ok others ∧
      List.Forall₂ R others results := by
  rw [mapM_eq_ok_iff] at h
  induction h with
  | nil => exact ⟨[], rfl, .nil⟩
  | @cons a b items results hb _ ih =>
      obtain ⟨c, hc, hr⟩ := hfg a List.mem_cons_self b hb
      obtain ⟨others, hothers, hall⟩ := ih fun a' ha' => hfg a' (List.mem_cons_of_mem _ ha')
      rw [mapM_eq_ok_iff] at hothers
      exact ⟨c :: others, mapM_eq_ok_iff.2 (.cons hc hothers), .cons hr hall⟩

/-- Every item of the second list goes with one of the first. -/
theorem exists_of_mem_forall₂ {α β : Type} {R : α → β → Prop} {items : List α} {others : List β}
    (h : List.Forall₂ R items others) : ∀ b ∈ others, ∃ a ∈ items, R a b := by
  induction h with
  | nil => exact fun b hb => by cases hb
  | cons hfirst _ ih =>
      intro b hb
      rcases List.mem_cons.1 hb with rfl | hb
      · exact ⟨_, List.mem_cons_self, hfirst⟩
      · obtain ⟨a, ha, hb⟩ := ih b hb
        exact ⟨a, List.mem_cons_of_mem _ ha, hb⟩

/-- Every result of a list of computations is the result of one of them. -/
theorem exists_of_mem_mapM {ε α β : Type} {f : α → Except ε β} {items : List α} {results : List β}
    (h : items.mapM f = .ok results) : ∀ b ∈ results, ∃ a ∈ items, f a = .ok b :=
  exists_of_mem_forall₂ (mapM_eq_ok_iff.1 h)

namespace Site

/-! ### Stages of a site -/

/-- The context in which the pages of a tree are made. -/
def contextFor (plan : Plan) (root : Declaration) : PageContext :=
  contextOf plan.settings plan.layout root.walk

/-- The document is fresh from rendering: a page of the tree, or the overview. -/
def IsRendered (ctx : PageContext) (doc : Document) : Prop :=
  (∃ placed location, renderPage ctx placed location = .ok doc) ∨
    ∃ details name description, Overview.document ctx details name description = .ok doc

theorem repaired_of_stagesOf {ctx : PageContext} {table : LinkTable} {placed : Placed}
    {stages : PageStages} (h : stagesOf ctx table placed = .ok stages) :
    renderPage ctx placed (ctx.settings.entryOf placed.declaration).location =
        .ok stages.rendered ∧
      stages.repaired = (stages.rendered.link table).repair maxHeadingLevel := by
  unfold stagesOf at h
  obtain ⟨rendered, hrendered, h⟩ := bind_eq_ok.1 h
  cases h
  exact ⟨hrendered, rfl⟩

/-- What a site was made from. -/
theorem build_eq_ok {plan : Plan} {root : Declaration} {site : Site} {log : Log}
    (h : build plan root = .ok (site, log)) :
    ∃ stages drafted description, allStages (contextFor plan root) root.walk = .ok stages ∧
      Overview.document (contextFor plan root) (detailsOf stages) (nameOf plan root) description =
        .ok drafted ∧
      site.pages = stages.map (·.repaired) ∧
      site.overview =
        (drafted.link (contextFor plan root).refs.linkTable).repair maxHeadingLevel := by
  unfold build buildFrom at h
  obtain ⟨stages, hstages, h⟩ := bind_eq_ok.1 h
  obtain ⟨drafted, hdrafted, h⟩ := bind_eq_ok.1 h
  cases h
  exact ⟨stages, drafted, _, hstages, mapError_eq_ok.1 hdrafted, rfl, rfl⟩

theorem refs_of_build {plan : Plan} {root : Declaration} {site : Site} {log : Log}
    (h : build plan root = .ok (site, log)) : site.refs = (contextFor plan root).refs := by
  unfold build buildFrom at h
  obtain ⟨stages, _, h⟩ := bind_eq_ok.1 h
  obtain ⟨drafted, _, h⟩ := bind_eq_ok.1 h
  cases h
  rfl

theorem manifest_of_build {plan : Plan} {root : Declaration} {site : Site} {log : Log}
    (h : build plan root = .ok (site, log)) :
    site.manifest = Manifest.build plan.settings (contextFor plan root).refs (nameOf plan root) := by
  unfold build buildFrom at h
  obtain ⟨stages, _, h⟩ := bind_eq_ok.1 h
  obtain ⟨drafted, _, h⟩ := bind_eq_ok.1 h
  cases h
  rfl

/-- The overview is the index page. -/
theorem location_overview_of_build {plan : Plan} {root : Declaration} {site : Site} {log : Log}
    (h : build plan root = .ok (site, log)) :
    site.overview.location = plan.settings.indexPage := by
  obtain ⟨_, drafted, _, _, hdrafted, _, hoverview⟩ := build_eq_ok h
  unfold Overview.document at hdrafted
  obtain ⟨frontmatter, _, hdrafted⟩ := bind_eq_ok.1 hdrafted
  cases hdrafted
  rw [hoverview]
  rfl

/-- The pages are those of the declarations that get one, in their order. -/
theorem forall_page_of_build {plan : Plan} {root : Declaration} {site : Site} {log : Log}
    (h : build plan root = .ok (site, log)) :
    List.Forall₂ (fun placed page => ∃ rendered,
        renderPage (contextFor plan root) placed
          (plan.settings.entryOf placed.declaration).location = .ok rendered ∧
          page = (rendered.link site.refs.linkTable).repair maxHeadingLevel)
      (pageWorthy root.walk) site.pages := by
  obtain ⟨stages, _, _, hstages, _, hpages, _⟩ := build_eq_ok h
  rw [hpages, refs_of_build h, List.forall₂_map_right_iff]
  refine (mapM_eq_ok_iff.1 hstages).imp fun placed page hpage => ?_
  obtain ⟨hrendered, hrepaired⟩ := repaired_of_stagesOf hpage
  exact ⟨page.rendered, hrendered, hrepaired⟩

theorem exists_rendered_of_mem {plan : Plan} {root : Declaration} {site : Site} {log : Log}
    (h : build plan root = .ok (site, log)) {page : Document}
    (hp : page ∈ site.pages ++ [site.overview]) :
    ∃ rendered, IsRendered (contextFor plan root) rendered ∧
      page = (rendered.link (contextFor plan root).refs.linkTable).repair maxHeadingLevel := by
  obtain ⟨stages, drafted, description, hstages, hdrafted, hpages, hoverview⟩ := build_eq_ok h
  rw [List.mem_append, List.mem_singleton, hpages, List.mem_map] at hp
  rcases hp with ⟨page, hpage, rfl⟩ | rfl
  · obtain ⟨placed, _, hplaced⟩ := exists_of_mem_mapM hstages page hpage
    obtain ⟨hrendered, hrepaired⟩ := repaired_of_stagesOf hplaced
    exact ⟨page.rendered, .inl ⟨placed, _, hrendered⟩, hrepaired⟩
  · exact ⟨drafted, .inr ⟨_, _, _, hdrafted⟩, hoverview⟩

end Site

end ApiReference
