import ApiReference.Proofs.Locations
import ApiReference.Proofs.Stages
import ApiReference.Settings.File

/-! # Loaded settings

Whatever a settings file holds, the base path and the folders that it sets have no slashes at their
ends (`Settings.Loaded.stripped`), so no location begins with a slash
(`RenderSettings.Stripped.locationOf_ne_slash`). -/

namespace ApiReference

/-! ### Slashes at ends -/

theorem stripSlashes_eq (x : Text) :
    stripSlashes x = (x.dropWhile (· == '/')).rdropWhile (· == '/') :=
  Text.dropEndWhile_eq_rdropWhile _ _

/-- A text without slashes at its ends does not begin with one. -/
theorem head?_stripSlashes (x : Text) : (stripSlashes x).head? ≠ some '/' := by
  intro h
  obtain ⟨rest, hrest⟩ := List.head?_eq_some_iff.1 h
  have hprefix : stripSlashes x <+: x.dropWhile (· == '/') := by
    rw [stripSlashes_eq]
    exact List.rdropWhile_prefix _ _
  obtain ⟨behind, hbehind⟩ := hprefix
  have hhead := List.head?_dropWhile_not (fun c : Char => c == '/') x
  rw [← hbehind, hrest] at hhead
  simp at hhead

theorem dropWhile_slash_of_head? {x : Text} (h : x.head? ≠ some '/') :
    x.dropWhile (· == '/') = x := by
  cases x with
  | nil => rfl
  | cons c x => exact List.dropWhile_cons_of_neg (by simpa using h)

theorem stripSlashes_stripSlashes (x : Text) : stripSlashes (stripSlashes x) = stripSlashes x := by
  rw [stripSlashes_eq (stripSlashes x), dropWhile_slash_of_head? (head?_stripSlashes x),
    stripSlashes_eq, List.rdropWhile_idempotent]

/-- Nothing is left of slashes alone. -/
theorem stripSlashes_eq_nil_iff {x : Text} : stripSlashes x = [] ↔ ∀ c ∈ x, c = '/' := by
  rw [stripSlashes_eq, List.rdropWhile_eq_nil_iff]
  constructor
  · intro h c hc
    rw [← List.takeWhile_append_dropWhile (p := (· == '/')) (l := x), List.mem_append] at hc
    rcases hc with hc | hc
    · simpa using List.mem_takeWhile_imp hc
    · simpa using h c hc
  · intro h c hc
    rw [h c ((List.dropWhile_sublist _).subset hc)]
    rfl

/-! ### Settings for rendering -/

namespace RenderSettings

/-- The base path and the folders have no slashes at their ends. -/
structure Stripped (settings : RenderSettings) : Prop where
  basePath : stripSlashes settings.basePath = settings.basePath
  folders : ∀ folder ∈ settings.folders, stripSlashes folder.2 = folder.2

namespace Stripped

variable {settings : RenderSettings}

theorem setFolder (h : settings.Stripped) (kind : Kind) (folder : Text) :
    (settings.setFolder kind (stripSlashes folder)).Stripped where
  basePath := h.basePath
  folders := List.forall_mem_cons.2 ⟨stripSlashes_stripSlashes folder, h.folders⟩

theorem setFolders (h : settings.Stripped) {pairs : List (Yaml.Value × Yaml.Value)}
    {result : RenderSettings} (hset : settings.setFolders pairs = .ok result) : result.Stripped := by
  induction pairs generalizing settings with
  | nil =>
      cases hset
      exact h
  | cons pair pairs ih =>
      rw [RenderSettings.setFolders] at hset
      split at hset
      · cases hset
      · exact ih (h.setFolder _ _) hset
      · exact ih h hset

theorem folderOf (h : settings.Stripped) (kind : Kind) :
    stripSlashes (settings.folderOf kind) = settings.folderOf kind := by
  rcases settings.folderOf_mem kind with hset | hown
  · exact h.folders _ hset
  · rw [hown]
    cases kind <;> decide

/-- A location does not begin with a slash. -/
theorem locationOf_ne_slash (h : settings.Stripped) (name : Text) (kind : Kind) :
    (settings.locationOf name kind).head? ≠ some '/' := by
  have hhead := head?_stripSlashes (settings.folderOf kind)
  rw [h.folderOf kind] at hhead
  rw [locationOf_eq, List.head?_append_of_ne_nil _ (settings.folderOf_ne_nil kind)]
  exact hhead

end Stripped

theorem stripped_default : Stripped {} := ⟨by decide, by decide⟩

theorem stripped_ofValue {value : Yaml.Value} {settings : RenderSettings}
    (h : ofValue value = .ok settings) : settings.Stripped := by
  refine Stripped.setFolders ?_ h
  refine ⟨?_, nofun⟩
  dsimp only
  cases (value.field "base_path").asText? with
  | none => exact stripped_default.basePath
  | some given => exact stripSlashes_stripSlashes given

theorem indexPage_setFolders {settings result : RenderSettings}
    {pairs : List (Yaml.Value × Yaml.Value)} (h : settings.setFolders pairs = .ok result) :
    result.indexPage = settings.indexPage := by
  induction pairs generalizing settings with
  | nil =>
      cases h
      rfl
  | cons pair pairs ih =>
      rw [RenderSettings.setFolders] at h
      split at h
      · cases h
      · exact (ih h).trans rfl
      · exact ih h

/-- The index page is the one that is given, without the slashes at its ends. -/
theorem indexPage_ofValue {value : Yaml.Value} {settings : RenderSettings}
    (h : ofValue value = .ok settings) : settings.indexPage =
      ((value.field "index_page").asGivenText?.map stripSlashes).getD "index" :=
  indexPage_setFolders h

end RenderSettings

/-! ### All settings -/

namespace Settings

/-- Settings as they are loaded: the default ones where there is no file, else those of whatever value
the file holds. -/
inductive Loaded : Settings → Prop
  | absent (root : Path) : Loaded { root }
  | mapping {root : Path} {value : Yaml.Value} {settings : Settings}
      (h : ofValue root value = .ok settings) : Loaded settings

theorem loaded_of_read {tree : FileTree} {path : Path} {settings : Settings}
    (h : read tree path = .ok settings) : settings.Loaded := by
  unfold read at h
  obtain ⟨file, -, h⟩ := bind_eq_ok.1 h
  obtain ⟨found, -, h⟩ := bind_eq_ok.1 h
  split at h
  · cases h
    exact .absent file.parent
  · obtain ⟨x, -, h⟩ := bind_eq_ok.1 h
    obtain ⟨value, -, h⟩ := bind_eq_ok.1 h
    exact .mapping (mapError_eq_ok.1 h)

/-- Settings that are read from a value are those for rendering and those for writing. -/
theorem exists_render_of_ofValue {root : Path} {value : Yaml.Value} {settings : Settings}
    (h : ofValue root value = .ok settings) :
    RenderSettings.ofValue (value.field "render") = .ok settings.render ∧
      settings.output = .ofValue root (value.field "output") := by
  unfold ofValue at h
  split at h
  · obtain ⟨render, hrender, h⟩ := bind_eq_ok.1 h
    cases h
    exact ⟨hrender, rfl⟩
  · cases h

theorem Loaded.stripped {settings : Settings} (h : settings.Loaded) : settings.render.Stripped := by
  cases h with
  | absent root => exact RenderSettings.stripped_default
  | mapping h => exact RenderSettings.stripped_ofValue (exists_render_of_ofValue h).1

/-- The index page has no slashes at its ends. -/
theorem Loaded.indexPage {settings : Settings} (h : settings.Loaded) :
    stripSlashes settings.render.indexPage = settings.render.indexPage := by
  cases h with
  | absent root => exact (by decide : stripSlashes "index" = "index")
  | @mapping root value _ h =>
      rw [RenderSettings.indexPage_ofValue (exists_render_of_ofValue h).1]
      cases ((value.field "render").field "index_page").asGivenText? with
      | none => decide
      | some given => exact stripSlashes_stripSlashes given

/-- The extension begins with a dot. -/
theorem Loaded.extension {settings : Settings} (h : settings.Loaded) :
    settings.output.extension.head? = some '.' := by
  have hdotted (given : Text) : (OutputSettings.dotted given).head? = some '.' := by
    unfold OutputSettings.dotted
    split
    · next hdot =>
      obtain ⟨rest, rfl⟩ := List.isPrefixOf_iff_prefix.1 hdot
      rfl
    · rfl
  cases h with
  | absent root => rfl
  | @mapping root value _ h =>
      rw [(exists_render_of_ofValue h).2]
      dsimp only [OutputSettings.ofValue]
      cases ((value.field "output").field "extension").asGivenText? with
      | none => rfl
      | some given => exact hdotted given

end Settings

end ApiReference
