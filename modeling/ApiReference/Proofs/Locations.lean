import ApiReference.Proofs.Lines
import ApiReference.Proofs.Names
import ApiReference.Reference.Location

/-! # Locations and addresses

A location is the folder of a kind, a slash, and the slug of a name
(`RenderSettings.locationOf_eq`).  No slug holds a slash, so two declarations share a location if and
only if they share folder and slug (`RenderSettings.locationOf_eq_iff`).

Addresses hold no characters but those of the base path, of the folders and of slugs
(`not_mem_urlFor_locationOf`); in particular neither backticks nor line ends if the paths of the settings
hold none (`RenderSettings.PlainPaths`). -/

namespace ApiReference

/-- The base path and the folders of a site hold neither backticks nor line ends. -/
structure RenderSettings.PlainPaths (settings : RenderSettings) : Prop where
  basePath : '\x60' ∉ settings.basePath ∧ '\n' ∉ settings.basePath
  folders : ∀ folder ∈ settings.folders, '\x60' ∉ folder.2 ∧ '\n' ∉ folder.2

/-! ### Slugs -/

/-- The last part of the location of a declaration. -/
def slugOf (name : Text) : Text := if (slugify name).isEmpty then "index" else slugify name

/-- Slugs hold small letters, digits and hyphens. -/
theorem isSlugChar_of_mem_slugOf {name : Text} {c : Char} (h : c ∈ slugOf name) :
    isSlugChar c = true ∨ c = '-' := by
  have hindex : ("index" : Text).all isSlugChar = true := by decide
  unfold slugOf at h
  split at h
  · exact .inl (List.all_eq_true.1 hindex c h)
  · rcases Text.mem_of_mem_joinWith h with h | ⟨piece, hp, hc⟩
    · exact .inr (List.mem_singleton.1 h)
    · have hslug := Text.forall_mem_splitWhere _ _ piece (List.mem_filter.1 hp).1 c hc
      exact .inl (by simpa using hslug)

theorem slash_not_mem_slugOf (name : Text) : '/' ∉ slugOf name := by
  intro hm
  rcases isSlugChar_of_mem_slugOf hm with h | h
  · exact absurd h (by decide)
  · exact absurd h (by decide)

namespace RenderSettings

variable {settings : RenderSettings} {kind : Kind} {c : Char}

/-! ### Folders -/

theorem folderOf_ne_nil (settings : RenderSettings) (kind : Kind) : settings.folderOf kind ≠ [] := by
  unfold folderOf
  split
  · exact List.cons_ne_nil _ _
  · cases kind <;> decide

/-- The folder of a kind is one that is set, or its own. -/
theorem folderOf_mem (settings : RenderSettings) (kind : Kind) :
    (kind, settings.folderOf kind) ∈ settings.folders ∨
      settings.folderOf kind = kind.defaultFolder := by
  unfold folderOf
  split
  · next first folder e =>
    obtain ⟨before, after, he, -⟩ := List.lookup_eq_some_iff.1 e
    exact .inl (by rw [he]; simp)
  · exact .inr rfl

theorem not_mem_folderOf (hdefault : c ∉ kind.defaultFolder)
    (h : ∀ folder ∈ settings.folders, c ∉ folder.2) : c ∉ settings.folderOf kind := by
  rcases settings.folderOf_mem kind with hset | hown
  · exact h _ hset
  · rwa [hown]

/-! ### Locations -/

theorem locationOf_eq (settings : RenderSettings) (name : Text) (kind : Kind) :
    settings.locationOf name kind = settings.folderOf kind ++ '/' :: slugOf name := by
  have hfolder : (settings.folderOf kind).isEmpty = false := by
    simpa using settings.folderOf_ne_nil kind
  unfold locationOf slugOf
  dsimp only
  rw [hfolder]
  rfl

theorem locationOf_ne_nil (settings : RenderSettings) (name : Text) (kind : Kind) :
    settings.locationOf name kind ≠ [] := by
  rw [locationOf_eq]
  exact List.append_ne_nil_of_left_ne_nil (settings.folderOf_ne_nil kind) _

/-- A location holds characters of slugs, of its folder, and a slash. -/
theorem mem_locationOf {name : Text} (h : c ∈ settings.locationOf name kind) :
    isSlugChar c = true ∨ c = '-' ∨ c = '/' ∨ c ∈ settings.folderOf kind := by
  rw [locationOf_eq, List.mem_append, List.mem_cons] at h
  rcases h with h | h | h
  · exact .inr (.inr (.inr h))
  · exact .inr (.inr (.inl h))
  · exact (isSlugChar_of_mem_slugOf h).imp_right .inl

end RenderSettings

/-! ### Addresses -/

section addresses

variable {settings : RenderSettings} {declarations : List Placed} {c : Char}

theorem not_mem_stripSlashes {x : Text} (h : c ∉ x) : c ∉ stripSlashes x := by
  rw [stripSlashes, Text.trimWhile, Text.dropEndWhile_eq_rdropWhile]
  exact fun hm => h ((List.dropWhile_suffix _).subset ((List.rdropWhile_prefix _ _).subset hm))

/-- The address of a location holds no character that the paths do not hold, unless it is one of its
own. -/
theorem not_mem_urlFor_locationOf {name : Text} {kind : Kind}
    (hown : isSlugChar c = false ∧ c ≠ '-' ∧ c ≠ '/') (hdefault : c ∉ kind.defaultFolder)
    (hbase : c ∉ settings.basePath) (hfolders : ∀ folder ∈ settings.folders, c ∉ folder.2) :
    c ∉ (ReferenceMap.ofDeclarations settings declarations).urlFor
      (settings.locationOf name kind) := by
  obtain ⟨hslug, hdash, hslash⟩ := hown
  have hstart : c ∉ (ReferenceMap.ofDeclarations settings declarations).addressStart := by
    have hstripped : c ∉ (ReferenceMap.ofDeclarations settings declarations).basePath :=
      not_mem_stripSlashes hbase
    unfold ReferenceMap.addressStart
    split
    · simpa using hslash
    · simpa [hslash] using hstripped
  intro hm
  rcases List.mem_append.1 hm with hm | hm
  · exact hstart hm
  · rcases RenderSettings.mem_locationOf ((List.dropWhile_suffix _).subset hm) with h | h | h | h
    · rw [hslug] at h
      cases h
    · exact hdash h
    · exact hslash h
    · exact RenderSettings.not_mem_folderOf hdefault hfolders h

theorem RenderSettings.PlainPaths.not_mem_urlFor (hplain : settings.PlainPaths)
    (declarations : List Placed) (name : Text) (kind : Kind) :
    let url := (ReferenceMap.ofDeclarations settings declarations).urlFor
      (settings.locationOf name kind)
    '\x60' ∉ url ∧ '\n' ∉ url := by
  constructor
  · exact not_mem_urlFor_locationOf (by decide) (by cases kind <;> decide) hplain.basePath.1
      fun folder hf => (hplain.folders folder hf).1
  · exact not_mem_urlFor_locationOf (by decide) (by cases kind <;> decide) hplain.basePath.2
      fun folder hf => (hplain.folders folder hf).2

/-- Entries stand at the location of their name and kind. -/
theorem ReferenceMap.location_of_mem {entry : ReferenceEntry}
    (h : entry ∈ (ofDeclarations settings declarations).entries) :
    entry.location = settings.locationOf entry.name entry.kind := by
  obtain ⟨placed, -, rfl⟩ := List.mem_map.1 h
  rfl

/-- A name leads to the location of a declaration that has it. -/
theorem exists_placed_of_location? {name location : Text}
    (h : (ReferenceMap.ofDeclarations settings declarations).location? name = some location) :
    ∃ placed ∈ pageWorthy declarations, placed.declaration.name = name ∧
      location = settings.locationOf name placed.declaration.kind := by
  obtain ⟨entry, hentry, rfl⟩ := Option.map_eq_some_iff.1 h
  have hname := List.find?_some hentry
  obtain ⟨placed, hplaced, rfl⟩ :=
    List.mem_map.1 (List.mem_reverse.1 (List.mem_of_find?_eq_some hentry))
  obtain rfl : placed.declaration.name = name := beq_iff_eq.1 hname
  exact ⟨placed, hplaced, rfl, rfl⟩

theorem RenderSettings.PlainPaths.not_mem_href? (hplain : settings.PlainPaths) {name href : Text}
    (h : (ReferenceMap.ofDeclarations settings declarations).href? name = some href) :
    '\x60' ∉ href ∧ '\n' ∉ href := by
  obtain ⟨location, hlocation, rfl⟩ := Option.map_eq_some_iff.1 h
  obtain ⟨placed, -, -, rfl⟩ := exists_placed_of_location? hlocation
  exact hplain.not_mem_urlFor declarations name placed.declaration.kind

/-- The names that lead somewhere are those of the declarations that get a page. -/
theorem exists_placed_of_href? {name : Text}
    (h : ((ReferenceMap.ofDeclarations settings declarations).href? name).isSome = true) :
    ∃ placed ∈ pageWorthy declarations, placed.declaration.name = name := by
  rw [ReferenceMap.href?, Option.isSome_map] at h
  obtain ⟨location, hlocation⟩ := Option.isSome_iff_exists.1 h
  obtain ⟨placed, hplaced, hname, -⟩ := exists_placed_of_location? hlocation
  exact ⟨placed, hplaced, hname⟩

end addresses

end ApiReference
