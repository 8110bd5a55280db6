import ApiReference.Proofs.Stages
import ApiReference.Site.Files

/-! # Files that were written

Storing a file changes nothing but the file itself and the directories that were missing on the way
to it (`FileTree.store_eq_ok`).  So after a site is written, a path leads to the last document that was
written to it, as long as no later path leads to the same place (`Site.find_of_write`).

Where a path leads does not depend on the files in the tree (`FileTree.goal`), and what leads
somewhere once does so ever after, since no directory is taken away (`FileTree.Keeps`). -/

namespace ApiReference

namespace FileTree

/-! ### Where paths lead -/

/-- The place to which one part leads. -/
def stepTo (place : List Text) (part : Text) : List Text :=
  if part == Path.up then place.dropLast else place ++ [part]

/-- The place to which a path leads, if it leads anywhere. -/
def goal (tree : FileTree) (path : Path) : List Text := path.parts.foldl stepTo (tree.startOf path)

theorem stepFrom_eq_ok {place next : List Text} {part : Text} (h : stepFrom place part = .ok next) :
    next = stepTo place part := by
  unfold stepFrom at h
  split at h
  · cases h
  · exact (Except.ok.inj h).symm

theorem follow_eq_ok {tree : FileTree} {parts place result : List Text}
    (h : tree.follow place parts = .ok result) : result = parts.foldl stepTo place := by
  induction parts generalizing place with
  | nil => exact (Except.ok.inj h).symm
  | cons part more ih =>
      rw [follow] at h
      obtain ⟨next, hnext, h⟩ := bind_eq_ok.1 h
      rw [List.foldl_cons, ← stepFrom_eq_ok hnext]
      split at h
      · next hempty =>
        rw [List.isEmpty_iff.1 hempty]
        exact (Except.ok.inj h).symm
      · split at h
        · exact ih h
        · cases h
        · cases h

theorem placeOf_eq_ok {tree : FileTree} {path : Path} {place : List Text}
    (h : tree.placeOf path = .ok place) : place = tree.goal path := by
  unfold placeOf at h
  split at h
  · cases h
  · split at h
    · cases h
    · exact follow_eq_ok h

/-! ### What is kept -/

/-- A later tree has everything that an earlier one has, but for the files in some places. -/
structure Keeps (before after : FileTree) (written : List (List Text)) : Prop where
  home : after.home = before.home
  directories : ∀ place, before.entryAt place = some .directory →
    after.entryAt place = some .directory
  files : ∀ place bytes, place ∉ written → before.entryAt place = some (.file bytes) →
    after.entryAt place = some (.file bytes)

namespace Keeps

variable {a b c : FileTree} {written more : List (List Text)}

theorem refl (tree : FileTree) : Keeps tree tree [] := ⟨rfl, fun _ h => h, fun _ _ _ h => h⟩

theorem trans (hab : Keeps a b written) (hbc : Keeps b c more) : Keeps a c (written ++ more) where
  home := hbc.home.trans hab.home
  directories place h := hbc.directories place (hab.directories place h)
  files place bytes hm h := by
    rw [List.mem_append, not_or] at hm
    exact hbc.files place bytes hm.2 (hab.files place bytes hm.1 h)

theorem startOf (h : Keeps a b written) (path : Path) : b.startOf path = a.startOf path := by
  rw [FileTree.startOf, FileTree.startOf, h.home]

theorem goal (h : Keeps a b written) (path : Path) : b.goal path = a.goal path := by
  rw [FileTree.goal, FileTree.goal, h.startOf]

theorem follow (h : Keeps a b written) {parts place result : List Text}
    (hf : a.follow place parts = .ok result) : b.follow place parts = .ok result := by
  induction parts generalizing place with
  | nil => exact hf
  | cons part more ih =>
      rw [FileTree.follow] at hf ⊢
      obtain ⟨next, hnext, hf⟩ := bind_eq_ok.1 hf
      rw [hnext, ok_bind]
      split at hf
      · next hempty => rwa [if_pos hempty]
      · next hempty =>
        rw [if_neg hempty]
        split at hf
        · next hdirectory =>
          rw [h.directories next hdirectory]
          exact ih hf
        · cases hf
        · cases hf

theorem placeOf (h : Keeps a b written) {path : Path} {place : List Text}
    (hp : a.placeOf path = .ok place) : b.placeOf path = .ok place := by
  unfold FileTree.placeOf at hp ⊢
  split at hp
  · cases hp
  · next hnull =>
    rw [if_neg hnull]
    split at hp
    · cases hp
    · next hlong =>
      rw [if_neg hlong, h.startOf]
      exact h.follow hp

end Keeps

theorem find_eq_ok {tree : FileTree} {path : Path} {entry : FileEntry} :
    tree.find path = .ok entry ↔
      ∃ place, tree.placeOf path = .ok place ∧ tree.entryAt place = some entry := by
  unfold find
  rw [bind_eq_ok]
  refine exists_congr fun place => and_congr_right fun _ => ?_
  split
  · next found h =>
    rw [h]
    exact ⟨fun e => congrArg some (Except.ok.inj e), fun e => congrArg Except.ok (Option.some.inj e)⟩
  · next h =>
    rw [h]
    exact ⟨fun e => (by cases e), fun e => (by cases e)⟩

/-- A file that is not written again stays as it is. -/
theorem Keeps.find {before after : FileTree} {written : List (List Text)}
    (h : Keeps before after written) {path : Path} {bytes : List UInt8}
    (hf : before.find path = .ok (.file bytes)) (hm : before.goal path ∉ written) :
    after.find path = .ok (.file bytes) := by
  obtain ⟨place, hplace, hentry⟩ := find_eq_ok.1 hf
  rw [← placeOf_eq_ok hplace] at hm
  exact find_eq_ok.2 ⟨place, h.placeOf hplace, h.files place bytes hm hentry⟩

/-! ### Making directories and writing files -/

theorem keeps_put {tree : FileTree} {place : List Text} {entry : FileEntry} {written : List (List Text)}
    (hd : entry = .directory ∨ tree.entryAt place ≠ some .directory)
    (hf : place ∈ written ∨ ∀ bytes, tree.entryAt place ≠ some (.file bytes)) :
    Keeps tree (tree.put place entry) written where
  home := rfl
  directories other h := by
    by_cases he : other = place
    · subst he
      rcases hd with rfl | hd
      · by_cases hroot : other = []
        · rw [hroot]
          rfl
        · exact entryAt_put tree _ hroot
      · exact absurd h hd
    · rwa [entryAt_put_of_ne tree entry he]
  files other bytes hm h := by
    have he : other ≠ place := by
      rintro rfl
      exact hf.elim hm fun hnone => hnone bytes h
    rwa [entryAt_put_of_ne tree entry he]

theorem keeps_makeAt {tree after : FileTree} {path : Path} {place place' : List Text}
    (h : tree.makeAt path place = .ok (after, place')) : Keeps tree after [] := by
  unfold makeAt at h
  split at h
  · cases h
    exact .refl tree
  · cases h
  · next hnone =>
    cases h
    exact keeps_put (.inl rfl) (.inr fun bytes => by simp [hnone])

theorem keeps_makeWay {root : Text} {tree after : FileTree} {parts place : List Text}
    (h : makeWay root tree parts = .ok (after, place)) : Keeps tree after [] := by
  induction parts generalizing after place with
  | nil => exact keeps_makeAt h
  | cons part before ih =>
      rw [makeWay] at h
      dsimp only at h
      split at h
      · exact keeps_makeAt h
      · obtain ⟨⟨tree', place'⟩, hway, h⟩ := bind_eq_ok.1 h
        dsimp only at h
        split at h
        · exact (ih hway).trans (keeps_makeAt h)
        · cases h
      · cases h

/-- A file that was stored is found, and only what was in its place is not kept. -/
theorem store_eq_ok {tree after : FileTree} {path : Path} {x : Text}
    (h : tree.store path x = .ok after) :
    after.find path = .ok (.file (Utf8.encode x)) ∧ Keeps tree after [tree.goal path] := by
  unfold store makeDirectories at h
  obtain ⟨between, hbetween, h⟩ := bind_eq_ok.1 h
  have hway : Keeps tree between [] := by
    cases hm : makeWay path.parent.root tree path.parent.parts.reverse with
    | error fault =>
        rw [hm] at hbetween
        cases hbetween
    | ok made =>
        rw [hm] at hbetween
        cases hbetween
        exact keeps_makeWay hm
  unfold writeBytes at h
  split at h
  · cases h
  · next place hplace =>
    split at h
    · cases h
    · next hdirectory =>
      cases h
      have hentry : between.entryAt place ≠ some .directory := by simpa using hdirectory
      have hroot : place ≠ [] := by
        rintro rfl
        exact hentry rfl
      have hput : Keeps between (between.put place (.file (Utf8.encode x))) [place] :=
        keeps_put (.inr hentry) (.inl List.mem_cons_self)
      have hgoal : place = tree.goal path := (placeOf_eq_ok hplace).trans (hway.goal path)
      refine ⟨find_eq_ok.2 ⟨place, hput.placeOf hplace, entryAt_put between _ hroot⟩, ?_⟩
      rw [← hgoal]
      exact hway.trans hput

end FileTree

/-! ### Writing a site -/

namespace WriteReport

variable {report : WriteReport}

theorem store_of_write {path : Path} {x : Text} (h : (report.write path x).fault = none) :
    report.fault = none ∧ report.tree.store path x = .ok (report.write path x).tree ∧
      (report.write path x).written = report.written ++ [path] := by
  unfold write at h ⊢
  cases hf : report.fault with
  | some fault =>
      rw [hf] at h
      dsimp only at h
      rw [hf] at h
      cases h
  | none =>
      rw [hf] at h
      dsimp only at h ⊢
      split at h
      · next tree hstore => exact ⟨rfl, by rw [hstore], rfl⟩
      · cases h

/-- A path is written, or writing stops and nothing is. -/
theorem written_write (report : WriteReport) (path : Path) (x : Text) :
    report.fault = none ∧ (report.write path x).written = report.written ++ [path] ∨
      (report.write path x).fault ≠ none ∧ (report.write path x).written = report.written := by
  unfold write
  split
  · next h => exact .inr ⟨by simp [h], rfl⟩
  · next hnone =>
    split
    · exact .inl ⟨hnone, rfl⟩
    · exact .inr ⟨by simp, rfl⟩

/-- A note changes nothing but the log. -/
theorem note_eq (report : WriteReport) (entry : LogEntry) :
    (report.note entry).tree = report.tree ∧ (report.note entry).fault = report.fault ∧
      (report.note entry).written = report.written := by
  unfold note
  split <;> exact ⟨rfl, rfl, rfl⟩

end WriteReport

namespace Site

theorem store_of_writeDocument {report : WriteReport} {file : Path × Text}
    (h : (writeDocument report file).fault = none) :
    report.fault = none ∧
      report.tree.store file.1 file.2 = .ok (writeDocument report file).tree ∧
      (writeDocument report file).written = report.written ++ [file.1] := by
  unfold writeDocument at h ⊢
  obtain ⟨htree, hfault, hwritten⟩ := (report.write file.1 file.2).note_eq
    (.debug "writer" ("Wrote " ++ file.1.toText))
  rw [hfault] at h
  rw [htree, hwritten]
  exact WriteReport.store_of_write h

/-- Writing documents keeps everything but the files they are written to. -/
theorem keeps_foldl_writeDocument {files : List (Path × Text)} {report : WriteReport}
    (h : (files.foldl writeDocument report).fault = none) :
    report.fault = none ∧ FileTree.Keeps report.tree (files.foldl writeDocument report).tree
      (files.map fun file => report.tree.goal file.1) := by
  induction files generalizing report with
  | nil => exact ⟨h, .refl _⟩
  | cons file files ih =>
      obtain ⟨hfault, hkeeps⟩ := ih h
      obtain ⟨hnone, hstore, -⟩ := store_of_writeDocument hfault
      have hfirst := (FileTree.store_eq_ok hstore).2
      refine ⟨hnone, ?_⟩
      have hall := hfirst.trans hkeeps
      simp only [hfirst.goal] at hall
      exact hall

/-- Documents are written in their order. -/
theorem written_foldl_writeDocument {files : List (Path × Text)} {report : WriteReport}
    (h : (files.foldl writeDocument report).fault = none) :
    (files.foldl writeDocument report).written = report.written ++ files.map (·.1) := by
  induction files generalizing report with
  | nil => exact (List.append_nil _).symm
  | cons file files ih =>
      rw [List.foldl_cons] at h ⊢
      have hfault := (keeps_foldl_writeDocument h).1
      rw [ih h, (store_of_writeDocument hfault).2.2, List.append_assoc]
      rfl

theorem written_writeDocument (report : WriteReport) (file : Path × Text) :
    report.fault = none ∧ (writeDocument report file).written = report.written ++ [file.1] ∨
      (writeDocument report file).fault ≠ none ∧
        (writeDocument report file).written = report.written := by
  unfold writeDocument
  rw [(WriteReport.note_eq _ _).2.1, (WriteReport.note_eq _ _).2.2]
  exact report.written_write file.1 file.2

/-- Once writing has stopped, no document is written. -/
theorem written_foldl_of_fault {files : List (Path × Text)} {report : WriteReport}
    (h : report.fault ≠ none) : (files.foldl writeDocument report).written = report.written := by
  induction files generalizing report with
  | nil => rfl
  | cons file files ih =>
      have hstopped : (writeDocument report file).fault ≠ none := fun hnone =>
        h (store_of_writeDocument hnone).1
      rcases written_writeDocument report file with ⟨hnone, -⟩ | ⟨-, hsame⟩
      · exact absurd hnone h
      · rw [List.foldl_cons, ih hstopped, hsame]

/-- The documents that are written are the first ones, whatever stops the writing. -/
theorem isPrefix_foldl_writeDocument (files : List (Path × Text)) (report : WriteReport) :
    (files.foldl writeDocument report).written <+: report.written ++ files.map (·.1) := by
  induction files generalizing report with
  | nil => exact List.prefix_append _ _
  | cons file files ih =>
      rw [List.foldl_cons, List.map_cons]
      rcases written_writeDocument report file with ⟨-, hwritten⟩ | ⟨hfault, hwritten⟩
      · have hmore := ih (writeDocument report file)
        rwa [hwritten, List.append_assoc, List.singleton_append] at hmore
      · rw [written_foldl_of_fault hfault, hwritten]
        exact List.prefix_append _ _

/-- The files that are written are those of the documents in their order, and then the manifest;
whatever stops the writing, they are the first of these. -/
theorem isPrefix_written (site : Site) (output : OutputSettings) (directory : Path)
    (tree : FileTree) :
    (site.write output directory tree).written <+:
      (site.documentFiles output directory).map (·.1) ++ [manifestFile directory] := by
  have hdocuments := isPrefix_foldl_writeDocument (site.documentFiles output directory) { tree }
  unfold write
  dsimp only
  rw [(WriteReport.note_eq _ _).2.2]
  have hall := List.prefix_append ((site.documentFiles output directory).map (·.1))
    [manifestFile directory]
  split
  · rcases WriteReport.written_write ((site.documentFiles output directory).foldl writeDocument _)
      (manifestFile directory) site.manifest.toText with ⟨hnone, hwritten⟩ | ⟨-, hwritten⟩
    · rw [hwritten, written_foldl_writeDocument hnone]
      exact List.prefix_rfl
    · rw [hwritten]
      exact hdocuments.trans hall
  · exact hdocuments.trans hall

/-- A path leads to the last document that was written to it. -/
theorem find_foldl_writeDocument {before after : List (Path × Text)} {path : Path} {x : Text}
    {report : WriteReport}
    (h : ((before ++ (path, x) :: after).foldl writeDocument report).fault = none)
    (hlater : ∀ file ∈ after, report.tree.goal file.1 ≠ report.tree.goal path) :
    ((before ++ (path, x) :: after).foldl writeDocument report).tree.find path =
      .ok (.file (Utf8.encode x)) := by
  rw [List.foldl_append, List.foldl_cons] at h ⊢
  obtain ⟨hfault, hkeeps⟩ := keeps_foldl_writeDocument h
  obtain ⟨hfault', hstore, -⟩ := store_of_writeDocument hfault
  obtain ⟨hfound, hstored⟩ := FileTree.store_eq_ok hstore
  have hbefore := (keeps_foldl_writeDocument hfault').2
  refine hkeeps.find hfound ?_
  simp only [hstored.goal, hbefore.goal]
  intro hm
  obtain ⟨file, hfile, hgoal⟩ := List.mem_map.1 hm
  exact hlater file hfile hgoal

/-- The files of a site: those of its documents, and then the manifest. -/
theorem written_of_write {site : Site} {output : OutputSettings} {directory : Path} {tree : FileTree}
    (h : (site.write output directory tree).fault = none) :
    (site.write output directory tree).written =
      (site.documentFiles output directory).map (·.1) ++
        if output.navigation then [manifestFile directory] else [] := by
  unfold write at h ⊢
  dsimp only at h ⊢
  rw [(WriteReport.note_eq _ _).2.1] at h
  rw [(WriteReport.note_eq _ _).2.2]
  split at h
  · next hn =>
    rw [if_pos hn, if_pos hn]
    obtain ⟨hfault, -, hwritten⟩ := WriteReport.store_of_write h
    rw [hwritten, written_foldl_writeDocument hfault]
    rfl
  · next hn =>
    rw [if_neg hn, if_neg hn, List.append_nil, written_foldl_writeDocument h]
    rfl

/-- After a site is written, a path leads to the last document that was written to it. -/
theorem find_of_write {site : Site} {output : OutputSettings} {directory : Path} {tree : FileTree}
    (h : (site.write output directory tree).fault = none) {before after : List (Path × Text)}
    {path : Path} {x : Text}
    (hfiles : site.documentFiles output directory = before ++ (path, x) :: after)
    (hlater : ∀ file ∈ after, tree.goal file.1 ≠ tree.goal path)
    (hmanifest : tree.goal (manifestFile directory) ≠ tree.goal path) :
    (site.write output directory tree).tree.find path = .ok (.file (Utf8.encode x)) := by
  unfold write at h ⊢
  rw [hfiles] at h ⊢
  dsimp only at h ⊢
  rw [(WriteReport.note_eq _ _).2.1] at h
  rw [(WriteReport.note_eq _ _).1]
  split at h
  · next hn =>
    rw [if_pos hn]
    obtain ⟨hfault, hstore, -⟩ := WriteReport.store_of_write h
    have hfound := find_foldl_writeDocument hfault hlater
    have hkeeps := (keeps_foldl_writeDocument hfault).2
    refine (FileTree.store_eq_ok hstore).2.find hfound ?_
    rw [hkeeps.goal, hkeeps.goal, List.mem_singleton]
    exact fun e => hmanifest e.symm
  · next hn =>
    rw [if_neg hn]
    exact find_foldl_writeDocument h hlater

end Site

end ApiReference
