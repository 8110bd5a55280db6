import ApiReference.Files.Path
import ApiReference.Text.Utf8
import ApiReference.Text.Quoted

/-! # File trees

The files and directories that a program can see, as one value: looking something up reads the
tree, and making a directory or writing a file gives a new one.  Whatever is refused names its
cause and the path that was asked for.

Main statements: what was put in a place is found there (`entryAt_put`), and every other place is
as before (`entryAt_put_of_ne`). -/

namespace ApiReference

/-! ### Refusals -/

/-- Why a path cannot be used. -/
inductive FileCause
  | missing
  | alreadyThere
  | notDirectory
  | isDirectory
  | nameTooLong
  /-- The path holds the character that ends paths for the system. -/
  | holdsNull
deriving DecidableEq, Inhabited, Repr

namespace FileCause

/-- The number of a cause and the cause in words, where the system gives them. -/
def words? : FileCause → Option (Nat × Text)
  | missing => some (2, "No such file or directory")
  | alreadyThere => some (17, "File exists")
  | notDirectory => some (20, "Not a directory")
  | isDirectory => some (21, "Is a directory")
  | nameTooLong => some (36, "File name too long")
  | holdsNull => none

end FileCause

/-- A path that cannot be used, and why. -/
structure FileFault where
  cause : FileCause
  path : Path
deriving DecidableEq, Inhabited, Repr

/-- What the system says of a path that cannot be used. -/
def FileFault.message? (fault : FileFault) : Option Text :=
  fault.cause.words?.map fun (number, words) =>
    "[Errno " ++ Text.ofNat number ++ "] " ++ words ++ ": " ++ fault.path.toText.quoted

/-- Why a file cannot be read as a text. -/
inductive ReadFault
  | refused (fault : FileFault)
  /-- Its bytes are not those of a text. -/
  | notText
deriving DecidableEq, Inhabited, Repr

/-! ### Trees -/

/-- What is in a place. -/
inductive FileEntry
  | file (bytes : List UInt8)
  | directory
deriving DecidableEq, Inhabited, Repr

/-- A place, given by the parts that lead to it from the root, with its depth before it, so that
places of different depths are told apart at once. -/
abbrev PlaceKey := Nat × List Text

/-- What is in which place. -/
structure FileTree where
  /-- The place from which relative paths start. -/
  home : List Text := []
  entries : List (PlaceKey × FileEntry) := []
deriving DecidableEq, Inhabited

namespace FileTree

/-- The key of a place. -/
def keyOf (place : List Text) : PlaceKey := (place.length, place)

/-- What is in a place; the root is always there. -/
def entryAt (tree : FileTree) (place : List Text) : Option FileEntry :=
  if place.isEmpty then some .directory else tree.entries.lookup (keyOf place)

/-- The entries with one more, which takes the place of the one that is there. -/
def putEntry (key : PlaceKey) (entry : FileEntry) :
    List (PlaceKey × FileEntry) → List (PlaceKey × FileEntry)
  | [] => [(key, entry)]
  | (k, e) :: more =>
    if k == key then (key, entry) :: more else (k, e) :: putEntry key entry more

/-- Puts an entry in a place. -/
def put (tree : FileTree) (place : List Text) (entry : FileEntry) : FileTree :=
  { tree with entries := putEntry (keyOf place) entry tree.entries }

/-- The files of a tree with their places. -/
def files (tree : FileTree) : List (List Text × List UInt8) :=
  tree.entries.filterMap fun ((_, place), entry) =>
    match entry with
    | .file bytes => some (place, bytes)
    | .directory => none

/-- The entries of a tree that are not the same in a tree before it. -/
def changes (before after : FileTree) : List (List Text × FileEntry) :=
  (after.entries.map fun ((_, place), entry) => (place, entry)).filter
    fun (place, entry) => before.entryAt place != some entry

/-! ### Following paths -/

/-- The most bytes that one part of a path can have. -/
def longestPart : Nat := 255

/-- The most bytes that a path can have. -/
def longestPath : Nat := 4095

/-- The place to which one part leads from a place. -/
def stepFrom (place : List Text) (part : Text) : Except FileCause (List Text) :=
  if longestPart < (Utf8.encode part).length then .error .nameTooLong
  else .ok (if part == Path.up then place.dropLast else place ++ [part])

/-- The place to which parts lead from a place; what lies between must be directories. -/
def follow (tree : FileTree) (place : List Text) : List Text → Except FileCause (List Text)
  | [] => .ok place
  | part :: more => do
    let next ← stepFrom place part
    if more.isEmpty then return next
    match tree.entryAt next with
    | some .directory => tree.follow next more
    | some (.file _) => throw .notDirectory
    | none => throw .missing

/-- The place from which a path starts. -/
def startOf (tree : FileTree) (path : Path) : List Text :=
  if path.isAbsolute then [] else tree.home

/-- All places that a path passes, if directories are wherever it takes them to be. -/
def waypoints (tree : FileTree) (path : Path) : List (List Text) :=
  let start := tree.startOf path
  (List.range (path.parts.length + 1)).map fun n => Path.resolved (start ++ path.parts.take n)

/-- The place to which a path leads. -/
def placeOf (tree : FileTree) (path : Path) : Except FileCause (List Text) :=
  if path.holdsNull then .error .holdsNull
  else if longestPath < (Utf8.encode path.toText).length then .error .nameTooLong
  else tree.follow (tree.startOf path) path.parts

/-- What is where a path leads. -/
def find (tree : FileTree) (path : Path) : Except FileCause FileEntry := do
  match tree.entryAt (← tree.placeOf path) with
  | some entry => return entry
  | none => throw .missing

/-- What is where a path leads, if the path leads anywhere. -/
def look (tree : FileTree) (path : Path) : Except FileFault (Option FileEntry) :=
  match tree.find path with
  | .ok entry => .ok (some entry)
  | .error .nameTooLong => .error ⟨.nameTooLong, path⟩
  | .error _ => .ok none

/-- A directory is where a path leads. -/
def hasDirectory (tree : FileTree) (path : Path) : Except FileFault Bool := do
  return (← tree.look path) == some .directory

/-- A file is where a path leads. -/
def hasFile (tree : FileTree) (path : Path) : Except FileFault Bool := do
  match ← tree.look path with
  | some (.file _) => return true
  | _ => return false

/-! ### Reading -/

/-- The bytes of a file. -/
def readBytes (tree : FileTree) (path : Path) : Except FileFault (List UInt8) :=
  match tree.find path with
  | .ok (.file bytes) => .ok bytes
  | .ok .directory => .error ⟨.isDirectory, path⟩
  | .error cause => .error ⟨cause, path⟩

/-- The text of a file, in which every line end is a newline character. -/
def readText (tree : FileTree) (path : Path) : Except ReadFault Text :=
  match tree.readBytes path with
  | .error fault => .error (.refused fault)
  | .ok bytes =>
    match Utf8.decode? bytes with
    | some x => .ok x.unifyLineEnds
    | none => .error .notText

/-! ### Writing -/

/-- Makes a directory in the place to which a path leads, unless there is one. -/
def makeAt (tree : FileTree) (path : Path) (place : List Text) :
    Except FileFault (FileTree × List Text) :=
  match tree.entryAt place with
  | some .directory => .ok (tree, place)
  | some (.file _) => .error ⟨.alreadyThere, path⟩
  | none => .ok (tree.put place .directory, place)

/-- Makes the directories to which parts, the last one first, lead: where a parent is missing, it is
made before.  The place of the last directory is given with the tree. -/
def makeWay (root : Text) (tree : FileTree) :
    List Text → Except FileFault (FileTree × List Text)
  | [] => tree.makeAt ⟨root, []⟩ (tree.startOf ⟨root, []⟩)
  | part :: before =>
    let path : Path := ⟨root, (part :: before).reverse⟩
    match tree.placeOf path with
    | .ok place => tree.makeAt path place
    | .error .missing => do
      let (tree, place) ← makeWay root tree before
      match stepFrom place part with
      | .ok place => tree.makeAt path place
      | .error cause => throw ⟨cause, path⟩
    | .error cause => .error ⟨cause, path⟩

/-- Makes a directory and those above it that are missing; one that is there is left as it is. -/
def makeDirectories (tree : FileTree) (path : Path) : Except FileFault FileTree :=
  (makeWay path.root tree path.parts.reverse).map (·.1)

/-- Writes a file, whose directory must be there. -/
def writeBytes (tree : FileTree) (path : Path) (bytes : List UInt8) : Except FileFault FileTree :=
  match tree.placeOf path with
  | .error cause => .error ⟨cause, path⟩
  | .ok place =>
    if tree.entryAt place == some .directory then .error ⟨.isDirectory, path⟩
    else .ok (tree.put place (.file bytes))

/-- Writes a text to a file, after making its directory. -/
def store (tree : FileTree) (path : Path) (x : Text) : Except FileFault FileTree := do
  let tree ← tree.makeDirectories path.parent
  tree.writeBytes path (Utf8.encode x)

/-- Writes a text at the end of a file, which need not be there. -/
def append (tree : FileTree) (path : Path) (x : Text) : Except FileFault FileTree :=
  match tree.find path with
  | .ok (.file bytes) => tree.writeBytes path (bytes ++ Utf8.encode x)
  | _ => tree.writeBytes path (Utf8.encode x)

/-! ### Lemmas -/

theorem lookup_putEntry (key : PlaceKey) (entry : FileEntry)
    (entries : List (PlaceKey × FileEntry)) :
    (putEntry key entry entries).lookup key = some entry := by
  induction entries with
  | nil => simp [putEntry]
  | cons pair more ih =>
    obtain ⟨k, e⟩ := pair
    simp only [putEntry]
    split
    · simp
    · next h =>
      have h' : (key == k) = false := by
        rw [beq_eq_false_iff_ne]
        exact fun same => h (by simp [same])
      rw [List.lookup_cons, h']
      exact ih

theorem lookup_putEntry_of_ne {key other : PlaceKey} (entry : FileEntry)
    (entries : List (PlaceKey × FileEntry)) (h : other ≠ key) :
    (putEntry key entry entries).lookup other = entries.lookup other := by
  have h' : (other == key) = false := beq_eq_false_iff_ne.2 h
  induction entries with
  | nil => rw [putEntry, List.lookup_cons, h']
  | cons pair more ih =>
    obtain ⟨k, e⟩ := pair
    simp only [putEntry]
    split
    · next hk =>
      have hk : k = key := by simpa using hk
      rw [List.lookup_cons, List.lookup_cons, hk, h']
    · rw [List.lookup_cons, List.lookup_cons, ih]

theorem keyOf_inj {place other : List Text} (h : keyOf place = keyOf other) : place = other :=
  (Prod.mk.inj h).2

/-- What was put in a place is found there. -/
theorem entryAt_put (tree : FileTree) {place : List Text} (entry : FileEntry) (h : place ≠ []) :
    (tree.put place entry).entryAt place = some entry := by
  simp [entryAt, put, h, lookup_putEntry]

/-- Every other place is as before. -/
theorem entryAt_put_of_ne (tree : FileTree) {place other : List Text} (entry : FileEntry)
    (h : other ≠ place) : (tree.put place entry).entryAt other = tree.entryAt other := by
  have h' : keyOf other ≠ keyOf place := fun same => h (keyOf_inj same)
  simp [entryAt, put, lookup_putEntry_of_ne entry tree.entries h']

end FileTree

end ApiReference
