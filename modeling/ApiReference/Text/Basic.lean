/-! # Texts

A text is the list of its characters (Unicode code points), so that every operation on it is an
operation on lists and is read off by structural recursion.  String literals stand for texts
through a coercion.

Main statements: cutting a text at separators and joining the pieces gives the text back
(`joinWith_split`), no piece holds a separator (`forall_mem_split`), and pieces without separators
are found again after joining (`split_joinWith`). -/

namespace ApiReference

/-- A text is the list of its characters. -/
abbrev Text := List Char

instance coeString : Coe String (List Char) := ⟨String.toList⟩

namespace Text

/-! ### Searching -/

/-- The text begins with the given one. -/
def startsWith (x start : Text) : Bool := start.isPrefixOf x

/-- The text ends with the given one. -/
def endsWith (x ending : Text) : Bool := ending.isSuffixOf x

/-- The text holds the given one somewhere. -/
def has (needle : Text) : Text → Bool
  | [] => needle.isEmpty
  | c :: rest => needle.isPrefixOf (c :: rest) || has needle rest

/-- Cuts at the first place where the given text stands: what is before it and what is after. -/
def cutAt? (needle : Text) : Text → Option (Text × Text)
  | [] => if needle.isEmpty then some ([], []) else none
  | c :: rest =>
    if needle.isPrefixOf (c :: rest) then some ([], (c :: rest).drop needle.length)
    else (cutAt? needle rest).map fun (before, after) => (c :: before, after)

/-- What follows the given start, if the text begins with it. -/
def dropStart? : Text → Text → Option Text
  | [], x => some x
  | _ :: _, [] => none
  | p :: start, c :: rest => if p == c then dropStart? start rest else none

/-! ### Trimming -/

/-- Drops the longest ending all of whose characters satisfy `p`. -/
def dropEndWhile (p : Char → Bool) : Text → Text
  | [] => []
  | c :: rest =>
    match dropEndWhile p rest with
    | [] => if p c then [] else [c]
    | kept => c :: kept

/-- Drops such characters at both ends. -/
def trimWhile (p : Char → Bool) (x : Text) : Text := dropEndWhile p (x.dropWhile p)

/-! ### Cutting and joining -/

/-- Cuts at every character that satisfies `p`; the pieces are one more than the cuts. -/
def splitWhere (p : Char → Bool) : Text → List Text
  | [] => [[]]
  | c :: rest =>
    if p c then [] :: splitWhere p rest
    else
      match splitWhere p rest with
      | [] => [[c]]
      | piece :: pieces => (c :: piece) :: pieces

/-- Cuts at every occurrence of one character. -/
def split (sep : Char) (x : Text) : List Text := splitWhere (· == sep) x

/-- The lines of a text, cut at the newline characters. -/
def lines (x : Text) : List Text := split '\n' x

/-- Joins pieces with a text between each two. -/
def joinWith (sep : Text) (pieces : List Text) : Text := List.intercalate sep pieces

/-- Joins lines with newline characters. -/
def unlines (pieces : List Text) : Text := joinWith ['\n'] pieces

/-- Writes every line end (`\r\n` and a lone `\r` too) as a newline character. -/
def unifyLineEnds : Text → Text
  | [] => []
  | '\r' :: '\n' :: rest => '\n' :: unifyLineEnds rest
  | c :: rest => (if c = '\r' then '\n' else c) :: unifyLineEnds rest

/-! ### Numbers -/

/-- The decimal digits of a natural number. -/
def ofNat (n : Nat) : Text := Nat.toDigits 10 n

/-- The decimal digits of an integer, after a minus sign if it is negative. -/
def ofInt : Int → Text
  | .ofNat n => ofNat n
  | .negSucc n => '-' :: ofNat (n + 1)

/-! ### Lemmas -/

theorem splitWhere_ne_nil (p : Char → Bool) (x : Text) : splitWhere p x ≠ [] := by
  cases x with
  | nil => simp [splitWhere]
  | cons c rest =>
    simp only [splitWhere]
    split
    · simp
    · split <;> simp

/-- No piece holds a character at which the text is cut. -/
theorem forall_mem_splitWhere (p : Char → Bool) (x : Text) :
    ∀ piece ∈ splitWhere p x, ∀ c ∈ piece, p c = false := by
  induction x with
  | nil => simp [splitWhere]
  | cons c rest ih =>
    simp only [splitWhere]
    split
    · simpa using ih
    · next h =>
      have hc : p c = false := by simpa using h
      split
      · simp [hc]
      · next piece pieces e =>
        rw [e] at ih
        intro q hq
        rcases List.mem_cons.1 hq with rfl | hq
        · simpa [hc] using ih piece (by simp)
        · exact ih q (by simp [hq])

theorem forall_mem_split (sep : Char) (x : Text) : ∀ piece ∈ split sep x, sep ∉ piece := by
  intro piece hp hm
  have h := forall_mem_splitWhere (· == sep) x piece hp sep hm
  simp at h

theorem joinWith_singleton (sep piece : Text) : joinWith sep [piece] = piece :=
  List.intercalate_singleton

theorem joinWith_cons_cons (sep first second : Text) (more : List Text) :
    joinWith sep (first :: second :: more) = first ++ sep ++ joinWith sep (second :: more) := by
  simp [joinWith, List.intercalate, List.intersperse]

theorem mem_of_mem_joinWith {sep : Text} {pieces : List Text} {c : Char}
    (h : c ∈ joinWith sep pieces) : c ∈ sep ∨ ∃ piece ∈ pieces, c ∈ piece := by
  induction pieces with
  | nil => cases h
  | cons first more ih =>
    cases more with
    | nil => exact .inr ⟨first, by simp, by simpa [joinWith] using h⟩
    | cons second rest =>
      rw [joinWith_cons_cons, List.mem_append, List.mem_append] at h
      rcases h with (h | h) | h
      · exact .inr ⟨first, by simp, h⟩
      · exact .inl h
      · exact (ih h).imp_right fun ⟨piece, hp, hc⟩ => ⟨piece, by simp [hp], hc⟩

/-- A cut at one character parts the pieces before it from those after it. -/
theorem splitWhere_append_cons {p : Char → Bool} {c : Char} (h : p c = true) (x y : Text) :
    splitWhere p (x ++ c :: y) = splitWhere p x ++ splitWhere p y := by
  induction x with
  | nil => simp [splitWhere, h]
  | cons d x ih =>
    simp only [List.cons_append, splitWhere, ih]
    split
    · rfl
    · match splitWhere p x, splitWhere_ne_nil p x with
      | _ :: _, _ => rfl

/-- A text without a place to cut is one piece. -/
theorem splitWhere_of_forall {p : Char → Bool} {x : Text} (h : ∀ c ∈ x, p c = false) :
    splitWhere p x = [x] := by
  induction x with
  | nil => rfl
  | cons c x ih =>
    rw [splitWhere, ih fun d hd => h d (List.mem_cons_of_mem _ hd), h c List.mem_cons_self]
    rfl

/-- Cutting loses nothing but the separators. -/
theorem joinWith_split (sep : Char) (x : Text) : joinWith [sep] (split sep x) = x := by
  unfold split
  induction x with
  | nil => simp [splitWhere, joinWith]
  | cons c rest ih =>
    have hne := splitWhere_ne_nil (· == sep) rest
    simp only [splitWhere]
    split
    · next h =>
      have hc : c = sep := by simpa using h
      match e : splitWhere (· == sep) rest, hne with
      | piece :: pieces, _ =>
        rw [e] at ih
        rw [joinWith_cons_cons, ih, hc]
        rfl
    · match e : splitWhere (· == sep) rest, hne with
      | piece :: pieces, _ =>
        rw [e] at ih
        cases pieces with
        | nil => simpa [joinWith] using ih
        | cons second more =>
          rw [joinWith_cons_cons] at ih ⊢
          simp [← ih]

/-- Pieces without separators are found again between the separators that join them. -/
theorem split_joinWith {sep : Char} {pieces : List Text} (hne : pieces ≠ [])
    (h : ∀ piece ∈ pieces, sep ∉ piece) : split sep (joinWith [sep] pieces) = pieces := by
  have whole (piece : Text) (hp : sep ∉ piece) : splitWhere (· == sep) piece = [piece] :=
    splitWhere_of_forall fun c hc => beq_false_of_ne fun e => hp (e ▸ hc)
  unfold split
  induction pieces with
  | nil => exact absurd rfl hne
  | cons piece more ih =>
    cases more with
    | nil => simpa [joinWith] using whole piece (h piece (by simp))
    | cons second rest =>
      rw [joinWith_cons_cons, List.append_assoc, List.singleton_append,
        splitWhere_append_cons (by simp), whole piece (h piece (by simp)),
        ih (by simp) fun q hq => h q (by simp [hq])]
      rfl

theorem eq_append_of_dropStart? {start x rest : Text} (h : dropStart? start x = some rest) :
    x = start ++ rest := by
  induction start generalizing x with
  | nil => simpa [dropStart?] using h
  | cons p start ih =>
    cases x with
    | nil => simp [dropStart?] at h
    | cons c x =>
      simp only [dropStart?] at h
      split at h
      · next e => simp [ih h, (by simpa using e : p = c)]
      · simp at h

theorem length_of_dropStart? {start x rest : Text} (h : dropStart? start x = some rest) :
    x.length = start.length + rest.length := by
  rw [eq_append_of_dropStart? h, List.length_append]

theorem length_of_cutAt? {needle x before after : Text}
    (h : cutAt? needle x = some (before, after)) : after.length ≤ x.length := by
  induction x generalizing before with
  | nil =>
    simp only [cutAt?] at h
    split at h <;> simp_all
  | cons c rest ih =>
    simp only [cutAt?] at h
    split at h
    · obtain ⟨_, rfl⟩ := by simpa using h
      simp only [List.length_drop]
      omega
    · obtain ⟨⟨b, a⟩, hb, e⟩ := Option.map_eq_some_iff.1 h
      obtain ⟨_, rfl⟩ := by simpa using e
      have := ih hb
      simp only [List.length_cons]
      omega

end Text

end ApiReference
