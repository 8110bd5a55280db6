import ApiReference.Declaration.Comment
import ApiReference.Page.Fragment

/-! # Comments on pages

The blocks of a doc comment: callouts for remarks, warnings and notes, then the examples.  Examples
are the fenced code in the example texts; a text without any is an example as a whole. -/

namespace ApiReference

/-- A piece of example code. -/
structure Example where
  language : Text
  code : Text
deriving DecidableEq, Inhabited

/-- The language of examples that name none. -/
def defaultLanguage : Text := "typescript"

/-- Three backticks. -/
def fenceMark : Text := "```"

/-- The code of the fence whose opening mark was just read: a word for the language, the rest of the
line, and everything up to the next mark. -/
def fenceBody? (x : Text) : Option (Example × Text) :=
  match x.dropWhile (· != '\n') with
  | _ :: body =>
    (Text.cutAt? fenceMark body).map fun (code, after) =>
      let word := x.takeWhile isWordChar
      (⟨if word.isEmpty then defaultLanguage else word, code.strip⟩, after)
  | [] => none

theorem length_of_fenceBody? {x after : Text} {found : Example}
    (h : fenceBody? x = some (found, after)) : after.length ≤ x.length := by
  unfold fenceBody? at h
  split at h
  · next c body e =>
    obtain ⟨⟨code, rest⟩, hc, e'⟩ := Option.map_eq_some_iff.1 h
    obtain ⟨_, rfl⟩ := by simpa using e'
    have h1 := Text.length_of_cutAt? hc
    have h2 : (x.dropWhile (· != '\n')).length ≤ x.length := (List.dropWhile_suffix _).length_le
    rw [e] at h2
    simp only [List.length_cons] at h2
    omega
  · simp at h

/-- The code of a fence that opens at the start of a text. -/
def fenced? (x : Text) : Option (Example × Text) := (fenceMark.dropStart? x).bind fenceBody?

theorem length_of_fenced? {x after : Text} {found : Example}
    (h : fenced? x = some (found, after)) : after.length < x.length := by
  obtain ⟨r, hr, hf⟩ := Option.bind_eq_some_iff.1 h
  have h1 := length_of_fenceBody? hf
  have h2 := Text.length_of_dropStart? hr
  have h3 : fenceMark.length = 3 := rfl
  omega

/-- The fenced code in a text; a mark that opens nothing is passed over. -/
def fencedExamples : Text → List Example
  | [] => []
  | c :: rest =>
    match _h : fenced? (c :: rest) with
    | some (found, after) => found :: fencedExamples after
    | none => fencedExamples rest
termination_by x => x.length
decreasing_by
  · exact length_of_fenced? _h
  · exact Nat.lt_succ_self rest.length

/-- The examples of one text. -/
def examplesOf (x : Text) : List Example :=
  match fencedExamples x with
  | [] => if x.isAllBlank then [] else [⟨defaultLanguage, x.strip⟩]
  | found => found

/-- Examples as blocks: several of them in a group, where their languages are their titles. -/
def exampleBlocks : List Example → List Block
  | [] => []
  | [only] => [Block.code only.code only.language]
  | several =>
    Fragment.codeGroup (several.map fun one => ⟨one.code, one.language, one.language.capitalize⟩)

/-- A callout for each text that is not blank. -/
def calloutBlocks (sort : Text) (texts : List Text) : List Block :=
  (texts.filter fun x => !x.isAllBlank).flatMap fun x =>
    Fragment.callout sort (Fragment.richText x.strip) []

/-- The blocks of a comment, its summary and its word on the result apart. -/
def commentBlocks (comment : Comment) : List Block :=
  calloutBlocks "info" comment.remarks ++ calloutBlocks "warning" comment.warnings ++
    calloutBlocks "note" comment.notes ++ exampleBlocks (comment.examples.flatMap examplesOf)

/-- The blocks of a comment that may be missing. -/
def commentBlocks? : Option Comment → List Block
  | none => []
  | some comment => commentBlocks comment

end ApiReference
