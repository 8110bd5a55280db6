import ApiReference.Text.Blank
import ApiReference.Text.Case

/-! # Inline markup

Escapes for running text and for attributes, anchors, and the links in a piece of text. -/

namespace ApiReference.Markup

/-! ### Escapes -/

/-- The escape of a character that would begin markup in running text. -/
def escapeInlineChar (c : Char) : Text :=
  if c == '\x7b' || c == '\x7d' then ['\x5c', c]
  else if c == '<' then "&lt;"
  else if c == '>' then "&gt;"
  else [c]

/-- A text for use in running text, outside literal spans. -/
def escapeInline (x : Text) : Text := x.flatMap escapeInlineChar

/-- The escape of a character in a double-quoted attribute. -/
def attributeChar (c : Char) : Text :=
  if c == '\x22' then ['\x5c', '\x22']
  else if c == '\n' then [' ']
  else if c == '\r' then []
  else [c]

/-- A text for use in a double-quoted attribute: on one line, with its quotation marks escaped. -/
def attributeValue (x : Text) : Text := x.flatMap attributeChar

/-- The anchor of a heading: its words in lower case, joined by hyphens. -/
def anchor (x : Text) : Text := Text.joinWith ['-'] (Text.words x.lower)

/-! ### Links -/

/-- The text shows the signs of a link. -/
def hasLinks (x : Text) : Bool := x.contains '[' && Text.has "](" x

/-- What follows the opening bracket of a link: its label, and what is after its target.  Neither
label nor target is empty. -/
def linkRest? (x : Text) : Option (Text × Text) :=
  match x.dropWhile (· != ']') with
  | ']' :: '(' :: target =>
    match target.dropWhile (· != ')') with
    | ')' :: rest =>
      if (x.takeWhile (· != ']')).isEmpty || (target.takeWhile (· != ')')).isEmpty then none
      else some (x.takeWhile (· != ']'), rest)
    | _ => none
  | _ => none

theorem length_of_linkRest? {x label rest : Text} (h : linkRest? x = some (label, rest)) :
    rest.length < x.length := by
  unfold linkRest? at h
  split at h
  · next target e =>
    split at h
    · next r e' =>
      split at h
      · simp at h
      · obtain ⟨_, rfl⟩ := by simpa using h
        have h1 : (x.dropWhile (· != ']')).length ≤ x.length := (List.dropWhile_suffix _).length_le
        have h2 : (target.dropWhile (· != ')')).length ≤ target.length :=
          (List.dropWhile_suffix _).length_le
        rw [e] at h1
        rw [e'] at h2
        simp only [List.length_cons] at h1 h2
        omega
    · simp at h
  · simp at h

/-- The text with every link replaced by its label. -/
def stripLinks : Text → Text
  | [] => []
  | c :: rest =>
    if c = '[' then
      match h : linkRest? rest with
      | some (label, after) =>
        have := length_of_linkRest? h
        label ++ stripLinks after
      | none => c :: stripLinks rest
    else c :: stripLinks rest
termination_by x => x.length

end ApiReference.Markup
