import ApiReference.Text.Blank

/-! # Prose

Sentences and their final marks.  A text ends in prose if its last line is a sentence and not
markup: a heading, a fence, a tag or a table row. -/

namespace ApiReference.Markup

/-- What a line of markup begins with. -/
def markupStarts : List Text := ["#", "```", "<", "|"]

/-- The last line of the trimmed text is a sentence, not markup. -/
def endsWithProse (x : Text) : Bool :=
  match (Text.lines x.strip).getLast? with
  | none => false
  | some line =>
    let last := line.strip
    !last.isEmpty && !markupStarts.any fun start => last.startsWith start

/-- The trimmed text, ending in exactly one full stop, if it ends in prose without a question or
exclamation mark. -/
def ensurePeriod (x : Text) : Text :=
  let cleaned := x.strip
  if cleaned.isEmpty || !endsWithProse cleaned || cleaned.endsWith ['?'] || cleaned.endsWith ['!']
  then cleaned
  else Text.dropEndWhile (fun c => c == '.' || c == ' ' || c == '\t') cleaned ++ ['.']

/-- Adds a sentence: after prose on the same line, after markup as a paragraph of its own. -/
def appendSentence (x sentence : Text) : Text :=
  let text := x.strip
  if text.isEmpty then sentence
  else if endsWithProse text then ensurePeriod text ++ ' ' :: sentence
  else text ++ '\n' :: '\n' :: sentence

end ApiReference.Markup
