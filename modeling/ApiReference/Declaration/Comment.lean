import ApiReference.Text.Blank

/-! # Doc comments

The comment of a declaration, signature or parameter, sorted into its parts. -/

namespace ApiReference

/-- A doc comment. -/
structure Comment where
  summary : Text := []
  remarks : List Text := []
  warnings : List Text := []
  notes : List Text := []
  examples : List Text := []
  returns : Text := []
deriving DecidableEq, Inhabited

/-- The comment says nothing. -/
def Comment.isEmpty (comment : Comment) : Bool :=
  comment.summary.strip.isEmpty && comment.remarks.isEmpty && comment.warnings.isEmpty &&
    comment.notes.isEmpty && comment.examples.isEmpty && comment.returns.strip.isEmpty

/-- The trimmed summary of a comment that may be missing. -/
def summaryText : Option Comment → Text
  | none => []
  | some comment => comment.summary.strip

end ApiReference
