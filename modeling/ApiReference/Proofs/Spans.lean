import ApiReference.Document.Linking

/-! # Literal spans of a line

A line is read as its literal spans and the text after the last one in exactly one way, if spans hold
no backticks and at most one backtick is left over (`SpanLine.reads_iff`). -/

namespace ApiReference

namespace SpanLine

/-- What stands after a span: the text before the next one, or the tail of the line. -/
def textAfter (tail : Text) : List Span → Text
  | [] => tail
  | next :: _ => next.before

/-- A span is written between the text before it and the rest of the line. -/
theorem render_cons (write : Span → Text → Text) (tail : Text) (span : Span) (more : List Span) :
    render write tail (span :: more) =
      span.before ++ write span (textAfter tail more) ++ render write tail more := by
  cases more with
  | nil => rfl
  | cons next more => rfl

/-- The spans and the tail are those of the line: written one after another they are the line, no
backtick stands between the marks of spans or in them, and at most one is left over. -/
structure Reads (line : Text) (spanLine : SpanLine) : Prop where
  written : render (fun span _ => literal span.inner) spanLine.tail spanLine.spans = line
  spans : ∀ span ∈ spanLine.spans, '\x60' ∉ span.before ∧ '\x60' ∉ span.inner
  tail : spanLine.tail.count '\x60' ≤ 1

theorem ofPieces_cons_cons (before inner : Text) {more : List Text} (h : more ≠ []) :
    ofPieces (before :: inner :: more) =
      ⟨⟨before, inner⟩ :: (ofPieces more).spans, (ofPieces more).tail⟩ := by
  cases more with
  | nil => exact absurd rfl h
  | cons piece more => rfl

theorem reads_ofPieces : ∀ pieces : List Text, (∀ piece ∈ pieces, '\x60' ∉ piece) →
    Reads (Text.joinWith ['\x60'] pieces) (ofPieces pieces)
  | [], _ => ⟨rfl, (fun span hs => by cases hs), Nat.zero_le 1⟩
  | [tail], h => by
      refine ⟨by simp [ofPieces, render, Text.joinWith], (fun span hs => by cases hs), ?_⟩
      rw [ofPieces, List.count_eq_zero.2 (h tail List.mem_cons_self)]
      exact Nat.zero_le 1
  | [before, rest], h => by
      refine ⟨by simp [ofPieces, render, Text.joinWith], ?_, ?_⟩
      · exact fun span hs => by cases hs
      · have hb : before.count '\x60' = 0 := List.count_eq_zero.2 (h before (by simp))
        have hr : rest.count '\x60' = 0 := List.count_eq_zero.2 (h rest (by simp))
        simp [ofPieces, hb, hr]
  | before :: inner :: piece :: more, h => by
      obtain ⟨hwritten, hspans, htail⟩ := reads_ofPieces (piece :: more) fun q hq =>
        h q (List.mem_cons_of_mem _ (List.mem_cons_of_mem _ hq))
      rw [ofPieces_cons_cons before inner (List.cons_ne_nil _ _)]
      refine ⟨?_, ?_, htail⟩
      · rw [render_cons, hwritten, Text.joinWith_cons_cons, Text.joinWith_cons_cons]
        simp [literal]
      · intro span hs
        rcases List.mem_cons.1 hs with rfl | hs
        · exact ⟨h before (by simp), h inner (by simp)⟩
        · exact hspans span hs

theorem reads_ofText (line : Text) : Reads line (ofText line) := by
  have h := reads_ofPieces (Text.split '\x60' line) (Text.forall_mem_split '\x60' line)
  rwa [Text.joinWith_split] at h

theorem split_of_not_mem {x : Text} (h : '\x60' ∉ x) : Text.split '\x60' x = [x] :=
  Text.splitWhere_of_forall fun _ hc => beq_false_of_ne fun e => h (e ▸ hc)

theorem split_append_cons (x y : Text) :
    Text.split '\x60' (x ++ '\x60' :: y) = Text.split '\x60' x ++ Text.split '\x60' y :=
  Text.splitWhere_append_cons (by rfl) x y

/-- A text with one backtick at most is read as a tail. -/
theorem ofText_tail {tail : Text} (h : tail.count '\x60' ≤ 1) : ofText tail = ⟨[], tail⟩ := by
  by_cases hm : '\x60' ∈ tail
  · obtain ⟨x, y, rfl⟩ := List.append_of_mem hm
    rw [List.count_append, List.count_cons_self] at h
    have hx : '\x60' ∉ x := List.count_eq_zero.1 (by omega)
    have hy : '\x60' ∉ y := List.count_eq_zero.1 (by omega)
    rw [ofText, split_append_cons, split_of_not_mem hx, split_of_not_mem hy]
    rfl
  · rw [ofText, split_of_not_mem hm]
    rfl

theorem ofText_span {before inner : Text} (hb : '\x60' ∉ before) (hi : '\x60' ∉ inner)
    (line : Text) :
    ofText (before ++ literal inner ++ line) =
      ⟨⟨before, inner⟩ :: (ofText line).spans, (ofText line).tail⟩ := by
  have hline : before ++ literal inner ++ line = before ++ '\x60' :: (inner ++ '\x60' :: line) := by
    simp [literal]
  have hne : Text.split '\x60' line ≠ [] := Text.splitWhere_ne_nil _ _
  rw [ofText, hline, split_append_cons, split_append_cons, split_of_not_mem hb, split_of_not_mem hi]
  exact ofPieces_cons_cons before inner hne

/-- A line is read in exactly one way. -/
theorem reads_iff {line : Text} {spanLine : SpanLine} :
    Reads line spanLine ↔ spanLine = ofText line := by
  constructor
  · rintro ⟨rfl, hspans, htail⟩
    obtain ⟨spans, tail⟩ := spanLine
    induction spans with
    | nil => exact (ofText_tail htail).symm
    | cons span spans ih =>
        obtain ⟨hb, hi⟩ := hspans span List.mem_cons_self
        have hmore := ih fun s hs => hspans s (List.mem_cons_of_mem _ hs)
        rw [render_cons, ofText_span hb hi, ← hmore htail]
  · rintro rfl
    exact reads_ofText line

end SpanLine

end ApiReference
