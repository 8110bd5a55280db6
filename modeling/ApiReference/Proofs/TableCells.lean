import ApiReference.Page.Fragment
import ApiReference.Proofs.EscapedSigns

/-! # Cells of tables

Every row of a table stands on a line of its own, and its cells are found again on that line
(`Fragment.cells_of_table`).  A line is cut at the bars that no backslash stands right before
(`Text.splitBare`).  The bars of a cell are all escaped, and a blank stands between a cell and the
next bar, so no backslash at the end of a cell reaches that bar (`Text.splitBare_escapeSign`). -/

namespace ApiReference

namespace Text

/-! ### Bare signs -/

/-- Cuts at every such sign that stands alone; `escaped` says that a backslash stands right before
the text. -/
def splitBareFrom (sign : Char) (escaped : Bool) : Text → List Text
  | [] => [[]]
  | c :: rest =>
    if c = sign ∧ escaped = false then [] :: splitBareFrom sign false rest
    else
      match splitBareFrom sign (c == '\x5c') rest with
      | [] => [[c]]
      | piece :: pieces => (c :: piece) :: pieces

/-- Cuts at every such sign that no backslash stands right before. -/
def splitBare (sign : Char) (x : Text) : List Text := splitBareFrom sign false x

section

variable {sign : Char}

theorem splitBareFrom_self (sign : Char) (x : Text) :
    splitBareFrom sign false (sign :: x) = [] :: splitBareFrom sign false x := by
  rw [splitBareFrom, if_pos ⟨rfl, rfl⟩]

theorem splitBareFrom_cons {c : Char} {escaped : Bool} (h : ¬ (c = sign ∧ escaped = false))
    {x piece : Text} {pieces : List Text}
    (hx : splitBareFrom sign (c == '\x5c') x = piece :: pieces) :
    splitBareFrom sign escaped (c :: x) = (c :: piece) :: pieces := by
  rw [splitBareFrom, if_neg h, hx]

/-- A text whose signs are escaped is cut first at the sign that follows it after a blank. -/
theorem splitBareFrom_escapeSign (hslash : sign ≠ '\x5c') (hblank : sign ≠ ' ') (escaped : Bool)
    (x rest : Text) :
    splitBareFrom sign escaped (escapeSign sign x ++ ' ' :: sign :: rest) =
      (escapeSign sign x ++ [' ']) :: splitBareFrom sign false rest := by
  induction x generalizing escaped with
  | nil =>
      exact splitBareFrom_cons (fun h => hblank h.1.symm) (splitBareFrom_self sign rest)
  | cons c x ih =>
      by_cases hc : c = sign
      · subst hc
        rw [escapeSign_cons_self]
        -- the backslash keeps the sign in the piece, and the sign is no backslash for the next one
        exact splitBareFrom_cons (fun h => hslash h.1.symm)
          (splitBareFrom_cons (fun h => Bool.noConfusion h.2) (ih _))
      · rw [escapeSign_cons hc]
        exact splitBareFrom_cons (fun h => hc h.1) (ih _)

end

end Text

/-! ### Cells -/

namespace Fragment

/-- A cell as a table shows it: on one line and trimmed. -/
def shownCell (x : Text) : Text := Text.strip (x.map fun c => if c = '\n' then ' ' else c)

/-- The cells of a line of a table: what stands between its bare bars, trimmed and without escapes.
The first and the last one stand outside the outer bars. -/
def cellsOfLine (line : Text) : List Text :=
  (Text.splitBare '|' line).map fun piece => Text.unescapeSign '|' piece.strip

theorem cell_eq (x : Text) : cell x = Text.escapeSign '|' (shownCell x) := by
  have hchars : x.flatMap cellChar =
      Text.escapeSign '|' (x.map fun c => if c = '\n' then ' ' else c) := by
    induction x with
    | nil => rfl
    | cons c x ih =>
        rw [List.flatMap_cons, ih, List.map_cons, cellChar]
        by_cases hbar : c = '|'
        · subst hbar
          rfl
        by_cases hline : c = '\n'
        · subst hline
          rfl
        simp [Text.escapeSign, hbar, hline]
  rw [cell, hchars, Text.strip_escapeSign (by decide), shownCell]

theorem not_mem_shownCell (x : Text) : '\n' ∉ shownCell x := by
  intro hm
  obtain ⟨c, -, hc⟩ := List.mem_map.1 (Text.strip_subset _ hm)
  split at hc
  · cases hc
  · next h => exact h hc

theorem not_mem_cell (x : Text) : '\n' ∉ cell x := by
  rw [cell_eq]
  exact fun hm => (Text.mem_escapeSign hm).elim (not_mem_shownCell x) (by decide)

/-- A cell is read between the blanks around it as it is shown. -/
theorem unescapeSign_strip_cell (x : Text) :
    Text.unescapeSign '|' (Text.strip (Text.escapeSign '|' (' ' :: shownCell x) ++ [' '])) =
      shownCell x := by
  have hstart : Text.strip (' ' :: shownCell x) = Text.strip (shownCell x) := by
    rw [← Text.strip_stripStart, ← Text.strip_stripStart (shownCell x)]
    rfl
  rw [Text.strip_append_blank _ (by decide), Text.strip_escapeSign (by decide), hstart,
    shownCell, Text.strip_strip, Text.unescapeSign_escapeSign (by decide)]

/-- After the first bar of a row, every cell is followed by a bar. -/
theorem splitBareFrom_row {row : List Text} (h : row ≠ []) :
    Text.splitBareFrom '|' false (' ' :: (Text.joinWith " | " (row.map cell) ++ " |")) =
      row.map (fun x => Text.escapeSign '|' (' ' :: shownCell x) ++ [' ']) ++ [[]] := by
  have hcut (x rest : Text) : Text.splitBareFrom '|' false (' ' :: (cell x ++ ' ' :: '|' :: rest)) =
      (Text.escapeSign '|' (' ' :: shownCell x) ++ [' ']) :: Text.splitBareFrom '|' false rest := by
    have hspaced : Text.escapeSign '|' (' ' :: shownCell x) = ' ' :: cell x := by
      rw [Text.escapeSign_cons (by decide), cell_eq]
    have hcell := Text.splitBareFrom_escapeSign (by decide : '|' ≠ '\x5c') (by decide) false
      (' ' :: shownCell x) rest
    rw [hspaced] at hcell ⊢
    exact hcell
  induction row with
  | nil => exact absurd rfl h
  | cons x row ih =>
      cases row with
      | nil =>
          rw [List.map_singleton, List.map_singleton, Text.joinWith_singleton]
          exact hcut x []
      | cons y row =>
          rw [List.map_cons, List.map_cons, Text.joinWith_cons_cons, ← List.map_cons,
            List.append_assoc, List.append_assoc]
          exact (hcut x _).trans (congrArg _ (ih (List.cons_ne_nil _ _)))

/-- The cells of a row are found again on its line. -/
theorem cellsOfLine_tableRow {row : List Text} (h : row ≠ []) :
    cellsOfLine (Layout.tableRow (row.map cell)) = [] :: row.map shownCell ++ [[]] := by
  have hline : Layout.tableRow (row.map cell) =
      '|' :: ' ' :: (Text.joinWith " | " (row.map cell) ++ " |") := rfl
  rw [cellsOfLine, hline, Text.splitBare, Text.splitBareFrom_self, splitBareFrom_row h]
  simp only [List.map_cons, List.map_append, List.map_map, Function.comp_def,
    unescapeSign_strip_cell]
  rfl

/-! ### Lines -/

theorem not_mem_tableRow {cells : List Text} (h : ∀ x ∈ cells, '\n' ∉ x) :
    '\n' ∉ Layout.tableRow cells := by
  have hjoined : '\n' ∉ Text.joinWith " | " cells := by
    intro hm
    rcases Text.mem_of_mem_joinWith hm with hm | ⟨x, hx, hm⟩
    · exact absurd hm (by decide)
    · exact h x hx hm
  have hopening : '\n' ∉ ("| " : Text) := by decide
  have hclosing : '\n' ∉ (" |" : Text) := by decide
  rw [Layout.tableRow, List.mem_append, List.mem_append, not_or, not_or]
  exact ⟨⟨hopening, hjoined⟩, hclosing⟩

theorem not_mem_tableRule (headers : List Text) : '\n' ∉ Layout.tableRule headers := by
  simp [Layout.tableRule, List.mem_replicate]

theorem lines_standardTable {headers : List Text} (hheaders : ∀ x ∈ headers, '\n' ∉ x)
    (rows : List (List Text)) :
    Text.lines (Layout.standardTable headers (rows.map fun row => row.map cell)) =
      Layout.tableRow headers :: Layout.tableRule headers ::
        rows.map fun row => Layout.tableRow (row.map cell) := by
  rw [Layout.standardTable, Text.lines_unlines (List.cons_ne_nil _ _), List.map_map]
  · rfl
  · intro line hline
    rw [List.mem_cons, List.mem_cons, List.map_map, List.mem_map] at hline
    rcases hline with rfl | rfl | ⟨row, -, rfl⟩
    · exact not_mem_tableRow hheaders
    · exact not_mem_tableRule headers
    · refine not_mem_tableRow fun x hx => ?_
      obtain ⟨y, -, rfl⟩ := List.mem_map.1 hx
      exact not_mem_cell y

/-- A table whose headers are on one line each, and whose rows have cells, has a line for the headers,
one below them and one for every row.  On the line of a row its cells stand between the outer bars,
and nothing else. -/
theorem cells_of_table (headers : List Text) (rows : List (List Text))
    (hheaders : ∀ x ∈ headers, '\n' ∉ x) (hrows : ∀ row ∈ rows, row ≠ []) :
    ∃ block, table .standard headers rows = .ok block ∧
      block.text.lines.length = 2 + rows.length ∧
      (block.text.lines.drop 2).map cellsOfLine =
        rows.map fun row => [] :: row.map shownCell ++ [[]] := by
  refine ⟨_, rfl, ?_⟩
  have hlines := lines_standardTable hheaders rows
  constructor
  · refine (congrArg List.length hlines).trans ?_
    rw [List.length_cons, List.length_cons, List.length_map, Nat.add_comm 2]
  · refine (congrArg (fun lines => (lines.drop 2).map cellsOfLine) hlines).trans ?_
    rw [List.drop_succ_cons, List.drop_succ_cons, List.drop_zero, List.map_map]
    exact List.map_congr_left fun row hrow => cellsOfLine_tableRow (hrows row hrow)

/-- Bars, backslashes before bars and at the end, blank cells and line ends in cells. -/
theorem cells_of_table_bars :
    ∃ block, table .standard ["Name", "Value"] [["a|b\\", "\n| "], ["", "\\|\r\\"]] = .ok block ∧
      block.text.lines.length = 4 ∧
      (block.text.lines.drop 2).map cellsOfLine =
        ([["", "a|b\\", "|", ""], ["", "", "\\|\r\\", ""]] : List (List Text)) :=
  cells_of_table ["Name", "Value"] [["a|b\\", "\n| "], ["", "\\|\r\\"]] (by decide) (by decide)

end Fragment

end ApiReference
