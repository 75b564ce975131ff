import Mathlib.Data.List.Basic

/-!
# Comma-separated rows

The text of a table with commas between cells and a newline after every row, and a reader of it. A cell is quoted when
it has to be, and a quote in it is doubled. What is written is read back, whatever is in the cells.
-/

namespace NightScout.Lib

/-! ## Writing -/

def isSpecialChar (c : Char) : Bool := c = ',' || c = '"' || c = '\n' || c = '\r'

/-- A quote is written twice. -/
def doubleQuote (c : Char) : List Char := if c = '"' then ['"', '"'] else [c]

def quotedCell (cell : List Char) : List Char := '"' :: (cell.flatMap doubleQuote ++ ['"'])

def writeCell (cell : List Char) : List Char := if cell.any isSpecialChar then quotedCell cell else cell

/-- The cells after the first, and the end of the row. -/
def writeCells : List (List Char) → List Char
  | [] => ['\n']
  | cell :: cells => ',' :: (writeCell cell ++ writeCells cells)

/-- A row. One empty cell alone is quoted, since an empty line is no row. -/
def writeRow : List (List Char) → List Char
  | [] => ['\n']
  | [[]] => ['"', '"', '\n']
  | cell :: cells => writeCell cell ++ writeCells cells

def writeRows (rows : List (List (List Char))) : List Char := rows.flatMap writeRow

/-! ## Reading -/

/-- Where the reader is. -/
inductive CsvState where
  | rowStart
  | cellStart
  | plain
  | quoted
  | afterQuote
  deriving DecidableEq

/-- The rows of a text, with the cells and the part of a cell read so far. A line end is a newline, or a carriage
    return with or without one. -/
def readRows : CsvState → Bool → List (List Char) → List Char → List Char → List (List (List Char))
  | .rowStart, _, _, _, [] => []
  | _, _, row, cell, [] => [row ++ [cell]]
  | .rowStart, afterReturn, row, cell, c :: cs =>
    if c = '\n' then if afterReturn then readRows .rowStart false [] [] cs else [] :: readRows .rowStart false [] [] cs
    else if c = '\r' then [] :: readRows .rowStart true [] [] cs
    else if c = '"' then readRows .quoted false row cell cs
    else if c = ',' then readRows .cellStart false (row ++ [cell]) [] cs
    else readRows .plain false row (cell ++ [c]) cs
  | .cellStart, _, row, cell, c :: cs =>
    if c = '\n' then (row ++ [cell]) :: readRows .rowStart false [] [] cs
    else if c = '\r' then (row ++ [cell]) :: readRows .rowStart true [] [] cs
    else if c = '"' then readRows .quoted false row cell cs
    else if c = ',' then readRows .cellStart false (row ++ [cell]) [] cs
    else readRows .plain false row (cell ++ [c]) cs
  | .plain, _, row, cell, c :: cs =>
    if c = '\n' then (row ++ [cell]) :: readRows .rowStart false [] [] cs
    else if c = '\r' then (row ++ [cell]) :: readRows .rowStart true [] [] cs
    else if c = ',' then readRows .cellStart false (row ++ [cell]) [] cs
    else readRows .plain false row (cell ++ [c]) cs
  | .quoted, _, row, cell, c :: cs =>
    if c = '"' then readRows .afterQuote false row cell cs
    else readRows .quoted false row (cell ++ [c]) cs
  | .afterQuote, _, row, cell, c :: cs =>
    if c = '"' then readRows .quoted false row (cell ++ ['"']) cs
    else if c = '\n' then (row ++ [cell]) :: readRows .rowStart false [] [] cs
    else if c = '\r' then (row ++ [cell]) :: readRows .rowStart true [] [] cs
    else if c = ',' then readRows .cellStart false (row ++ [cell]) [] cs
    else readRows .plain false row (cell ++ [c]) cs

def readCsv (text : List Char) : List (List (List Char)) := readRows .rowStart false [] [] text

/-! ## What is written is read back -/

/-- A comma or a newline comes next. -/
def CellEnd (cs : List Char) : Prop := ∃ c rest, cs = c :: rest ∧ (c = ',' ∨ c = '\n')

theorem cellEnd_writeCells (cells : List (List Char)) (rest : List Char) : CellEnd (writeCells cells ++ rest) := by
  cases cells with
  | nil => exact ⟨'\n', rest, rfl, .inr rfl⟩
  | cons cell cells => exact ⟨',', _, rfl, .inl rfl⟩

theorem readRows_plain (row : List (List Char)) (cs : List Char) (hcs : cs.any isSpecialChar = false)
    (cell rest : List Char) :
    readRows .plain false row cell (cs ++ rest) = readRows .plain false row (cell ++ cs) rest := by
  induction cs generalizing cell with
  | nil => simp
  | cons c cs ih =>
    rw [List.any_cons, Bool.or_eq_false_iff] at hcs
    have hc := hcs.1
    simp only [isSpecialChar, Bool.or_eq_false_iff, decide_eq_false_iff_not] at hc
    obtain ⟨⟨⟨hcomma, _⟩, hnewline⟩, hreturn⟩ := hc
    rw [List.cons_append, readRows, if_neg hnewline, if_neg hreturn, if_neg hcomma, ih hcs.2, List.append_assoc]
    rfl

theorem readRows_quoted (row : List (List Char)) (cs cell rest : List Char) :
    readRows .quoted false row cell (cs.flatMap doubleQuote ++ '"' :: rest) =
      readRows .afterQuote false row (cell ++ cs) rest := by
  induction cs generalizing cell with
  | nil => simp [readRows]
  | cons c cs ih =>
    rw [List.flatMap_cons, List.append_assoc]
    have hstep : readRows .quoted false row cell (doubleQuote c ++ (cs.flatMap doubleQuote ++ '"' :: rest)) =
        readRows .quoted false row (cell ++ [c]) (cs.flatMap doubleQuote ++ '"' :: rest) := by
      unfold doubleQuote
      split
      next hc =>
        subst hc
        rfl
      next hc => rw [List.singleton_append, readRows, if_neg hc]
    rw [hstep, ih, List.append_assoc]
    rfl

/-- At the end of a cell it does not matter how the cell was written. -/
theorem readRows_cellEnd {row : List (List Char)} {cell rest : List Char} (hend : CellEnd rest) :
    readRows .afterQuote false row cell rest = readRows .plain false row cell rest := by
  obtain ⟨c, rest, rfl, rfl | rfl⟩ := hend <;> rfl

/-- A cell is read up to its end, whatever it holds. -/
theorem readRows_writeCell (row : List (List Char)) (cell rest : List Char) (hend : CellEnd rest) :
    readRows .cellStart false row [] (writeCell cell ++ rest) = readRows .plain false row cell rest := by
  unfold writeCell
  split
  · unfold quotedCell
    rw [List.cons_append, List.append_assoc, List.singleton_append]
    show readRows .quoted false row [] (cell.flatMap doubleQuote ++ '"' :: rest) = _
    rw [readRows_quoted, List.nil_append, readRows_cellEnd hend]
  next hplain =>
    rw [Bool.not_eq_true] at hplain
    cases cell with
    | nil =>
      obtain ⟨c, rest, rfl, rfl | rfl⟩ := hend <;> rfl
    | cons c cs =>
      rw [List.any_cons, Bool.or_eq_false_iff] at hplain
      have hc := hplain.1
      simp only [isSpecialChar, Bool.or_eq_false_iff, decide_eq_false_iff_not] at hc
      obtain ⟨⟨⟨hcomma, hquote⟩, hnewline⟩, hreturn⟩ := hc
      rw [List.cons_append, readRows, if_neg hnewline, if_neg hreturn, if_neg hquote, if_neg hcomma,
        readRows_plain row cs hplain.2]
      rfl

theorem readRows_writeCells (cells : List (List Char)) (row : List (List Char)) (cell rest : List Char) :
    readRows .plain false row cell (writeCells cells ++ rest) =
      (row ++ cell :: cells) :: readRows .rowStart false [] [] rest := by
  induction cells generalizing row cell with
  | nil => rfl
  | cons next cells ih =>
    rw [writeCells, List.cons_append, List.append_assoc]
    show readRows .cellStart false (row ++ [cell]) [] (writeCell next ++ (writeCells cells ++ rest)) = _
    rw [readRows_writeCell _ _ _ (cellEnd_writeCells cells rest), ih, List.append_assoc]
    rfl

/-- The first cell of a row, unless it is empty and alone. -/
theorem readRows_rowStart {cell rest : List Char} (h : cell ≠ [] ∨ ∃ cs, rest = ',' :: cs) (hend : CellEnd rest) :
    readRows .rowStart false [] [] (writeCell cell ++ rest) =
      readRows .cellStart false [] [] (writeCell cell ++ rest) := by
  have hsame (c : Char) (cs : List Char) (hc : c ≠ '\n') (hc' : c ≠ '\r') :
      readRows .rowStart false [] [] (c :: cs) = readRows .cellStart false [] [] (c :: cs) := by
    rw [readRows, readRows, if_neg hc, if_neg hc', if_neg hc, if_neg hc']
  unfold writeCell
  split
  · exact hsame _ _ (by decide) (by decide)
  next hplain =>
    cases cell with
    | nil =>
      obtain ⟨cs, rfl⟩ := h.resolve_left fun h => h rfl
      exact hsame _ _ (by decide) (by decide)
    | cons c cs =>
      rw [Bool.not_eq_true, List.any_cons, Bool.or_eq_false_iff] at hplain
      have hc := hplain.1
      simp only [isSpecialChar, Bool.or_eq_false_iff, decide_eq_false_iff_not] at hc
      exact hsame _ _ hc.1.2 hc.2

theorem readRows_writeRow {row : List (List Char)} (hrow : row ≠ []) (rest : List Char) :
    readRows .rowStart false [] [] (writeRow row ++ rest) = row :: readRows .rowStart false [] [] rest := by
  have hfirst (cell : List Char) (cells : List (List Char)) (h : cell ≠ [] ∨ cells ≠ []) :
      readRows .rowStart false [] [] (writeCell cell ++ (writeCells cells ++ rest)) =
        (cell :: cells) :: readRows .rowStart false [] [] rest := by
    have hend := cellEnd_writeCells cells rest
    rw [readRows_rowStart (h.imp_right fun hcells => ?_) hend, readRows_writeCell _ _ _ hend, readRows_writeCells,
      List.nil_append]
    obtain ⟨next, cells, rfl⟩ := List.exists_cons_of_ne_nil hcells
    exact ⟨_, rfl⟩
  match row, hrow with
  | [[]], _ => rfl
  | (c :: cs) :: cells, _ =>
    rw [writeRow, List.append_assoc]
    exact hfirst _ _ (.inl (List.cons_ne_nil c cs))
    exact nofun
  | [] :: cell :: cells, _ =>
    rw [writeRow, List.append_assoc]
    exact hfirst _ _ (.inr (List.cons_ne_nil cell cells))
    exact nofun

/-- Rows that have cells are read as they were written. -/
theorem readCsv_writeRows {rows : List (List (List Char))} (hrows : ∀ row ∈ rows, row ≠ []) :
    readCsv (writeRows rows) = rows := by
  unfold readCsv writeRows
  induction rows with
  | nil => rfl
  | cons row rows ih =>
    rw [List.flatMap_cons, readRows_writeRow (hrows row List.mem_cons_self),
      ih fun r hr => hrows r (List.mem_cons_of_mem _ hr)]

end NightScout.Lib
