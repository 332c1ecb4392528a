import LogMarkup.Source.Window
import Mathlib.Order.Defs.PartialOrder

/-!
# `LogMarkup.Proofs.Source.Window` — offsets of a window and positions of its document

A window turns positions into offsets and back by adding up the lengths of lines. All that its clients
need is that both ways agree: an offset of the text and its position show the same byte, and the order
of offsets is the order of reading.

## Contents
- **Lines.** `LiesAt`, an offset in the text of joined lines with its line and column, by the same
  recursion over the lines as the functions of windows.
- **Lines of a window.** `Window.Fits`, for the columns whose sums a word can hold, with
  `Window.offset?_of_fits`; `Window.getElem?_lines_of`, the lines that a window takes from its document, and
  `Window.lineStart?_of`, where they start.
- **Positions.** `Window.position_of` and `Window.position_le_iff`, and `Window.lineStart?_add_lt` for
  the lines themselves.
-/

namespace LogMarkup

open Ascii

/-! ## Lines -/

/-- An offset in the text of joined lines lies in the line with an index, at a column. The column
    behind the last byte of a line is the one of the line feed there. -/
inductive LiesAt : List Bytes → Nat → Nat → Nat → Prop
  | here {line : Bytes} {lines : List Bytes} {column : Nat} :
      column ≤ line.length → LiesAt (line :: lines) column 0 column
  | further {line : Bytes} {lines : List Bytes} {offset index column : Nat} :
      LiesAt lines offset index column →
      LiesAt (line :: lines) (line.length + 1 + offset) (index + 1) column

namespace LiesAt

variable {lines : List Bytes} {offset index column : Nat}

theorem index_lt (h : LiesAt lines offset index column) : index < lines.length := by
  induction h with
  | here => exact Nat.succ_pos _
  | further _ ih => exact Nat.succ_lt_succ ih

theorem column_le {line : Bytes} (h : LiesAt lines offset index column)
    (hline : lines[index]? = some line) : column ≤ line.length := by
  induction h with
  | here hle =>
      obtain rfl := Option.some.inj hline
      exact hle
  | further _ ih => exact ih hline

/-- Every offset of the text lies in some line. -/
theorem exists_of_lt_lengthOf (h : offset < Window.lengthOf lines) :
    ∃ index column, LiesAt lines offset index column := by
  induction lines generalizing offset with
  | nil => exact absurd h (Nat.not_lt_zero offset)
  | cons line lines ih =>
      -- The offset behind the last byte of a line belongs to the line, not to the one below it.
      by_cases hle : offset ≤ line.length
      · exact ⟨0, offset, .here hle⟩
      · rw [Window.lengthOf] at h
        have hrest : offset - (line.length + 1) < Window.lengthOf lines := by omega
        obtain ⟨index, column, hlies⟩ := ih hrest
        refine ⟨index + 1, column, ?_⟩
        rw [← Nat.add_sub_cancel' (Nat.lt_of_not_le hle)]
        exact .further hlies

theorem lt_lengthOf (h : LiesAt lines offset index column) : offset < Window.lengthOf lines := by
  induction h with
  | here hle =>
      rw [Window.lengthOf]
      omega
  | further _ ih =>
      rw [Window.lengthOf]
      omega

/-- The next offset on the same line. -/
theorem succ {line : Bytes} (h : LiesAt lines offset index column)
    (hline : lines[index]? = some line) (hlt : column < line.length) :
    LiesAt lines (offset + 1) index (column + 1) := by
  induction h with
  | here =>
      obtain rfl := Option.some.inj hline
      exact .here hlt
  | further _ ih => exact .further (ih hline hlt)

/-- The columns of a line lie behind the lines above it. -/
theorem of_line {line : Bytes} (hline : lines[index]? = some line) (hle : column ≤ line.length) :
    LiesAt lines (Window.lengthOf (lines.take index) + column) index column := by
  induction lines generalizing index with
  | nil => exact absurd hline (by simp)
  | cons first lines ih =>
      cases index with
      | zero =>
          obtain rfl := Option.some.inj hline
          rw [List.take_zero, Window.lengthOf, Nat.zero_add]
          exact .here hle
      | succ index =>
          rw [List.take_succ_cons, Window.lengthOf, Nat.add_assoc]
          exact .further (ih hline)

/-- The order of offsets is the order of reading. -/
theorem le_iff {offset' index' column' : Nat} (h : LiesAt lines offset index column)
    (h' : LiesAt lines offset' index' column') :
    offset ≤ offset' ↔ index < index' ∨ (index = index' ∧ column ≤ column') := by
  induction h generalizing offset' index' with
  | here hle =>
      cases h' with
      | here => simp
      | further => omega
  | further hbelow ih =>
      cases h' with
      | here => omega
      | further hbelow' =>
          have := ih hbelow'
          omega

/-- The position of an offset is where it lies. -/
theorem positionFrom_eq (first : Nat) (h : LiesAt lines offset index column) :
    Window.positionFrom first lines offset = ⟨first + index, column⟩ := by
  induction h generalizing first with
  | @here line lines column hle =>
      cases lines with
      | nil => rfl
      | cons next lines => rw [Window.positionFrom, if_pos hle, Nat.add_zero]
  | @further line lines offset index column hbelow ih =>
      cases lines with
      | nil => cases hbelow
      | cons next lines =>
          rw [Window.positionFrom, if_neg (by omega), Nat.add_sub_cancel_left, ih]
          rw [Nat.add_assoc, Nat.add_comm 1 index]

theorem intercalate_cons_cons (line next : Bytes) (lines : List Bytes) :
    List.intercalate [lineFeed] (line :: next :: lines)
      = line ++ lineFeed :: List.intercalate [lineFeed] (next :: lines) := by
  simp [List.intercalate]

/-- A byte of the text, unless it is the line feed behind a line, is the byte of the line. -/
theorem getElem?_of_text {text : Bytes} {b : UInt8} (h : LiesAt lines offset index column)
    (hline : lines[index]? = some text)
    (hb : (List.intercalate [lineFeed] lines)[offset]? = some b) (hne : b ≠ lineFeed) :
    text[column]? = some b := by
  induction h with
  | @here first lines column hle =>
      obtain rfl := Option.some.inj hline
      cases lines with
      | nil => simpa [List.intercalate] using hb
      | cons next lines =>
          rw [intercalate_cons_cons] at hb
          by_cases hlt : column < first.length
          · rwa [List.getElem?_append_left hlt] at hb
          · obtain rfl : column = first.length := by omega
            rw [List.getElem?_append_right hle, Nat.sub_self] at hb
            exact absurd (Option.some.inj hb).symm hne
  | @further first lines offset index column hbelow ih =>
      cases lines with
      | nil => cases hbelow
      | cons next lines =>
          rw [intercalate_cons_cons, List.getElem?_append_right (by omega)] at hb
          have hoffset : first.length + 1 + offset - first.length = offset + 1 := by omega
          rw [hoffset, List.getElem?_cons_succ] at hb
          exact ih hline hb

/-- A byte of a line stands in the text where it lies. -/
theorem getElem?_intercalate {text : Bytes} (h : LiesAt lines offset index column)
    (hline : lines[index]? = some text) (hlt : column < text.length) :
    (List.intercalate [lineFeed] lines)[offset]? = text[column]? := by
  induction h with
  | @here first lines column hle =>
      obtain rfl := Option.some.inj hline
      cases lines with
      | nil => simp [List.intercalate]
      | cons next lines => rw [intercalate_cons_cons, List.getElem?_append_left hlt]
  | @further first lines offset index column hbelow ih =>
      cases lines with
      | nil => cases hbelow
      | cons next lines =>
          have hoffset : first.length + 1 + offset - first.length = offset + 1 := by omega
          rw [intercalate_cons_cons, List.getElem?_append_right (by omega), hoffset,
            List.getElem?_cons_succ]
          exact ih hline hlt

end LiesAt

/-- The text of joined lines has no line feed behind the last one. -/
theorem Window.length_intercalate {lines : List Bytes} (h : lines ≠ []) :
    (List.intercalate [lineFeed] lines).length + 1 = lengthOf lines := by
  induction lines with
  | nil => exact absurd rfl h
  | cons line lines ih =>
      cases lines with
      | nil => simp [List.intercalate, lengthOf]
      | cons next lines =>
          have hnext := ih (by simp)
          rw [LiesAt.intercalate_cons_cons, List.length_append, List.length_cons, lengthOf]
          omega

theorem Position.lt_iff_not_le {p q : Position} : p < q ↔ ¬ q ≤ p := by
  show p.line < q.line ∨ (p.line = q.line ∧ p.column < q.column) ↔
    ¬ (q.line < p.line ∨ (q.line = p.line ∧ q.column ≤ p.column))
  omega

/-- The order of reading is an order. -/
instance : Preorder Position where
  le_refl p := .inr ⟨rfl, Nat.le_refl _⟩
  le_trans p q r := by
    show p.line < q.line ∨ (p.line = q.line ∧ p.column ≤ q.column) →
      q.line < r.line ∨ (q.line = r.line ∧ q.column ≤ r.column) →
      p.line < r.line ∨ (p.line = r.line ∧ p.column ≤ r.column)
    omega
  lt_iff_le_not_ge p q := by
    show p.line < q.line ∨ (p.line = q.line ∧ p.column < q.column) ↔
      (p.line < q.line ∨ (p.line = q.line ∧ p.column ≤ q.column)) ∧
        ¬ (q.line < p.line ∨ (q.line = p.line ∧ q.column ≤ p.column))
    omega

theorem Position.line_le {p q : Position} (h : p ≤ q) : p.line ≤ q.line := by
  rcases h with hlt | ⟨heq, -⟩
  · exact Nat.le_of_lt hlt
  · exact Nat.le_of_eq heq

/-! ## Lines of a window -/

namespace Window

section

variable {window : Window} {line start : Nat} {text : Bytes}

theorem lineStop?_of_lineStart? (hstart : window.lineStart? line = some start)
    (hget : window.lines[line - window.firstLine]? = some text) :
    window.lineStop? line = some (start + text.length) := by
  rw [lineStop?, hstart, hget]

end

/-- A word can hold the sum of a column and the start of its line. -/
def Fits (window : Window) (position : Position) : Prop :=
  ∀ start ∈ window.lineStart? position.line, start + position.column < wordSize

instance (window : Window) (position : Position) : Decidable (window.Fits position) :=
  inferInstanceAs (Decidable (∀ start ∈ window.lineStart? position.line,
    start + position.column < wordSize))

section

variable {window : Window} {position : Position} {start : Nat} {text : Bytes}
  (hstart : window.lineStart? position.line = some start)
  (hget : window.lines[position.line - window.firstLine]? = some text)

include hstart hget

theorem offset?_of_lineStart? : window.offset? position
    = some (if start + position.column ≤ start + text.length then start + position.column
        else min (wrap (start + position.column)) (start + text.length)) := by
  rw [offset?, hstart, lineStop?_of_lineStart? hstart hget]

/-- The columns of a line have the offsets of its bytes. -/
theorem offset?_of_le (hle : position.column ≤ text.length) :
    window.offset? position = some (start + position.column) := by
  rw [offset?_of_lineStart? hstart hget, if_pos (Nat.add_le_add_left hle start)]

/-- A column behind the end of a line leads to the end, as long as the sum does not wrap around. -/
theorem offset?_of_fits (hfits : window.Fits position) :
    window.offset? position = some (start + min position.column text.length) := by
  rcases Nat.le_total position.column text.length with hle | hle
  · rw [offset?_of_le hstart hget hle, Nat.min_eq_left hle]
  · have hsum : wrap (start + position.column) = start + position.column :=
      Nat.mod_eq_of_lt (hfits start hstart)
    rw [offset?_of_lineStart? hstart hget, hsum, Nat.add_min_add_left, ite_eq_right_iff.mpr]
    intro hsum
    rw [Nat.min_eq_left (Nat.le_of_add_le_add_left hsum)]

/-- **In a text that words can count, the sum is taken as a word before it is bounded.** -/
theorem offset?_eq_min_wrap (htext : start + text.length < wordSize) : window.offset? position
    = some (min (wrap (start + position.column)) (start + text.length)) := by
  rw [offset?_of_lineStart? hstart hget, ite_eq_right_iff.mpr]
  intro hsum
  rw [wrap, Nat.mod_eq_of_lt (Nat.lt_of_le_of_lt hsum htext), Nat.min_eq_left hsum]

end

section

variable {document : Document} {first last : Nat} (hfirst : first < min last document.lineCount)

include hfirst

theorem firstLine_of : (of document first last).firstLine = first :=
  Nat.min_eq_left (Nat.le_of_lt hfirst)

theorem lines_of : (of document first last).lines
    = (document.lines.drop first).take (min last document.lineCount - first) := by
  simp only [of, Nat.min_eq_left (Nat.le_of_lt hfirst)]

theorem length_lines_of :
    (of document first last).lines.length = min last document.lineCount - first := by
  rw [lines_of hfirst, List.length_take, List.length_drop]
  simp only [Document.lineCount] at hfirst ⊢
  omega

theorem getElem?_lines_of {index : Nat} (h : first + index < min last document.lineCount) :
    (of document first last).lines[index]? = some (document.line (first + index)) := by
  have hlt : first + index < document.lines.length :=
    Nat.lt_of_lt_of_le h (Nat.min_le_right _ _)
  rw [lines_of hfirst, List.getElem?_take_of_lt (by omega), List.getElem?_drop, Document.line,
    List.getElem?_eq_getElem hlt, Option.getD_some]

theorem getElem?_lines_sub {line : Nat} (hfloor : first ≤ line)
    (hline : line < min last document.lineCount) :
    (of document first last).lines[line - first]? = some (document.line line) := by
  have hindex : first + (line - first) = line := Nat.add_sub_cancel' hfloor
  have hget := getElem?_lines_of hfirst (hindex.symm ▸ hline)
  rwa [hindex] at hget

theorem getElem?_lines_sub_firstLine {line : Nat} (hfloor : first ≤ line)
    (hline : line < min last document.lineCount) :
    (of document first last).lines[line - (of document first last).firstLine]?
      = some (document.line line) := by
  rw [firstLine_of hfirst, getElem?_lines_sub hfirst hfloor hline]

/-- A line starts behind the lines above it. -/
theorem lineStart?_of {line : Nat} (hfloor : first ≤ line)
    (hline : line < min last document.lineCount) : (of document first last).lineStart? line
      = some (lengthOf ((of document first last).lines.take (line - first))) := by
  rw [lineStart?, firstLine_of hfirst, stopLine, firstLine_of hfirst, length_lines_of hfirst]
  exact if_pos ⟨hfloor, by omega⟩

theorem length_text_of :
    (of document first last).text.length + 1 = lengthOf (of document first last).lines := by
  refine length_intercalate (List.ne_nil_of_length_pos ?_)
  rw [length_lines_of hfirst]
  omega

/-! ## Positions -/

/-- Every offset of the text lies at its position. -/
theorem exists_liesAt {offset : Nat} (h : offset ≤ (of document first last).text.length) :
    ∃ index column, LiesAt (of document first last).lines offset index column ∧
      first + index < min last document.lineCount ∧
      (of document first last).position offset = ⟨first + index, column⟩ := by
  have hlength := length_text_of hfirst
  have hlt : offset < lengthOf (of document first last).lines := by omega
  obtain ⟨index, column, hlies⟩ := LiesAt.exists_of_lt_lengthOf hlt
  have hindex := hlies.index_lt
  rw [length_lines_of hfirst] at hindex
  refine ⟨index, column, hlies, by omega, ?_⟩
  rw [position, hlies.positionFrom_eq, firstLine_of hfirst]

/-- **The positions of a window are positions of its document**, on the lines of the window. -/
theorem position_of {offset : Nat} (h : offset ≤ (of document first last).text.length) :
    first ≤ ((of document first last).position offset).line ∧
    ((of document first last).position offset).line < min last document.lineCount ∧
    ((of document first last).position offset).column
      ≤ (document.line ((of document first last).position offset).line).length := by
  obtain ⟨index, column, hlies, hindex, hposition⟩ := exists_liesAt hfirst h
  rw [hposition]
  exact ⟨Nat.le_add_right _ _, hindex, hlies.column_le (getElem?_lines_of hfirst hindex)⟩

/-- **The order of offsets is the order of reading.** -/
theorem position_le_iff {offset offset' : Nat} (h : offset ≤ (of document first last).text.length)
    (h' : offset' ≤ (of document first last).text.length) :
    (of document first last).position offset ≤ (of document first last).position offset'
      ↔ offset ≤ offset' := by
  obtain ⟨index, column, hlies, -, hposition⟩ := exists_liesAt hfirst h
  obtain ⟨index', column', hlies', -, hposition'⟩ := exists_liesAt hfirst h'
  rw [hposition, hposition', hlies.le_iff hlies']
  show first + index < first + index' ∨ (first + index = first + index' ∧ column ≤ column') ↔ _
  omega

theorem position_lt_iff {offset offset' : Nat} (h : offset ≤ (of document first last).text.length)
    (h' : offset' ≤ (of document first last).text.length) :
    (of document first last).position offset < (of document first last).position offset'
      ↔ offset < offset' := by
  rw [Position.lt_iff_not_le, position_le_iff hfirst h' h, Nat.not_le]

/-- **A byte of the text stands in the document at its position**, unless it is a line feed between
    two lines, and the next offset is one column further on. -/
theorem getElem?_position {offset : Nat} {b : UInt8}
    (hb : (of document first last).text[offset]? = some b) (hne : b ≠ lineFeed) :
    (document.line ((of document first last).position offset).line)[
        ((of document first last).position offset).column]? = some b ∧
    (of document first last).position (offset + 1)
      = ⟨((of document first last).position offset).line,
          ((of document first last).position offset).column + 1⟩ := by
  have hlt : offset < (of document first last).text.length := (List.getElem?_eq_some_iff.mp hb).1
  obtain ⟨index, column, hlies, hindex, hposition⟩ := exists_liesAt hfirst (Nat.le_of_lt hlt)
  have hline := getElem?_lines_of hfirst hindex
  have hget := hlies.getElem?_of_text hline hb hne
  have hcolumn : column < (document.line (first + index)).length :=
    (List.getElem?_eq_some_iff.mp hget).1
  have hsucc := hlies.succ hline hcolumn
  rw [hposition]
  refine ⟨hget, ?_⟩
  rw [position, hsucc.positionFrom_eq, firstLine_of hfirst]

/-- The columns of a line of the window have offsets. -/
theorem exists_offset {line column : Nat} (hfloor : first ≤ line)
    (hline : line < min last document.lineCount) (hcolumn : column ≤ (document.line line).length) :
    ∃ start, (of document first last).lineStart? line = some start ∧
      start + column ≤ (of document first last).text.length ∧
      (of document first last).position (start + column) = ⟨line, column⟩ := by
  have hindex : first + (line - first) = line := Nat.add_sub_cancel' hfloor
  have hlies := LiesAt.of_line (getElem?_lines_sub hfirst hfloor hline) hcolumn
  refine ⟨_, lineStart?_of hfirst hfloor hline, ?_, ?_⟩
  · have hlt := hlies.lt_lengthOf
    have hlength := length_text_of hfirst
    omega
  · rw [position, hlies.positionFrom_eq, firstLine_of hfirst, hindex]

/-- A byte of a line of the window has an offset. -/
theorem exists_getElem?_text {line column : Nat} (hfloor : first ≤ line)
    (hline : line < min last document.lineCount) (hcolumn : column < (document.line line).length) :
    ∃ offset, (of document first last).text[offset]? = (document.line line)[column]? ∧
      offset ≤ (of document first last).text.length ∧
      (of document first last).position offset = ⟨line, column⟩ := by
  have hindex : first + (line - first) = line := Nat.add_sub_cancel' hfloor
  have hget := getElem?_lines_sub hfirst hfloor hline
  have hlies := LiesAt.of_line hget (Nat.le_of_lt hcolumn)
  refine ⟨_, hlies.getElem?_intercalate hget hcolumn, ?_, ?_⟩
  · have hlt := hlies.lt_lengthOf
    have hlength := length_text_of hfirst
    omega
  · rw [position, hlies.positionFrom_eq, firstLine_of hfirst, hindex]

/-- What is on a line stands in front of the lines below it. -/
theorem lineStart?_add_lt {line line' start start' column : Nat} (hfloor : first ≤ line)
    (hlt : line < line') (hline' : line' < min last document.lineCount)
    (hcolumn : column ≤ (document.line line).length)
    (hstart : (of document first last).lineStart? line = some start)
    (hstart' : (of document first last).lineStart? line' = some start') :
    start + column < start' := by
  obtain ⟨origin, horigin, hlength, hposition⟩ :=
    exists_offset hfirst hfloor (Nat.lt_trans hlt hline') hcolumn
  obtain ⟨origin', horigin', hlength', hposition'⟩ :=
    exists_offset hfirst (Nat.le_trans hfloor (Nat.le_of_lt hlt)) hline' (Nat.zero_le _)
  obtain rfl := Option.some.inj (hstart.symm.trans horigin)
  obtain rfl := Option.some.inj (hstart'.symm.trans horigin')
  refine (position_lt_iff hfirst hlength hlength').mp ?_
  rw [hposition, hposition']
  exact .inl hlt

/-- A position on a line of the window has an offset, which is the one of the end of the line if the
    column lies behind it. -/
theorem exists_offset?_eq_some {position : Position} (hfloor : first ≤ position.line)
    (hline : position.line < min last document.lineCount)
    (hfits : (of document first last).Fits position) :
    ∃ cursor, (of document first last).offset? position = some cursor ∧
      (of document first last).position cursor
        = ⟨position.line, min position.column (document.line position.line).length⟩ := by
  obtain ⟨start, hstart, -, hposition⟩ :=
    exists_offset hfirst hfloor hline (Nat.min_le_right position.column _)
  have hget := getElem?_lines_sub_firstLine hfirst hfloor hline
  exact ⟨_, offset?_of_fits hstart hget hfits, hposition⟩

/-- Every position on a line of the window has an offset, even if its column is very large. -/
theorem exists_offset?_of_line {position : Position} (hfloor : first ≤ position.line)
    (hline : position.line < min last document.lineCount) :
    ∃ cursor, (of document first last).offset? position = some cursor ∧
      ((of document first last).Fits position → (of document first last).position cursor
        = ⟨position.line, min position.column (document.line position.line).length⟩) := by
  by_cases hfits : (of document first last).Fits position
  · obtain ⟨cursor, hcursor, hposition⟩ := exists_offset?_eq_some hfirst hfloor hline hfits
    exact ⟨cursor, hcursor, fun _ => hposition⟩
  · have hget := getElem?_lines_sub_firstLine hfirst hfloor hline
    exact ⟨_, offset?_of_lineStart? (lineStart?_of hfirst hfloor hline) hget, fun h => absurd h hfits⟩

end

end Window

end LogMarkup
