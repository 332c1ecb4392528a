import LogMarkup.Proofs.Literal.Prefix
import LogMarkup.Proofs.Source.Text

/-!
# `LogMarkup.Proofs.Source.Prefix` — windows that start on the same line

Two windows of a document that start on the same line show the same text, as far as the shorter one goes.
What one of them says about a place is therefore true in the other one, too.

## Contents
- **Texts.** `Window.exists_text_eq_append`.
- **Positions.** `Window.lineStart?_eq`, `Window.position_eq` and `Window.le_length_of_line_lt`, and
  `Window.offset?_position`, by which a position of a window leads back to its offset.
-/

namespace LogMarkup

open Ascii

theorem LiesAt.append {lines : List Bytes} {offset index column : Nat} (more : List Bytes)
    (h : LiesAt lines offset index column) : LiesAt (lines ++ more) offset index column := by
  induction h with
  | here hle => exact .here hle
  | further _ ih => exact .further ih

theorem LiesAt.of_append {lines more : List Bytes} {offset index column : Nat}
    (h : LiesAt (lines ++ more) offset index column) (hindex : index < lines.length) :
    LiesAt lines offset index column := by
  induction lines generalizing offset index with
  | nil => exact absurd hindex (Nat.not_lt_zero _)
  | cons line lines ih =>
      cases h with
      | here hle => exact .here hle
      | further hbelow => exact .further (ih hbelow (Nat.lt_of_succ_lt_succ hindex))

namespace Window

/-! ## Texts -/

theorem intercalate_append {lines more : List Bytes} (hlines : lines ≠ []) (hmore : more ≠ []) :
    List.intercalate [lineFeed] (lines ++ more)
      = List.intercalate [lineFeed] lines ++ lineFeed :: List.intercalate [lineFeed] more := by
  rw [← List.append_left_inj [lineFeed]]
  have hall : lines ++ more ≠ [] := by simp [hlines]
  rw [text_append_lineFeed hall, List.append_assoc, List.cons_append, text_append_lineFeed hmore,
    List.append_cons, text_append_lineFeed hlines, fedText, fedText, fedText, List.flatMap_append]

variable {document : Document} {first last last' : Nat}

variable (hfirst : first < min last document.lineCount) (hle : last ≤ last')

include hfirst hle

theorem first_lt_of_le : first < min last' document.lineCount := by
  omega

/-- The longer window has the lines of the shorter one and those below. -/
theorem exists_lines_eq_append :
    ∃ more, (of document first last').lines = (of document first last).lines ++ more := by
  have hcount : min last document.lineCount - first ≤ min last' document.lineCount - first := by
    omega
  have htake : (of document first last).lines
      = (of document first last').lines.take (min last document.lineCount - first) := by
    rw [lines_of hfirst, lines_of (first_lt_of_le hfirst hle), List.take_take, Nat.min_eq_left hcount]
  refine ⟨(of document first last').lines.drop (min last document.lineCount - first), ?_⟩
  rw [htake]
  exact (List.take_append_drop _ _).symm

/-- **The text of the longer window goes on behind that of the shorter one.** -/
theorem exists_text_eq_append : ∃ behind, Bytes.FollowsLine behind ∧
    (of document first last').text = (of document first last).text ++ behind := by
  obtain ⟨more, hlines⟩ := exists_lines_eq_append hfirst hle
  have hne : (of document first last).lines ≠ [] := by
    refine List.ne_nil_of_length_pos ?_
    rw [length_lines_of hfirst]
    omega
  by_cases hmore : more = []
  · refine ⟨[], .nil, ?_⟩
    rw [text, hlines, hmore, List.append_nil, List.append_nil]
    rfl
  · refine ⟨lineFeed :: List.intercalate [lineFeed] more, .lineFeed_cons _, ?_⟩
    rw [text, hlines, intercalate_append hne hmore]
    rfl

/-! ## Positions -/

/-- The lines of the shorter window start at the same offsets in the longer one. -/
theorem lineStart?_eq {line : Nat} (hline : line < min last document.lineCount) :
    (of document first last').lineStart? line = (of document first last).lineStart? line := by
  obtain ⟨more, hlines⟩ := exists_lines_eq_append hfirst hle
  have hlength := length_lines_of hfirst
  have htake : (of document first last').lines.take (line - first)
      = (of document first last).lines.take (line - first) := by
    rw [hlines]
    exact List.take_append_of_le_length (by omega)
  simp only [lineStart?, stopLine, firstLine_of hfirst, firstLine_of (first_lt_of_le hfirst hle),
    htake]
  rw [hlines, List.length_append]
  by_cases hfloor : first ≤ line
  · rw [if_pos ⟨hfloor, by omega⟩, if_pos ⟨hfloor, by omega⟩]
  · rw [if_neg (fun h => hfloor h.1), if_neg (fun h => hfloor h.1)]

/-- What the longer window shows on a line of the shorter one, the shorter one shows, too. -/
theorem le_length_of_line_lt {offset : Nat} (h : offset ≤ (of document first last').text.length)
    (hline : ((of document first last').position offset).line < last) :
    offset ≤ (of document first last).text.length := by
  obtain ⟨more, hlines⟩ := exists_lines_eq_append hfirst hle
  obtain ⟨index, column, hlies, hindex, hposition⟩ := exists_liesAt (first_lt_of_le hfirst hle) h
  rw [hposition] at hline
  have hin : index < (of document first last).lines.length := by
    rw [length_lines_of hfirst]
    have hcount := Nat.lt_of_lt_of_le hindex (Nat.min_le_right _ _)
    have habove : first + index < last := hline
    omega
  rw [hlines] at hlies
  have hlt := (hlies.of_append hin).lt_lengthOf
  have hlength := length_text_of hfirst
  omega

/-- **Both windows agree on the positions of the shorter one.** -/
theorem position_eq_of_le {offset : Nat} (h : offset ≤ (of document first last).text.length) :
    (of document first last').position offset = (of document first last).position offset := by
  obtain ⟨more, hlines⟩ := exists_lines_eq_append hfirst hle
  obtain ⟨index, column, hlies, -, hposition⟩ := exists_liesAt hfirst h
  have hlies' := hlies.append more
  rw [← hlines] at hlies'
  rw [hposition, position, hlies'.positionFrom_eq, firstLine_of (first_lt_of_le hfirst hle)]

/-- What is at or behind a place of the shorter window is at or below its line. -/
theorem le_line_of_le {place offset : Nat} (hplace : place ≤ (of document first last).text.length)
    (hbehind : place ≤ offset) (h : offset ≤ (of document first last').text.length) :
    ((of document first last).position place).line
      ≤ ((of document first last').position offset).line := by
  rw [← position_eq_of_le hfirst hle hplace]
  have hfirst' := first_lt_of_le hfirst hle
  exact Position.line_le ((position_le_iff hfirst' (hbehind.trans h) h).mpr hbehind)

omit hfirst hle in
/-- Two windows with the same first line agree wherever both have a text. -/
theorem position_eq {offset : Nat} (hfirst : first < min last document.lineCount)
    (hfirst' : first < min last' document.lineCount)
    (h : offset ≤ (of document first last).text.length)
    (h' : offset ≤ (of document first last').text.length) :
    (of document first last).position offset = (of document first last').position offset := by
  rcases Nat.le_total last last' with hle | hle
  · exact (position_eq_of_le hfirst hle h).symm
  · exact position_eq_of_le hfirst' hle h'

omit hle in
/-- A position of the window leads back to its offset. -/
theorem offset?_position {offset : Nat} (h : offset ≤ (of document first last).text.length) :
    (of document first last).offset? ((of document first last).position offset) = some offset := by
  obtain ⟨index, column, hlies, hindex, hposition⟩ := exists_liesAt hfirst h
  have hget := getElem?_lines_of hfirst hindex
  have hsub : first + index - first = index := Nat.add_sub_cancel_left first index
  have hstart := lineStart?_of hfirst (Nat.le_add_right first index) hindex
  rw [hsub] at hstart
  rw [hposition, offset?_of_le hstart (by rw [firstLine_of hfirst, hsub, hget]) (hlies.column_le hget),
    ← hlies.offset_eq]

end Window

end LogMarkup
