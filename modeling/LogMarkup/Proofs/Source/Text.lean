import LogMarkup.Proofs.Source.Window
import LogMarkup.Proofs.Text.Boundary
import LogMarkup.Proofs.Text.Slice

/-!
# `LogMarkup.Proofs.Source.Text` — a document as one text

Windows show pieces of a document, each with offsets of its own. To say what stands at a position
without naming the window that it was found in, the whole document is read as one text, too. A window
is then a slice of that text, and its positions lead to the same bytes.

## Contents
- **The whole text.** `Document.text`, `Document.offset` and `Document.read`.
- **Lines with their line feeds.** `Window.text_append_lineFeed`, by which texts of lines can be put
  together, and `Window.isValid_text`.
- **Windows as slices.** `Document.offset_position` and `Document.read_span`.
-/

namespace LogMarkup

open Ascii

/-! ## The whole text -/

namespace Document

/-- The document as one text, its lines joined by line feeds. -/
def text (document : Document) : Bytes := List.intercalate [lineFeed] document.lines

/-- The offset of a position in the whole text. -/
def offset (document : Document) (position : Position) : Nat :=
  Window.lengthOf (document.lines.take position.line) + position.column

/-- What stands between the two ends of a span. -/
def read (document : Document) (span : Span) : Bytes :=
  document.text.extract (document.offset span.start) (document.offset span.stop)

end Document

/-! ## Lines with their line feeds -/

theorem LiesAt.offset_eq {lines : List Bytes} {offset index column : Nat}
    (h : LiesAt lines offset index column) :
    offset = Window.lengthOf (lines.take index) + column := by
  induction h with
  | here => rw [List.take_zero, Window.lengthOf, Nat.zero_add]
  | further _ ih =>
      rw [List.take_succ_cons, Window.lengthOf]
      omega

namespace Window

theorem lengthOf_append (above below : List Bytes) :
    lengthOf (above ++ below) = lengthOf above + lengthOf below := by
  induction above with
  | nil => rw [List.nil_append, lengthOf, Nat.zero_add]
  | cons line above ih =>
      rw [List.cons_append, lengthOf, lengthOf, ih]
      omega

/-- Lines, each with the line feed behind it. -/
def fedText (lines : List Bytes) : Bytes := lines.flatMap (· ++ [lineFeed])

theorem length_fedText (lines : List Bytes) : (fedText lines).length = lengthOf lines := by
  induction lines with
  | nil => rfl
  | cons line lines ih =>
      rw [fedText, List.flatMap_cons, List.length_append, ← fedText, ih, lengthOf,
        List.length_append, List.length_singleton]

/-- Joined lines lack only the last line feed. -/
theorem text_append_lineFeed {lines : List Bytes} (h : lines ≠ []) :
    List.intercalate [lineFeed] lines ++ [lineFeed] = fedText lines := by
  induction lines with
  | nil => exact absurd rfl h
  | cons line lines ih =>
      cases lines with
      | nil => simp [List.intercalate, fedText]
      | cons next lines =>
          rw [LiesAt.intercalate_cons_cons, List.append_assoc, List.cons_append, ih (by simp)]
          simp [fedText]

end Window

/-- Joined lines are a text if each of them is one. -/
theorem Utf8.isValid_intercalate {lines : List Bytes} (h : ∀ line ∈ lines, isValid line = true) :
    isValid (List.intercalate [lineFeed] lines) = true := by
  induction lines with
  | nil => rfl
  | cons line lines ih =>
      have hline := h line List.mem_cons_self
      cases lines with
      | nil => simpa [List.intercalate] using hline
      | cons next lines =>
          have hrest := ih fun line hmem => h line (List.mem_cons_of_mem _ hmem)
          have hfeed : isValid [lineFeed] = true := rfl
          rw [LiesAt.intercalate_cons_cons]
          exact isValid_append hline (isValid_append hfeed hrest)

/-- A line that a document of texts does not have is a text, too. -/
theorem Document.isValid_line {document : Document}
    (h : ∀ line ∈ document.lines, Utf8.isValid line = true) (n : Nat) :
    Utf8.isValid (document.line n) = true := by
  unfold line
  cases hline : document.lines[n]? with
  | none => rfl
  | some line => exact h line (List.mem_of_getElem? hline)

/-- The text of a window is one wherever the lines of its document are. -/
theorem Window.isValid_text {document : Document}
    (h : ∀ line ∈ document.lines, Utf8.isValid line = true) (first last : Nat) :
    Utf8.isValid (Window.of document first last).text = true := by
  refine Utf8.isValid_intercalate ?_
  intro line hmem
  exact h line (List.mem_of_mem_drop (List.mem_of_mem_take hmem))

/-! ## Windows as slices -/

namespace Document

variable {document : Document} {first last : Nat}

variable (hfirst : first < min last document.lineCount)

include hfirst

/-- The whole text is made of the lines above a window, its own ones, and those below it. -/
theorem exists_text_eq : ∃ below, document.text ++ [lineFeed]
    = Window.fedText (document.lines.take first)
      ++ ((Window.of document first last).text ++ ([lineFeed] ++ below)) := by
  have hlength := Window.length_lines_of hfirst
  have hne : (Window.of document first last).lines ≠ [] :=
    List.ne_nil_of_length_pos (by omega)
  have hlines : document.lines ≠ [] := by
    intro hnil
    rw [lineCount, hnil, List.length_nil] at hfirst
    omega
  refine ⟨Window.fedText ((document.lines.drop first).drop
    (min last document.lineCount - first)), ?_⟩
  rw [text, Window.text_append_lineFeed hlines, ← List.append_assoc _ [lineFeed], Window.text,
    Window.text_append_lineFeed hne, Window.lines_of hfirst]
  rw [Window.fedText, Window.fedText, Window.fedText, Window.fedText, ← List.flatMap_append,
    ← List.flatMap_append, List.take_append_drop, List.take_append_drop]

/-- **A position of a window is an offset of the whole text**, as far behind the first line of the
    window as the offset in it says. -/
theorem offset_position {offset : Nat}
    (h : offset ≤ (Window.of document first last).text.length) :
    document.offset ((Window.of document first last).position offset)
      = Window.lengthOf (document.lines.take first) + offset := by
  obtain ⟨index, column, hlies, hindex, hposition⟩ := Window.exists_liesAt hfirst h
  have hlt := hlies.index_lt
  rw [Window.length_lines_of hfirst] at hlt
  have htake : document.lines.take (first + index)
      = document.lines.take first ++ (Window.of document first last).lines.take index := by
    rw [List.take_add, Window.lines_of hfirst, List.take_take, Nat.min_eq_left (by omega)]
  rw [hposition]
  show Window.lengthOf (document.lines.take (first + index)) + column = _
  rw [htake, Window.lengthOf_append, hlies.offset_eq, Nat.add_assoc]

/-- **What a window shows is what stands in the document.** -/
theorem read_span {start stop : Nat} (hstart : start ≤ (Window.of document first last).text.length)
    (hstop : stop ≤ (Window.of document first last).text.length) :
    document.read ((Window.of document first last).span start stop)
      = (Window.of document first last).text.extract start stop := by
  obtain ⟨below, htext⟩ := exists_text_eq hfirst
  have hlength := congrArg List.length htext
  simp only [List.length_append, List.length_singleton, Window.length_fedText] at hlength
  rw [read, Window.span, offset_position hfirst hstart, offset_position hfirst hstop,
    ← Bytes.extract_append_left [lineFeed] (by omega), htext, ← Window.length_fedText,
    Bytes.extract_append_right, Bytes.extract_append_left _ hstop]

end Document

end LogMarkup
