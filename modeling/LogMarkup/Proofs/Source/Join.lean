import LogMarkup.Proofs.Source.Prefix

/-!
# `LogMarkup.Proofs.Source.Join` — two documents with an empty line between them

A window of the joined document that starts in the upper one has the lines that it has there, and perhaps
the empty line and some of the lower document below them. A window that starts in the lower one has the same
lines as there, further down.

## Contents
- **Moving down.** `Position.moveDown`, `Span.moveDown` and `Window.moveDown`, with
  `Window.position_moveDown` and `Window.lineStart?_moveDown`.
- **Marks.** `firstMark?`, the first byte of some lines that is no white space.
- **Joined documents.** `Document.join`, and the lines of both documents in it.
- **The upper document.** `Window.of_join_above`, for windows that end in it, and
  `Window.position_join` and `Window.exists_text_join`, for all that start in it.
- **The lower document.** `Window.of_join_below`.
-/

namespace LogMarkup

open Ascii

/-! ## Moving down -/

/-- The position at the same column, a number of lines further down. -/
def Position.moveDown (lines : Nat) (position : Position) : Position :=
  ⟨position.line + lines, position.column⟩

/-- The span with both ends a number of lines further down. -/
def Span.moveDown (lines : Nat) (span : Span) : Span :=
  ⟨span.start.moveDown lines, span.stop.moveDown lines⟩

/-- The window that shows the same lines further down. -/
def Window.moveDown (lines : Nat) (window : Window) : Window :=
  ⟨window.firstLine + lines, window.lines⟩

namespace Window

theorem positionFrom_add (first lines : Nat) (text : List Bytes) (offset : Nat) :
    positionFrom (first + lines) text offset = (positionFrom first text offset).moveDown lines := by
  fun_induction positionFrom first text offset with
  | case1 => rfl
  | case2 => rfl
  | case3 first line next text offset hle => rw [positionFrom, if_pos hle]; rfl
  | case4 first line next text offset hlt ih =>
      rw [positionFrom, if_neg hlt, ← ih, Nat.add_right_comm]

theorem position_moveDown (lines : Nat) (window : Window) (offset : Nat) :
    (window.moveDown lines).position offset = (window.position offset).moveDown lines :=
  positionFrom_add window.firstLine lines window.lines offset

theorem span_moveDown (lines : Nat) (window : Window) (start stop : Nat) :
    (window.moveDown lines).span start stop = (window.span start stop).moveDown lines := by
  rw [span, position_moveDown, position_moveDown]
  rfl

/-- A line that is further down starts at the same offset. -/
theorem lineStart?_moveDown (lines : Nat) (window : Window) (line : Nat) :
    (window.moveDown lines).lineStart? (line + lines) = window.lineStart? line := by
  have hindex : line + lines - (window.firstLine + lines) = line - window.firstLine := by omega
  have hrange : (window.firstLine + lines ≤ line + lines ∧
      line + lines < window.firstLine + lines + window.lines.length) ↔
        (window.firstLine ≤ line ∧ line < window.firstLine + window.lines.length) := by omega
  simp only [lineStart?, stopLine, moveDown, hindex]
  exact if_congr hrange rfl rfl

end Window

/-! ## Marks -/

/-- The byte of some lines that comes first of those that are no white space. -/
def firstMark? (lines : List Bytes) : Option UInt8 :=
  lines.flatten.find? fun b => !isSpace b

theorem firstMark?_cons (line : Bytes) (lines : List Bytes) :
    firstMark? (line :: lines) = (line.find? fun b => !isSpace b).or (firstMark? lines) := by
  rw [firstMark?, List.flatten_cons, List.find?_append, firstMark?]

/-- The line feeds between lines are white space. -/
theorem find?_intercalate (lines : List Bytes) :
    (List.intercalate [lineFeed] lines).find? (fun b => !isSpace b) = firstMark? lines := by
  induction lines with
  | nil => rfl
  | cons line lines ih =>
      cases lines with
      | nil => simp [List.intercalate, firstMark?]
      | cons next lines =>
          have hspace : (!isSpace lineFeed) = false := rfl
          rw [LiesAt.intercalate_cons_cons, List.find?_append, List.find?_cons, hspace, ih]
          exact (firstMark?_cons line (next :: lines)).symm

theorem firstMark?_of_isPrefix {lines lines' : List Bytes} {b : UInt8} (h : lines <+: lines')
    (hb : firstMark? lines = some b) : firstMark? lines' = some b := by
  obtain ⟨more, rfl⟩ := h
  rw [firstMark?, List.flatten_append, List.find?_append]
  rw [firstMark?] at hb
  rw [hb]
  rfl

/-! ## Joined documents -/

namespace Document

/-- Two documents, one below the other, with an empty line between them. -/
def join (upper lower : Document) : Document := ⟨upper.lines ++ [] :: lower.lines⟩

variable {upper lower : Document} {n : Nat}

theorem lineCount_join (upper lower : Document) :
    (upper.join lower).lineCount = upper.lineCount + 1 + lower.lineCount := by
  rw [lineCount, join, List.length_append, List.length_cons, lineCount, lineCount]
  omega

theorem line_join_above (lower : Document) (h : n < upper.lineCount) :
    (upper.join lower).line n = upper.line n := by
  rw [line, join, List.getElem?_append_left h, line]

theorem line_join_between (upper lower : Document) :
    (upper.join lower).line upper.lineCount = [] := by
  rw [line, lineCount, join, List.getElem?_append_right (Nat.le_refl _), Nat.sub_self]
  rfl

theorem line_join_below (upper lower : Document) (n : Nat) :
    (upper.join lower).line (n + (upper.lineCount + 1)) = lower.line n := by
  have hindex : n + (upper.lines.length + 1) - upper.lines.length = n + 1 := by omega
  rw [line, join, lineCount, List.getElem?_append_right (by omega), hindex, List.getElem?_cons_succ,
    line]

end Document

namespace Window

variable {upper lower : Document} {first last : Nat}

/-! ## The upper document -/

/-- The lines of a window that starts in the upper document. -/
theorem lines_join (lower : Document) (hfirst : first < min last upper.lineCount) :
    (of (upper.join lower) first last).lines = (of upper first last).lines
      ++ ([] :: lower.lines).take (min last (upper.join lower).lineCount - upper.lineCount) := by
  have hcount := Document.lineCount_join upper lower
  have hfirst' : first < min last (upper.join lower).lineCount := by omega
  have hdrop : (upper.join lower).lines.drop first
      = upper.lines.drop first ++ [] :: lower.lines :=
    List.drop_append_of_le_length (Nat.le_of_lt (Nat.lt_min.mp hfirst).2)
  have hlength : (upper.lines.drop first).length = upper.lineCount - first := List.length_drop
  rw [lines_of hfirst, lines_of hfirst', hdrop, List.take_append, hlength]
  congr 1
  · rw [List.take_eq_take_iff, hlength]
    omega
  · congr 1
    omega

/-- The windows of the upper document are those of the joined one that end with it at the latest. -/
theorem of_join_above (lower : Document) (hfirst : first < min last upper.lineCount) :
    of (upper.join lower) first (min last upper.lineCount) = of upper first last := by
  have hcount := Document.lineCount_join upper lower
  have hfirst₁ : first < min (min last upper.lineCount) upper.lineCount := by omega
  have hfirst₂ : first < min (min last upper.lineCount) (upper.join lower).lineCount := by omega
  have hnone : min (min last upper.lineCount) (upper.join lower).lineCount - upper.lineCount = 0 := by
    omega
  have hlines := lines_join lower hfirst₁
  rw [hnone, List.take_zero, List.append_nil] at hlines
  have hsame := (firstLine_of hfirst₂).trans (firstLine_of hfirst₁).symm
  calc of (upper.join lower) first (min last upper.lineCount)
      = ⟨(of (upper.join lower) first (min last upper.lineCount)).firstLine,
          (of (upper.join lower) first (min last upper.lineCount)).lines⟩ := rfl
    _ = of upper first (min last upper.lineCount) := by rw [hsame, hlines]
    _ = of upper first last := by simp only [of, Nat.min_assoc, Nat.min_self]

section

variable (lower : Document) (hfirst : first < min last upper.lineCount)

include hfirst

/-- The lines of the upper document start at the same offsets. -/
theorem lineStart?_join {line : Nat} (hline : line < min last upper.lineCount) :
    (of (upper.join lower) first last).lineStart? line = (of upper first last).lineStart? line := by
  have hcount := Document.lineCount_join upper lower
  rw [← of_join_above lower hfirst]
  exact lineStart?_eq (by omega) (Nat.min_le_left _ _) (by omega)

/-- The offsets of the upper document have the same positions. -/
theorem position_join {offset : Nat} (h : offset ≤ (of upper first last).text.length) :
    (of (upper.join lower) first last).position offset = (of upper first last).position offset := by
  have hcount := Document.lineCount_join upper lower
  rw [← of_join_above lower hfirst] at h ⊢
  exact position_eq_of_le (by omega) (Nat.min_le_left _ _) h

end

/-- **A window that starts in the upper document goes on with the lower one**, if at all. -/
theorem exists_text_join (lower : Document) (hfirst : first < min last upper.lineCount) :
    ∃ behind, Bytes.FollowsLine behind ∧
      (of (upper.join lower) first last).text = (of upper first last).text ++ behind ∧
      ∀ b, behind.find? (fun b => !isSpace b) = some b → firstMark? lower.lines = some b := by
  have hlines := lines_join lower hfirst
  have hne : (of upper first last).lines ≠ [] := by
    refine List.ne_nil_of_length_pos ?_
    rw [length_lines_of hfirst]
    omega
  cases hmore : min last (upper.join lower).lineCount - upper.lineCount with
  | zero =>
      rw [hmore, List.take_zero, List.append_nil] at hlines
      refine ⟨[], .nil, ?_, by simp⟩
      rw [List.append_nil, text, hlines]
      rfl
  | succ more =>
      rw [hmore, List.take_succ_cons] at hlines
      refine ⟨lineFeed :: List.intercalate [lineFeed] ([] :: lower.lines.take more),
        .lineFeed_cons _, ?_, ?_⟩
      · rw [text, hlines, intercalate_append hne (List.cons_ne_nil _ _)]
        rfl
      · intro b hb
        have hspace : (!isSpace lineFeed) = false := rfl
        rw [List.find?_cons, hspace, find?_intercalate] at hb
        exact firstMark?_of_isPrefix (List.take_prefix more _) hb

/-! ## The lower document -/

/-- **A window that starts in the lower document shows the same lines there**, further up. -/
theorem of_join_below (upper lower : Document) (first last : Nat) :
    of (upper.join lower) (first + (upper.lineCount + 1)) (last + (upper.lineCount + 1))
      = (of lower first last).moveDown (upper.lineCount + 1) := by
  have hcount := Document.lineCount_join upper lower
  have hlast : min (last + (upper.lineCount + 1)) (upper.join lower).lineCount
      = min last lower.lineCount + (upper.lineCount + 1) := by omega
  have hdrop : ∀ n, (upper.join lower).lines.drop (n + (upper.lineCount + 1)) = lower.lines.drop n := by
    intro n
    rw [Document.join, Nat.add_comm, ← List.drop_drop, Document.lineCount, ← List.drop_drop,
      List.drop_left]
    rfl
  simp only [of, moveDown, hlast]
  rw [Nat.add_min_add_right, hdrop, Nat.add_sub_add_right]

end Window

end LogMarkup
