import LogMarkup.Proofs.Checked.Basic
import LogMarkup.Proofs.Source.Text

/-!
# `LogMarkup.Proofs.Checked.Window` — windows, offset by offset

Most of what a window translates has no step that can fail: a line that is not there has no offset, and
an offset in front of a line counts as its start. What can fail is the number of lines in the window, and
the end of a line, which is found one byte in front of the next line.

## Contents
- `Checked.windowOf`, `Checked.lineStop?` and `Checked.offset?`, each with its equation.
-/

namespace LogMarkup

/-- The offset of a line is that of the line above, with its length and its line feed. -/
theorem Window.lengthOf_take_succ {lines : List Bytes} {index : Nat} {line : Bytes}
    (h : lines[index]? = some line) :
    lengthOf (lines.take (index + 1)) = lengthOf (lines.take index) + line.length + 1 := by
  rw [List.take_add_one, h, lengthOf_append]
  simp only [Option.toList_some, lengthOf, Nat.add_assoc, Nat.add_zero]

namespace Checked

/-- The lines of a document from `first` up to, but without, `last`, as far as it has them. -/
def windowOf (document : Document) (first last : Nat) : Checked Window := do
  let stop := min last document.lineCount
  let start := min first stop
  let count ← sub stop start
  pure ⟨start, (document.lines.drop start).take count⟩

theorem windowOf_eq (document : Document) (first last : Nat) :
    windowOf document first last = .ok (Window.of document first last) := by
  simp only [windowOf, sub_eq (Nat.min_le_right first _), ok_bind, pure_eq_ok]
  rfl

/-- The offset where a line of the document ends: in front of the line feed that the next line follows,
    or else at the end of the text. -/
def lineStop? (window : Window) (line : Nat) : Checked (Option Nat) :=
  if window.firstLine ≤ line ∧ line < window.stopLine then
    match window.lineStart? (line + 1) with
    | none => pure (some window.text.length)
    | some next => do
      let stop ← sub next 1
      pure (some stop)
  else pure none

theorem lineStop?_eq (window : Window) (line : Nat) :
    lineStop? window line = .ok (window.lineStop? line) := by
  unfold lineStop? Window.lineStop?
  by_cases hline : window.firstLine ≤ line ∧ line < window.stopLine
  · have hlt : line - window.firstLine < window.lines.length := by
      have hstop := hline.2
      unfold Window.stopLine at hstop
      omega
    have hget := List.getElem?_eq_getElem hlt
    have hstart : window.lineStart? line
        = some (Window.lengthOf (window.lines.take (line - window.firstLine))) := if_pos hline
    have hlength := Window.lengthOf_take_succ hget
    rw [if_pos hline, hstart, hget]
    by_cases hnext : line + 1 < window.stopLine
    · have hindex : line + 1 - window.firstLine = line - window.firstLine + 1 := by omega
      rw [Window.lineStart?, if_pos ⟨Nat.le_succ_of_le hline.1, hnext⟩, hindex, hlength]
      rfl
    · -- Behind the last line there is no line feed, although its length counts one.
      have hall : line - window.firstLine + 1 = window.lines.length := by
        unfold Window.stopLine at hnext
        omega
      have htext : window.text.length + 1 = Window.lengthOf window.lines :=
        Window.length_intercalate (List.ne_nil_of_length_pos (by omega))
      rw [hall, List.take_length] at hlength
      rw [Window.lineStart?, if_neg fun h => hnext h.2]
      exact congrArg (Except.ok ∘ some) (by omega)
  · have hstart : window.lineStart? line = none := if_neg hline
    rw [if_neg hline, hstart]
    rfl

/-- The offset of a position, if the window has its line. -/
def offset? (window : Window) (position : Position) : Checked (Option Nat) :=
  match window.lineStart? position.line with
  | none => pure none
  | some start => do
    let stop ← lineStop? window position.line
    pure (stop.map fun stop =>
      let sum := start + position.column
      if sum ≤ stop then sum else min (wrap sum) stop)

theorem offset?_eq (window : Window) (position : Position) :
    offset? window position = .ok (window.offset? position) := by
  unfold offset? Window.offset?
  cases window.lineStart? position.line with
  | none => rfl
  | some start =>
      simp only [lineStop?_eq, ok_bind, pure_eq_ok]
      cases window.lineStop? position.line <;> rfl

end Checked

end LogMarkup
