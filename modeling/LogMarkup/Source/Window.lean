import LogMarkup.Source.Document
import LogMarkup.Source.Position

/-!
# `LogMarkup.Source.Window` — a run of lines as one text

The scanners work on a flat text and its offsets, while a document is addressed by lines and columns.
A window joins a run of lines by line feeds, and translates between the two.

Offsets and columns are machine words. The offsets of a text are words in any case, since the text is in
memory. A column that someone asks for may be any word, however, and the sum of the start of a line and
such a column need not be one. Nothing keeps it from wrapping around.

## Contents
- `wordSize` and `wrap`, the sums that machine words can hold.
- `Window` and `Window.of`, which clamps the run to the document; `Window.text`.
- `Window.lineStart?`, `Window.lineStop?` and `Window.offset?`, from the document to the text.
- `Window.position` and `Window.span`, from the text to the document.
-/

namespace LogMarkup

/-- The number of values of a machine word. -/
def wordSize : Nat := UInt64.size

/-- What a machine word holds of a sum, its remainder by the word size. -/
def wrap (sum : Nat) : Nat := sum % wordSize

/-- Consecutive lines of a document, with the number of the first one. -/
structure Window where
  firstLine : Nat
  lines : List Bytes
deriving Repr, DecidableEq

namespace Window

/-- The lines of a document from `first` up to, but without, `last`, as far as it has them. -/
def of (document : Document) (first last : Nat) : Window :=
  let last := min last document.lineCount
  let first := min first last
  ⟨first, (document.lines.drop first).take (last - first)⟩

/-- The lines as one text. -/
def text (window : Window) : Bytes := List.intercalate [Ascii.lineFeed] window.lines

/-- The number of the line below the window. -/
def stopLine (window : Window) : Nat := window.firstLine + window.lines.length

/-- The number of bytes that lines take, each with a line feed. -/
def lengthOf : List Bytes → Nat
  | [] => 0
  | line :: lines => line.length + 1 + lengthOf lines

/-- The offset in the text where a line of the document starts, if the window has the line. -/
def lineStart? (window : Window) (line : Nat) : Option Nat :=
  if window.firstLine ≤ line ∧ line < window.stopLine then
    some (lengthOf (window.lines.take (line - window.firstLine)))
  else none

/-- The offset in the text where a line of the document ends. -/
def lineStop? (window : Window) (line : Nat) : Option Nat :=
  match window.lineStart? line, window.lines[line - window.firstLine]? with
  | some start, some text => some (start + text.length)
  | _, _ => none

/-- The offset of a position, if the window has its line. A column behind the end of the line counts
    as the end, as long as a word can hold the sum of the line's start and the column. Any other sum
    wraps around, and leads to a place in front of the line. -/
def offset? (window : Window) (position : Position) : Option Nat :=
  match window.lineStart? position.line, window.lineStop? position.line with
  | some start, some stop =>
    let sum := start + position.column
    -- Up to the end of the line the sum is an offset of the text, which a word can hold.
    some (if sum ≤ stop then sum else min (wrap sum) stop)
  | _, _ => none

/-- The position of an offset in lines that start with the line `first`. Behind the last line the
    columns go on. -/
def positionFrom (first : Nat) : List Bytes → Nat → Position
  | [], offset => ⟨first, offset⟩
  | [_], offset => ⟨first, offset⟩
  | line :: next :: lines, offset =>
    if offset ≤ line.length then ⟨first, offset⟩
    else positionFrom (first + 1) (next :: lines) (offset - (line.length + 1))

/-- The position in the document of an offset in the text. -/
def position (window : Window) (offset : Nat) : Position :=
  positionFrom window.firstLine window.lines offset

/-- The piece of the document that a piece of the text stands for. -/
def span (window : Window) (start stop : Nat) : Span :=
  ⟨window.position start, window.position stop⟩

end Window

end LogMarkup
