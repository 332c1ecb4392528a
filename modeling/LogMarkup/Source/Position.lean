/-!
# `LogMarkup.Source.Position` — places in a document

A place in a document is a line and a column, both counted from zero, the column in bytes.

## Contents
- `Position`, with the order of reading.
- `Span`, what stands from one position up to another.
-/

namespace LogMarkup

/-- A line and a column. -/
structure Position where
  line : Nat
  column : Nat
deriving Repr, DecidableEq

namespace Position

/-- A position is before another one on an earlier line, or further left on the same line. -/
instance : LT Position :=
  ⟨fun p q => p.line < q.line ∨ (p.line = q.line ∧ p.column < q.column)⟩

/-- A position is not behind another one. -/
instance : LE Position :=
  ⟨fun p q => p.line < q.line ∨ (p.line = q.line ∧ p.column ≤ q.column)⟩

instance (p q : Position) : Decidable (p < q) :=
  inferInstanceAs (Decidable (p.line < q.line ∨ (p.line = q.line ∧ p.column < q.column)))

instance (p q : Position) : Decidable (p ≤ q) :=
  inferInstanceAs (Decidable (p.line < q.line ∨ (p.line = q.line ∧ p.column ≤ q.column)))

end Position

/-- A half-open piece of a document. -/
structure Span where
  start : Position
  stop : Position
deriving Repr, DecidableEq

namespace Span

/-- Whether a position lies in the span; the position at its end does not. -/
def contains (span : Span) (position : Position) : Bool :=
  span.start ≤ position && position < span.stop

/-- Whether the span starts at or above a line and ends at or below it. -/
def coversLine (span : Span) (line : Nat) : Bool :=
  span.start.line ≤ line && line ≤ span.stop.line

/-- The number of lines from the first to the last one. -/
def lineCount (span : Span) : Nat := span.stop.line - span.start.line + 1

end Span

end LogMarkup
