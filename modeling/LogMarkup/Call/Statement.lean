import LogMarkup.Literal.Basic
import LogMarkup.Text.Blank

/-!
# `LogMarkup.Call.Statement` — lines at which a statement ends

The start of a call is looked for upwards, and the search stops below a line that can not belong to
the same statement: an empty line, a line that is only a comment, and a line whose last mark is a
semicolon or a brace.

## Contents
- `lastMark`, the last byte of a line that is neither blank nor in a comment.
- `closesStatement`.
-/

namespace LogMarkup

open Ascii

/-- The last mark of a text, or `last` if it has none. A string literal counts as a quote, and a
    comment ends the text. -/
def lastMark (last : Option UInt8) (text : Bytes) : Option UInt8 :=
  match text with
  | [] => last
  | b :: rest =>
    match Literal.read? 0 (b :: rest) with
    | some literal => lastMark (some quote) (rest.drop (literal.width - 1))
    | none =>
      if b = slash ∧ rest.head? = some slash then last
      else lastMark (if isSpace b then last else some b) rest
termination_by text.length
decreasing_by
  all_goals simp only [List.length_drop, List.length_cons]
  all_goals omega

/-- The marks that end a statement or a block. -/
def isStatementEnd (b : UInt8) : Bool := b == semicolon || isBrace b

/-- Whether no statement goes on behind a line. -/
def closesStatement (line : Bytes) : Bool :=
  line.unindented == [] || [slash, slash].isPrefixOf line.unindented
    || (lastMark none line).any isStatementEnd

end LogMarkup
