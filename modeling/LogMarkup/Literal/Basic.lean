import LogMarkup.Literal.Opener

/-!
# `LogMarkup.Literal.Basic` — string literals and where they are

A literal is known by its offset, its opener, its content and whether it is closed; every other
offset follows from these. The content is surface text: escapes are walked over, never decoded.

## Contents
- `Literal` and its offsets. `start`, `contentStart`, `contentStop` and `stop` delimit half-open
  spans, and `last` is the offset of the last byte.
- `Literal.read?`, the literal at the head of a text, and `Literal.at?`, the one at an offset.
- `Literal.all`, the literals of a text from left to right.
-/

namespace LogMarkup

/-- A string literal in a text. Without a closer it ends where its line or the text does. -/
structure Literal where
  /-- The offset of the opener. -/
  start : Nat
  opener : Opener
  content : Bytes
  closed : Bool
deriving Repr, DecidableEq

namespace Literal

/-- The shape of the literal. -/
def kind (literal : Literal) : LiteralKind := literal.opener.kind

/-- The offset behind the opener. -/
def contentStart (literal : Literal) : Nat := literal.start + literal.opener.text.length

/-- The offset behind the content. -/
def contentStop (literal : Literal) : Nat := literal.contentStart + literal.content.length

/-- The literal as it stands in the text. -/
def text (literal : Literal) : Bytes :=
  literal.opener.text ++ literal.content ++ if literal.closed then literal.opener.closer else []

/-- The number of bytes that the literal takes. -/
def width (literal : Literal) : Nat := literal.text.length

/-- The offset behind the literal. -/
def stop (literal : Literal) : Nat := literal.start + literal.width

/-- The offset of the last byte of the literal. -/
def last (literal : Literal) : Nat := literal.stop - 1

/-- Whether an offset lies in the content or right behind it. -/
def holdsCursor (literal : Literal) (offset : Nat) : Bool :=
  literal.contentStart ≤ offset && offset ≤ literal.contentStop

theorem width_pos (literal : Literal) : 0 < literal.width := by
  have h := literal.opener.length_text_pos
  simp only [width, text, List.length_append]
  omega

/-- The literal at the head of a text, whose first byte has the offset `start`. -/
def read? (start : Nat) (text : Bytes) : Option Literal :=
  match Opener.read? text with
  | none => none
  | some opener =>
    let enclosed := Enclosed.read opener.move 0 (text.drop opener.text.length)
    some ⟨start, opener, enclosed.content, enclosed.closed⟩

/-- The literal that starts at an offset of the text. -/
def at? (text : Bytes) (offset : Nat) : Option Literal := read? offset (text.drop offset)

/-- The literals of a text whose first byte has the offset `start`. The search goes on behind a
    literal, and at the next byte where there is none. -/
def allFrom (start : Nat) (text : Bytes) : List Literal :=
  match text with
  | [] => []
  | b :: rest =>
    match read? start (b :: rest) with
    | none => allFrom (start + 1) rest
    | some literal => literal :: allFrom literal.stop (rest.drop (literal.width - 1))
termination_by text.length
decreasing_by
  · simp
  · simp only [List.length_drop, List.length_cons]
    omega

/-- The literals of a text, from left to right. -/
def all (text : Bytes) : List Literal := allFrom 0 text

end Literal

end LogMarkup
