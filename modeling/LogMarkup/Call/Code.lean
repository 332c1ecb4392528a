import LogMarkup.Literal.Basic

/-!
# `LogMarkup.Call.Code` — source code as a sequence of items

To find the end of a call one has to tell the parentheses of the code from those in strings,
character literals and comments. Code is therefore read as a sequence of items, of which only the
plain bytes can be parentheses.

## Contents
- `CodeKind` and `CodeItem`, with `characterWidth` for character literals.
- `CodeItem.first`, the item at the head of a text.
-/

namespace LogMarkup

open Ascii

/-- The sorts of items. -/
inductive CodeKind
  /-- A string literal. -/
  | literal
  /-- A character literal, or an apostrophe that starts none. -/
  | character
  /-- A comment up to the end of its line. -/
  | comment
  | plain (b : UInt8)
deriving Repr, DecidableEq

/-- An item and the number of bytes that it takes. -/
structure CodeItem where
  kind : CodeKind
  width : Nat
deriving Repr, DecidableEq

namespace CodeItem

/-- How many bytes behind the backslash of a character literal its closing apostrophe may be. The
    first of these bytes is the one that is escaped, and can not be the closing apostrophe itself. -/
def escapeReach : Nat := 10

/-- The width of the character literal whose apostrophe stands right before a text. Only one byte,
    or a backslash and a short escape, may stand between the apostrophes, and all on one line. An
    apostrophe that starts no such literal is an item of its own. -/
def characterWidth : Bytes → Nat
  | [] => 1
  | b :: rest =>
    if b = backslash then
      let escaped := (rest.take escapeReach).drop 1
      let body := escaped.takeWhile fun c => c != apostrophe && c != lineFeed
      if escaped[body.length]? = some apostrophe then body.length + 4 else 1
    else if b ≠ lineFeed ∧ rest.head? = some apostrophe then 3
    else 1

/-- The item that starts with the byte `b` and goes on in `rest`. -/
def first (b : UInt8) (rest : Bytes) : CodeItem :=
  match Literal.read? 0 (b :: rest) with
  | some literal => ⟨.literal, literal.width⟩
  | none =>
    if b = apostrophe then ⟨.character, characterWidth rest⟩
    else if b = slash ∧ rest.head? = some slash then
      ⟨.comment, (rest.takeWhile (· != lineFeed)).length + 1⟩
    else ⟨.plain b, 1⟩

end CodeItem

end LogMarkup
