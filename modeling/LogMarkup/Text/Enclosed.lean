import LogMarkup.Text.Ascii

/-!
# `LogMarkup.Text.Enclosed` — what stands between an opener and its closer

String literals, quoted strings, holes and bracketed text are all read the same way: from the end of
the opener one walks over the text, one byte or an inseparable pair of bytes at a time, until the
closer is found, a line ends, or the text does. What differs is only the decision at each byte, so
that decision is a parameter here.

## Contents
- `Move`, the decision at one byte, over a state such as the nesting depth.
- `Enclosed`, the content that was walked over, and whether a closer was found behind it.
- `Enclosed.read`, the walk. The content is always a beginning of the text that was read.
-/

namespace LogMarkup

/-- What to do with the byte at the head of a text, in a walk whose state has type `σ`. -/
inductive Move (σ : Type)
  /-- The closer starts at this byte. -/
  | close
  /-- The walk ends without a closer, and the byte does not belong to the content. -/
  | stopBefore
  /-- The walk ends without a closer, and the byte is the last one of the content. -/
  | stopAfter
  /-- The byte belongs to the content. -/
  | single (next : σ)
  /-- The byte belongs to the content, and so does the one behind it, whatever it is. -/
  | pair (next : σ)

/-- The content behind an opener, and whether a closer ends it. -/
structure Enclosed where
  content : Bytes
  closed : Bool
deriving Repr, DecidableEq

namespace Enclosed

/-- One more byte of content in front. -/
def push (b : UInt8) (enclosed : Enclosed) : Enclosed :=
  { enclosed with content := b :: enclosed.content }

/-- Walk over a text that starts behind an opener. Where the text ends, so does the content. -/
def read {σ : Type} (move : σ → UInt8 → Bytes → Move σ) : σ → Bytes → Enclosed
  | _, [] => ⟨[], false⟩
  | state, b :: rest =>
    match move state b rest with
    | .close => ⟨[], true⟩
    | .stopBefore => ⟨[], false⟩
    | .stopAfter => ⟨[b], false⟩
    | .single next => (read move next rest).push b
    | .pair next =>
      match rest with
      | [] => ⟨[b], false⟩
      | c :: rest => ((read move next rest).push c).push b

end Enclosed

end LogMarkup
