import LogMarkup.Text.Ascii

/-!
# `LogMarkup.Message.Escape` — doubled braces in a template

In a template a doubled brace stands for the brace itself and takes no part in a hole. Here such
pairs are covered by spaces, so that every brace that is left has a meaning and no offset moves.

A lone `{` opens a hole, and a hole runs to the next brace. Where that is a `}`, it closes the hole,
whatever stands behind it: three braces, a name and three braces are a hole between two pairs. Where
it is a `{`, the hole was not one after all, and the brace is read as if it stood outside.

## Contents
- `coverEscapesFrom`, the two states of the reading, and `coverEscapes`.
-/

namespace LogMarkup

open Ascii

/-- Cover the doubled braces of a text that starts inside or outside of a hole. -/
def coverEscapesFrom (inHole : Bool) : Bytes → Bytes
  | [] => []
  | [b] => [b]
  | b :: c :: rest =>
    if b = openBrace then
      if c = openBrace then space :: space :: coverEscapesFrom false rest
      else b :: coverEscapesFrom true (c :: rest)
    else if b = closeBrace then
      if c = closeBrace ∧ inHole = false then space :: space :: coverEscapesFrom false rest
      else b :: coverEscapesFrom false (c :: rest)
    else b :: coverEscapesFrom inHole (c :: rest)

/-- Cover the doubled braces of a template with spaces. -/
def coverEscapes (content : Bytes) : Bytes := coverEscapesFrom false content

end LogMarkup
