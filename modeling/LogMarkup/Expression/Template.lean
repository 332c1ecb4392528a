import LogMarkup.Expression.Hole

/-!
# `LogMarkup.Expression.Template` — text with holes for expressions

Outside of its holes a template is plain text without tokens. Doubled braces and what follows a
backslash are plain, too. A bracket counts only where it indexes something, that is, right behind a
word character or a closing bracket; other brackets enclose plain text, in which holes are still
found.

## Contents
- `moveBracketed`, the walk over plain text in brackets, and `plainWidth`.
- `Expression.templateTokensFrom`, the tokens of a template.
-/

namespace LogMarkup

open Ascii

/-- The walk over text in brackets, up to the closing bracket or the next hole. The state is the
    number of nested brackets. -/
def moveBracketed (depth : Nat) (b : UInt8) (rest : Bytes) : Move Nat :=
  if b = backslash then .pair depth
  else if b = openBrace then
    if rest.head? = some openBrace then .pair depth else .stopBefore
  else if b = openBracket then .single (depth + 1)
  else if b = closeBracket then
    if depth = 0 then .close else .single (depth - 1)
  else .single depth

namespace Expression

/-- Whether a bracket behind the given byte indexes something. -/
def isIndexed (before : Option UInt8) : Bool :=
  before.any fun b => isWord b || b == closeBracket

/-- Whether a byte opens a hole. -/
def isHoleStart (b : UInt8) (rest : Bytes) : Bool :=
  b == openBrace && rest.head? != some openBrace

/-- The number of bytes of plain text that belong together, the first of them being `b`. -/
def plainWidth (b : UInt8) (rest : Bytes) : Nat :=
  if b = backslash then 2
  else if isBrace b ∧ rest.head? = some b then 2
  else if b = openBracket ∧ rest.head? ≠ some openBrace then
    let enclosed := Enclosed.read moveBracketed 0 rest
    enclosed.content.length + if enclosed.closed then 2 else 1
  else 1

/-- The tokens of a template whose first byte has the offset `start` and stands behind `before`. -/
def templateTokensFrom (before : Option UInt8) (start : Nat) (text : Bytes) : List Token :=
  match text with
  | [] => []
  | b :: rest =>
    if isHoleStart b rest then
      let body := hole rest
      let stop := start + 1 + body.content.length
      Token.mark start b :: (bodyTokens (start + 1) body.content
        ++ if body.closed then
            Token.mark stop closeBrace
              :: templateTokensFrom (some closeBrace) (stop + 1)
                (rest.drop (body.content.length + 1))
          else [])
    else if (b = openBracket ∨ b = closeBracket) ∧ isIndexed before then
      Token.mark start b :: templateTokensFrom (some b) (start + 1) rest
    else
      let more := plainWidth b rest - 1
      templateTokensFrom ((rest.take more).getLast?.or (some b)) (start + 1 + more)
        (rest.drop more)
termination_by text.length
decreasing_by
  all_goals simp only [List.length_drop, List.length_cons]
  all_goals omega

/-- The tokens of a template. -/
def templateTokens (content : Bytes) : List Token := templateTokensFrom none 0 content

end Expression

end LogMarkup
