import LogMarkup.Expression.Template

/-!
# `LogMarkup.Expression.Mode` — template or expression

The same place in a program may hold a template with holes or a bare expression. It is a template if
a hole opens outside of quoted text. An apostrophe opens quoted text only where an operand may stand
and only if it is closed on its line, so that an apostrophe in a sentence is plain text.

## Contents
- `isOperandPosition`, the look back from an apostrophe, and `moveQuotedOnLine`, the look ahead.
- `Mode.ofContent`, the mode of a content.
- `Mode.tokens` and `Expression.tokens`, the tokens in a given and in the detected mode.
- `Expression.regions`, the classified regions of a content.
-/

namespace LogMarkup

open Ascii

/-- How a content is read. -/
inductive Mode
  /-- Plain text, in which only holes and indexes count. -/
  | template
  /-- An expression, in which everything counts. -/
  | expression
deriving Repr, DecidableEq

namespace Mode

/-- Whether a hole starts with the given byte: with a sigil or a word character. -/
def isHoleHead (b : UInt8) : Bool := b == hash || b == atSign || b == dollar || isWord b

/-- The bytes behind which an operand may stand. -/
def operandMarks : Bytes := Bytes.ofString "=!<>(,[+-*/%?:"

/-- Whether an operand may stand behind a text, which is given from its end to its start: at the
    start, behind an operator or an opener, and behind a reserved word. -/
def isOperandPosition (before : Bytes) : Bool :=
  match before.dropWhile isSpace with
  | [] => true
  | b :: rest =>
    if isWord b then isKeyword ((b :: rest).takeWhile isWord).reverse
    else operandMarks.contains b

/-- The walk over quoted text that has to end on its line. -/
def moveQuotedOnLine (closer : UInt8) (_ : Unit) (b : UInt8) (_ : Bytes) : Move Unit :=
  if b = backslash then .pair ()
  else if b = lineFeed then .stopBefore
  else if b = closer then .close
  else .single ()

/-- The number of bytes to pass over together on the search for a hole, the first of them being `b`,
    behind the text `before`. -/
def passWidth (before : Bytes) (b : UInt8) (rest : Bytes) : Nat :=
  if b = backslash then 2
  else if b = openBrace ∧ rest.head? = some openBrace then 2
  else if b = apostrophe ∧ isOperandPosition before then
    let enclosed := Enclosed.read (moveQuotedOnLine b) () rest
    if enclosed.closed then enclosed.content.length + 2 else 1
  else 1

/-- The mode of the text behind `before`, which is given from its end to its start. -/
def decideFrom (before text : Bytes) : Mode :=
  match text with
  | [] => .expression
  | b :: rest =>
    if b = openBrace ∧ rest.head?.any isHoleHead then .template
    else
      let more := passWidth before b rest - 1
      decideFrom ((rest.take more).reverse ++ b :: before) (rest.drop more)
termination_by text.length
decreasing_by
  simp only [List.length_drop, List.length_cons]
  omega

/-- The mode in which a content is read. -/
def ofContent (content : Bytes) : Mode := decideFrom [] content

/-- The tokens of a content in a mode. -/
def tokens : Mode → Bytes → List Token
  | template, content => Expression.templateTokens content
  | expression, content => Expression.tokensFrom 0 content

end Mode

namespace Expression

/-- The tokens of a content in the mode that suits it. -/
def tokens (content : Bytes) : List Token := (Mode.ofContent content).tokens content

/-- The classified regions of a content. -/
def regions (content : Bytes) : List Region := Region.ofTokens (tokens content)

end Expression

end LogMarkup
