import LogMarkup.Expression.Lexeme

/-!
# `LogMarkup.Expression.Hole` — the holes of expression templates

A hole of an expression template holds a directive, a call, or a name with an alignment and a format;
everything else in it is an expression. The closing brace is found first, with regard to nested
braces and quoted text, and the tokens of the body never reach beyond it.

## Contents
- **The body.** `HoleState`, `moveHole`, and `Expression.hole`, the text up to the closing brace.
- **The tokens.** `formatTokens`, `alignmentTokens` and `tailTokens` for what may stand behind a
  name, and `bodyTokens`.
-/

namespace LogMarkup

open Ascii

/-! ## The body -/

/-- Where the walk over a hole is: how many braces are open inside of it, and in which quotes. -/
structure HoleState where
  depth : Nat
  quote : Option UInt8
deriving Repr, DecidableEq

/-- The walk over a hole: braces nest, except in quoted text, and a backslash takes the byte behind
    it along everywhere. -/
def moveHole (state : HoleState) (b : UInt8) (_ : Bytes) : Move HoleState :=
  if b = backslash then .pair state
  else match state.quote with
  | some closer => .single (if b = closer then { state with quote := none } else state)
  | none =>
    if isQuote b then .single { state with quote := some b }
    else if b = openBrace then .single { state with depth := state.depth + 1 }
    else if b = closeBrace then
      if state.depth = 0 then .close else .single { state with depth := state.depth - 1 }
    else .single state

namespace Expression

/-- The body of the hole whose `{` stands right before a text. -/
def hole (text : Bytes) : Enclosed := Enclosed.read moveHole ⟨0, none⟩ text

/-! ## The tokens -/

/-- The format of a hole: whatever is behind the colon, up to the end of the hole. Without a colon
    the rest of the hole is an expression. -/
def formatTokens (start : Nat) : Bytes → List Token
  | [] => []
  | b :: rest =>
    if b = colon then
      Token.mark start b :: if rest = [] then [] else [Token.ofText .format (start + 1) rest]
    else tokensFrom start (b :: rest)

/-- The number at the head of a text: a sign, which may stand alone, and digits. -/
def width : Bytes → Bytes
  | [] => []
  | b :: rest =>
    if b = plus ∨ b = minus then b :: rest.takeWhile isDigit
    else (b :: rest).takeWhile isDigit

/-- The width behind the comma of an alignment, and the format behind it. -/
def alignmentTokens (start : Nat) (text : Bytes) : List Token :=
  let blanks := (text.takeWhile isSpace).length
  let number := width (text.drop blanks)
  let behind := text.drop (blanks + number.length)
  let blanksBehind := (behind.takeWhile isSpace).length
  (if number = [] then [] else [Token.ofText .number (start + blanks) number])
    ++ formatTokens (start + blanks + number.length + blanksBehind) (behind.drop blanksBehind)

/-- What may stand behind the name in a hole: an alignment, a format, or an expression. -/
def tailTokens (start : Nat) (text : Bytes) : List Token :=
  let blanks := (text.takeWhile isSpace).length
  match text.drop blanks with
  | [] => []
  | b :: rest =>
    if b = comma then Token.mark (start + blanks) b :: alignmentTokens (start + blanks + 1) rest
    else formatTokens (start + blanks) (b :: rest)

/-- The name at the head of a hole, of the given kind, and its tail. -/
def namedTokens (kind : TokenKind) (start : Nat) (name behind : Bytes) : List Token :=
  Token.ofText kind start name :: tailTokens (start + name.length) behind

/-- The tokens of the body of a hole, whose first byte has the offset `start`. -/
def bodyTokens (start : Nat) : Bytes → List Token
  | [] => []
  | b :: rest =>
    if b = hash then
      let name := b :: rest.takeWhile isLetter
      Token.ofText .directive start name
        :: tokensFrom (start + name.length) (rest.dropWhile isLetter)
    else if b = atSign then
      if rest.head?.any isLower then
        namedTokens .builtIn start (b :: rest.takeWhile isLower) (rest.dropWhile isLower)
      else tailTokens (start + 1) rest
    else if b = dollar ∧ rest.head?.any isWordStart then
      namedTokens .identifier start (b :: rest.takeWhile isWord) (rest.dropWhile isWord)
    else if isWord b ∧ ¬ opensCall (rest.dropWhile isWord) then
      namedTokens .identifier start (b :: rest.takeWhile isWord) (rest.dropWhile isWord)
    else tokensFrom start (b :: rest)

end Expression

end LogMarkup
