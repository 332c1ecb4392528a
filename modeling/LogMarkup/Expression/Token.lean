import LogMarkup.Region
import LogMarkup.Text.Ascii

/-!
# `LogMarkup.Expression.Token` — the tokens of expressions and their classification

## Contents
- `TokenKind` and `Token`, a piece of text with its kind and its half-open span.
- `TokenKind.classification?` and `Token.region?`. Braces are told apart from the other punctuation, and
  tokens without a meaning have no region.
- `Region.ofTokens`, the regions of a sequence of tokens.
-/

namespace LogMarkup

open Ascii

/-- The kinds of tokens. -/
inductive TokenKind
  /-- The name of a property, or of a variable with its `$`. -/
  | identifier
  /-- Text in quotes; the value leaves the quotes out. -/
  | string
  /-- A run of digits and dots, or the width of an alignment with its sign. -/
  | number
  | comparison
  /-- A reserved word. -/
  | logical
  | arithmetic
  /-- A `#` and the letters behind it. -/
  | directive
  /-- An `@` and the small letters behind it. -/
  | builtIn
  /-- A word in front of an opening parenthesis. -/
  | function
  | punctuation
  /-- All the text behind the colon of a hole. -/
  | format
  /-- An operator that has no meaning on its own. -/
  | unknown
deriving Repr, DecidableEq

/-- A token of an expression. -/
structure Token where
  kind : TokenKind
  value : Bytes
  start : Nat
  stop : Nat
deriving Repr, DecidableEq

/-- A token whose value is its own text. -/
def Token.ofText (kind : TokenKind) (start : Nat) (text : Bytes) : Token :=
  ⟨kind, text, start, start + text.length⟩

/-- A punctuation token of one byte. -/
def Token.mark (start : Nat) (b : UInt8) : Token := Token.ofText .punctuation start [b]

/-- The classification of a token with the given kind and value. -/
def TokenKind.classification? (kind : TokenKind) (value : Bytes) : Option Classification :=
  match kind with
  | identifier => some .identifier
  | string => some .string
  | number => some .number
  | comparison | logical | arithmetic => some .operator
  | directive => some .directive
  | builtIn => some .builtIn
  | function => some .function
  | format => some .format
  | punctuation =>
    some (if value = [openBrace] ∨ value = [closeBrace] then .brace else .punctuation)
  | unknown => none

/-- The region of a token. -/
def Token.region? (token : Token) : Option Region :=
  (token.kind.classification? token.value).map fun classification =>
    ⟨classification, token.start, token.stop⟩

/-- The regions of a sequence of tokens. -/
def Region.ofTokens (tokens : List Token) : List Region := tokens.filterMap Token.region?

end LogMarkup
