import LogMarkup.Call.Extent
import LogMarkup.Message.Escape

/-!
# `LogMarkup.BracePair` — the two braces of a hole

The braces of a hole belong together if no other brace stands between them; holes do not nest. The
brace to start from is the one at a position, or a closing brace right before it, and it has to be in
a string literal. A string may start on a line above, so the literals are those of the call around
the position.

## Contents
- **In a content.** `braceAt?`, `closingBehind?` and `openingBefore?`, and `bracePairIn?`.
- **In a document.** `BraceScope`, the text around a line with its literals, and
  `BraceScope.pairAt?`.
- `bracePairAt?`, the pair at a position, and `bracePairsOnLine`, those at all columns of a line.
-/

namespace LogMarkup

open Ascii

/-! ## In a content -/

/-- The brace at an offset, or the closing brace right before it. -/
def braceAt? (content : Bytes) (offset : Nat) : Option Nat :=
  if content[offset]?.any isBrace then some offset
  else if 0 < offset ∧ content[offset - 1]? = some closeBrace then some (offset - 1)
  else none

/-- The closing brace of the hole that opens at an offset, at most `distance` bytes further on. -/
def closingBehind? (content : Bytes) (distance opening : Nat) : Option Nat :=
  let reach := (content.drop (opening + 1)).take distance
  let between := reach.takeWhile fun b => !isBrace b
  if reach[between.length]? = some closeBrace then some (opening + 1 + between.length) else none

/-- The opening brace of the hole that closes at an offset, at most `distance` bytes before. -/
def openingBefore? (content : Bytes) (distance closing : Nat) : Option Nat :=
  let reach := ((content.take closing).drop (closing - distance)).reverse
  let between := reach.takeWhile fun b => !isBrace b
  if reach[between.length]? = some openBrace then some (closing - (between.length + 1)) else none

/-- The offsets of the pair of braces around the brace at an offset. -/
def bracePairIn? (content : Bytes) (distance offset : Nat) : Option (Nat × Nat) :=
  match braceAt? content offset with
  | none => none
  | some brace =>
    if content[brace]? = some openBrace then
      (closingBehind? content distance brace).map fun closing => (brace, closing)
    else (openingBefore? content distance brace).map fun opening => (opening, brace)

/-! ## In a document -/

/-- Two braces that belong together. -/
structure BracePair where
  opening : Span
  closing : Span
deriving Repr, DecidableEq

/-- The line from which on the literals around a line are looked for: the first line of the call
    around it, or else the line itself. -/
def braceBase (document : Document) (config : Config) (line : Nat) : Nat :=
  let floor := line - config.limits.braceLookback
  let lines := (List.range' floor (line + 1 - floor)).reverse
  match lines.find? fun n => config.shapes.accepts (document.line n) with
  | none => line
  | some trigger =>
    let call := callAt document config.limits trigger floor
    if call.coversLine line then call.start.line else line

/-- The lines around a line, and the literals in them. -/
structure BraceScope where
  window : Window
  literals : List Literal
deriving Repr, DecidableEq

namespace BraceScope

/-- The scope of a line that the document has. -/
def of? (document : Document) (config : Config) (line : Nat) : Option BraceScope :=
  if line < document.lineCount then
    let base := braceBase document config line
    let window := Window.of document base (line + config.limits.braceLookahead + 1)
    some ⟨window, Literal.all window.text⟩
  else none

/-- The pair of braces at a position on the line of the scope. -/
def pairAt? (scope : BraceScope) (distance : Nat) (position : Position) : Option BracePair :=
  match scope.window.offset? position with
  | none => none
  | some cursor =>
    match scope.literals.find? (·.holdsCursor cursor) with
    | none => none
    | some literal =>
      let spanOf (offset : Nat) : Span :=
        scope.window.span (literal.contentStart + offset) (literal.contentStart + offset + 1)
      (bracePairIn? (coverEscapes literal.content) distance (cursor - literal.contentStart)).map
        fun (opening, closing) => ⟨spanOf opening, spanOf closing⟩

end BraceScope

/-- The pair of braces at a position. -/
def bracePairAt? (document : Document) (config : Config) (position : Position) :
    Option BracePair :=
  (BraceScope.of? document config position.line).bind fun scope =>
    scope.pairAt? config.limits.braceDistance position

/-- The pairs of braces at the columns of a line, from its start to its end, each with its column. -/
def bracePairsOnLine (document : Document) (config : Config) (line : Nat) :
    List (Nat × BracePair) :=
  match BraceScope.of? document config line with
  | none => []
  | some scope =>
    (List.range ((document.line line).length + 1)).filterMap fun column =>
      (scope.pairAt? config.limits.braceDistance ⟨line, column⟩).map fun pair => (column, pair)

end LogMarkup
