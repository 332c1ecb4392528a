import LogMarkup.Text.Enclosed

/-!
# `LogMarkup.Literal.Opener` — how a string literal starts, and what its start decides

A string literal of C# starts with quotes that may follow `@` and `$` signs. The opener alone decides
by which rules the content is read and by which quotes it is closed.

## Contents
- `LiteralKind`, the four shapes that are told apart in answers.
- `Opener`, every way to open a literal, with its text and that of its closer.
- `Opener.read?`, the opener at the head of a text. No two openers fit one text, since the signs and
  the quotes are always taken as whole runs.
- `Opener.move`, the rules of the content.
-/

namespace LogMarkup

/-- The shapes of string literals. -/
inductive LiteralKind
  /-- One line, with backslash escapes. -/
  | regular
  /-- Any number of lines; a doubled quote stands for a quote. -/
  | verbatim
  /-- Any number of lines, closed by as many quotes as opened it, of which there are at least three. -/
  | raw
  /-- Holes of the host language between braces, on one line or verbatim. -/
  | interpolated
deriving Repr, DecidableEq

/-- The name of a shape. -/
def LiteralKind.name : LiteralKind → String
  | regular => "Regular"
  | verbatim => "Verbatim"
  | raw => "Raw"
  | interpolated => "Interpolated"

/-- The openers of string literals. -/
inductive Opener
  | regular
  | verbatim
  /-- Dollar signs, then three quotes and possibly more. -/
  | raw (dollars extraQuotes : Nat)
  | interpolated
  /-- A dollar sign and an at sign, in either order. -/
  | verbatimInterpolated (dollarFirst : Bool)
deriving Repr, DecidableEq

namespace Opener

open Ascii

/-- The kind of the literals that the opener opens. -/
def kind : Opener → LiteralKind
  | regular => .regular
  | verbatim => .verbatim
  | raw .. => .raw
  | interpolated | verbatimInterpolated _ => .interpolated

/-- The text of the opener. -/
def text : Opener → Bytes
  | regular => [quote]
  | verbatim => [atSign, quote]
  | raw dollars extraQuotes =>
    List.replicate dollars dollar ++ List.replicate (extraQuotes + 3) quote
  | interpolated => [dollar, quote]
  | verbatimInterpolated true => [dollar, atSign, quote]
  | verbatimInterpolated false => [atSign, dollar, quote]

/-- The text that closes what the opener opens. -/
def closer : Opener → Bytes
  | raw _ extraQuotes => List.replicate (extraQuotes + 3) quote
  | _ => [quote]

theorem length_text_pos (opener : Opener) : 0 < opener.text.length := by
  cases opener with
  | verbatimInterpolated dollarFirst => cases dollarFirst <;> simp [text]
  | raw dollars extraQuotes =>
    simp only [text, List.length_append, List.length_replicate]
    omega
  | _ => simp [text]

/-- The opener at the head of a text. A run of three quotes or more opens a raw literal after any
    number of dollar signs; fewer quotes open a literal only after at most one sign of each sort. -/
def read? (text : Bytes) : Option Opener :=
  let dollars := text.run dollar
  let behind : Bytes := text.drop dollars
  let quotes := behind.run quote
  if 3 ≤ quotes then some (raw dollars (quotes - 3))
  else if dollars = 0 then
    if 1 ≤ quotes then some regular
    else if [atSign, quote].isPrefixOf text then some verbatim
    else if [atSign, dollar, quote].isPrefixOf text then some (verbatimInterpolated false)
    else none
  else if dollars = 1 then
    if 1 ≤ quotes then some interpolated
    else if [atSign, quote].isPrefixOf behind then some (verbatimInterpolated true)
    else none
  else none

/-! ## The rules of the content

The state of the walk is the number of holes that are open. Only interpolated literals have holes;
inside one neither a quote nor the end of a line means anything. -/

/-- One line: a backslash takes the byte behind it along, but never the end of the line. -/
def moveInLine (depth : Nat) (b : UInt8) (rest : Bytes) : Move Nat :=
  if b = backslash then
    if rest.head? = some lineFeed then .stopAfter else .pair depth
  else if b = quote then .close
  else if b = lineFeed then .stopBefore
  else .single depth

/-- Verbatim text: two quotes are content, one is the closer. -/
def moveVerbatim (depth : Nat) (b : UInt8) (rest : Bytes) : Move Nat :=
  if b = quote then
    if rest.head? = some quote then .pair depth else .close
  else .single depth

/-- Raw text: nothing but the closer means anything. -/
def moveRaw (closer : Bytes) (depth : Nat) (b : UInt8) (rest : Bytes) : Move Nat :=
  if closer.isPrefixOf (b :: rest) then .close else .single depth

/-- A brace in text with holes. Outside of holes a doubled brace is content; any other brace opens or
    closes a hole, and a closing one without a hole is content. -/
def moveBrace (depth : Nat) (b : UInt8) (rest : Bytes) : Move Nat :=
  if depth = 0 ∧ rest.head? = some b then .pair 0
  else if b = openBrace then .single (depth + 1)
  else .single (depth - 1)

/-- One line with holes: in a hole, too, a backslash takes the byte behind it along. -/
def moveInterpolated (depth : Nat) (b : UInt8) (rest : Bytes) : Move Nat :=
  if isBrace b then moveBrace depth b rest
  else if depth = 0 then moveInLine 0 b rest
  else if b = backslash then .pair depth
  else .single depth

/-- Verbatim text with holes. -/
def moveVerbatimInterpolated (depth : Nat) (b : UInt8) (rest : Bytes) : Move Nat :=
  if isBrace b then moveBrace depth b rest
  else if depth = 0 then moveVerbatim 0 b rest
  else .single depth

/-- The rules that an opener puts its content under. -/
def move : Opener → Nat → UInt8 → Bytes → Move Nat
  | regular => moveInLine
  | verbatim => moveVerbatim
  | raw _ extraQuotes => moveRaw (List.replicate (extraQuotes + 3) quote)
  | interpolated => moveInterpolated
  | verbatimInterpolated _ => moveVerbatimInterpolated

end Opener

end LogMarkup
