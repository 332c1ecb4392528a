import LogMarkup.Message.Hole

/-!
# `LogMarkup.Message.Property` — the properties that a message template captures

Each hole of a template names a property, unless its form belongs to expression templates: directives
such as `{#if}`, the built-in names behind an `@`, and a single character behind a `$` name none.

## Contents
- `Property`, with its span and the parts of its hole; `Property.ofHole?`.
- `Property.all`, the properties of a template.
- `Segment` and `Property.segments`, the pieces of a property from brace to brace.
-/

namespace LogMarkup

open Ascii

/-- How a property captures its value. -/
inductive PropertyKind
  | standard
  /-- The structure of the value, asked for by `@`. -/
  | destructured
  /-- The text of the value, asked for by `$`. -/
  | stringified
  /-- The value at a position, named by digits. -/
  | positional
deriving Repr, DecidableEq

/-- The name of a way to capture. -/
def PropertyKind.name : PropertyKind → String
  | standard => "Standard"
  | destructured => "Destructured"
  | stringified => "Stringified"
  | positional => "Positional"

/-- A property of a template. -/
structure Property where
  name : Bytes
  /-- The offset of the opening brace. -/
  start : Nat
  /-- The offset behind the closing brace. -/
  stop : Nat
  kind : PropertyKind
  alignment : Option Bytes
  /-- The format, if it is not empty. -/
  format : Option Bytes
deriving Repr, DecidableEq

namespace Property

/-- The names that an `@` turns into built-in properties of expressions. -/
def reservedNames : List Bytes :=
  ["t", "l", "m", "mt", "x", "i", "p", "r", "tr", "sp"].map Bytes.ofString

/-- How a name captures its value behind a sigil, if it does. -/
def kind? : Option Sigil → Bytes → Option PropertyKind
  | some .directive, _ => none
  | some .destructure, name => if name ∈ reservedNames then none else some .destructured
  | some .stringify, name => if name.length = 1 then none else some .stringified
  | none, name => some (if name.all isDigit then .positional else .standard)

/-- The property of the hole at an offset. -/
def ofHole? (start : Nat) (hole : Hole) : Option Property :=
  match kind? hole.sigil hole.name with
  | none => none
  | some kind =>
    some {
      name := hole.name
      start := start
      stop := start + hole.text.length
      kind := kind
      alignment := hole.alignment
      format := hole.format.filter (· ≠ []) }

/-- The properties of a template, from left to right. -/
def all (content : Bytes) : List Property :=
  (Hole.allFrom 0 (coverEscapes content)).filterMap fun (start, hole) => ofHole? start hole

end Property

/-! ## Segments -/

/-- The role of a piece of a property. -/
inductive SegmentKind
  | openBrace
  /-- The `@` or `$` in front of the name. -/
  | operator
  | name
  /-- The comma and the alignment. -/
  | alignment
  /-- The colon and the format. -/
  | format
  | closeBrace
deriving Repr, DecidableEq

/-- A piece of a property, as a half-open span. -/
structure Segment where
  kind : SegmentKind
  start : Nat
  stop : Nat
deriving Repr, DecidableEq

/-- Segments of the given lengths, one behind the other. -/
def Segment.placeFrom (start : Nat) : List (SegmentKind × Nat) → List Segment
  | [] => []
  | (kind, length) :: rest => ⟨kind, start, start + length⟩ :: placeFrom (start + length) rest

namespace Property

/-- Whether a sign in front of the name asked for the kind. -/
def hasOperator (property : Property) : Bool :=
  property.kind == .destructured || property.kind == .stringified

/-- The kinds and lengths of the pieces in front of the closing brace. -/
def pieces (property : Property) : List (SegmentKind × Nat) :=
  [(.openBrace, 1)]
    ++ (if property.hasOperator then [(.operator, 1)] else [])
    ++ [(.name, property.name.length)]
    ++ (property.alignment.map fun part => (.alignment, part.length + 1)).toList
    ++ (property.format.map fun part => (.format, part.length + 1)).toList

/-- The pieces of a property, from left to right. The closing brace is found from the end of the
    property, since the colon of an empty format belongs to no piece. -/
def segments (property : Property) : List Segment :=
  Segment.placeFrom property.start property.pieces
    ++ [⟨.closeBrace, property.stop - 1, property.stop - 1 + 1⟩]

end Property

end LogMarkup
