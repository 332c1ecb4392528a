import LogMarkup.Call.Extent
import LogMarkup.Expression.Mode
import LogMarkup.Message.Region

/-!
# `LogMarkup.Highlight` — the templates of a document

In each call, every line that has the shape of a call selects a template: the first string literal
behind the match, unless the match itself is inside of a string. Literals with holes of the host
language are no templates, and no literal is a template twice.

## Contents
- `PlacedRegion` and `PlacedTemplate`, in the coordinates of the document.
- `CallText`, the lines of a call with their literals; `CallText.select?` and `CallText.templates`.
- `highlight`, the templates of a document.
-/

namespace LogMarkup

/-- A classified piece of a document. -/
structure PlacedRegion where
  classification : Classification
  span : Span
deriving Repr, DecidableEq

/-- A template in a document. -/
structure PlacedTemplate where
  flavor : Flavor
  kind : LiteralKind
  /-- The whole literal, with its quotes. -/
  span : Span
  content : Bytes
  regions : List PlacedRegion
deriving Repr, DecidableEq

/-- The regions of a template's content in its language. -/
def Flavor.regions : Flavor → Bytes → List Region
  | message, content => Message.regions content
  | expression, content => Expression.regions content

/-- The lines of a call and the literals in them. -/
structure CallText where
  window : Window
  literals : List Literal
deriving Repr, DecidableEq

namespace CallText

/-- All lines of a call. -/
def of (document : Document) (call : Span) : CallText :=
  let window := Window.of document call.start.line (call.stop.line + 1)
  ⟨window, Literal.all window.text⟩

/-- Whether an offset is behind the start of a literal, but not behind its last byte. -/
def isInLiteral (text : CallText) (offset : Nat) : Bool :=
  text.literals.any fun literal => literal.start < offset && offset ≤ literal.last

/-- The literal that a line with a given number and text selects as a template. -/
def select? (text : CallText) (shapes : Shapes) (n : Nat) (line : Bytes) :
    Option (Flavor × Literal) :=
  match shapes.firstMatch? line, text.window.lineStart? n with
  | some (shape, stop), some start =>
    let anchor := start + stop
    if text.isInLiteral anchor then none
    else
      match text.literals.find? fun literal => anchor ≤ literal.start with
      | none => none
      | some literal =>
        if literal.kind = .interpolated then none else some (shape.flavor, literal)
  | _, _ => none

/-- The selections but for those of a literal that was selected before. -/
def withoutRepeats (claimed : List Nat) : List (Flavor × Literal) → List (Flavor × Literal)
  | [] => []
  | (flavor, literal) :: selections =>
    if literal.start ∈ claimed then withoutRepeats claimed selections
    else (flavor, literal) :: withoutRepeats (literal.start :: claimed) selections

/-- A literal as a template, with its regions. -/
def place (text : CallText) (flavor : Flavor) (literal : Literal) : PlacedTemplate where
  flavor := flavor
  kind := literal.kind
  span := text.window.span literal.start literal.stop
  content := literal.content
  regions := (flavor.regions literal.content).map fun region =>
    ⟨region.classification,
      text.window.span (literal.contentStart + region.start) (literal.contentStart + region.stop)⟩

/-- The templates of a call. -/
def templates (document : Document) (config : Config) (call : Span) : List PlacedTemplate :=
  let text := CallText.of document call
  let numbers := List.range' call.start.line (call.stop.line + 1 - call.start.line)
  let selections := numbers.filterMap fun n => text.select? config.shapes n (document.line n)
  (withoutRepeats [] selections).map fun (flavor, literal) => text.place flavor literal

end CallText

/-- The templates of a document, call by call. -/
def highlight (document : Document) (config : Config) : List PlacedTemplate :=
  (calls document config).flatMap (CallText.templates document config)

end LogMarkup
