import LogMarkup.Pattern.Matcher
import LogMarkup.Pattern.Reader

/-!
# `LogMarkup.Config.Shape` — the shapes of calls that carry templates

A call is recognised by a line of it, on which something matches. The template is the first string behind
the match, and the shape of the call also says in which of the two languages it is written. What matches may
be anything that keeps to the line. Patterns are what shapes are read from.

## Contents
- `Flavor`, the two languages of templates.
- `Shape` and `Shape.read`, from the written form of a pattern.
- `Shapes`, in the order of preference, with `Shapes.firstMatch?` and `Shapes.firstMatch?_le`, and the
  usual shapes.
-/

namespace LogMarkup

/-- The languages of templates. -/
inductive Flavor
  /-- Text with the names of properties in its holes. -/
  | message
  /-- Expressions, alone or in the holes of a text. -/
  | expression
deriving Repr, DecidableEq

/-- The name of a language. -/
def Flavor.name : Flavor → String
  | message => "Message"
  | expression => "Expression"

/-- What recognises lines of calls, and the language of their templates. -/
structure Shape where
  /-- The written form of what recognises the lines. -/
  source : String
  matcher : Matcher
  flavor : Flavor

/-- The shape with the given written pattern. -/
def Shape.read (source : String) (flavor : Flavor) : Except PatternError Shape :=
  match Pattern.read source with
  | .error error => .error error
  | .ok pattern => .ok ⟨source, pattern.matcher, flavor⟩

/-- Shapes in the order of preference. -/
structure Shapes where
  toList : List Shape

namespace Shapes

/-- No shapes, by which no call is recognised. -/
def empty : Shapes := ⟨[]⟩

/-- The number of shapes. -/
def size (shapes : Shapes) : Nat := shapes.toList.length

/-- Add a shape behind all others. -/
def append (shapes : Shapes) (shape : Shape) : Shapes := ⟨shapes.toList ++ [shape]⟩

/-- Add a shape in front of all others. -/
def prepend (shapes : Shapes) (shape : Shape) : Shapes := ⟨shape :: shapes.toList⟩

/-- The first shape that a line matches, and the offset where the match ends. -/
def firstMatch? (shapes : Shapes) (line : Bytes) : Option (Shape × Nat) :=
  shapes.toList.findSome? fun shape =>
    (shape.matcher.matchEnd? line).map fun stop => (shape, stop)

/-- **The match of a shape ends on the line that it was found in.** -/
theorem firstMatch?_le {shapes : Shapes} {line : Bytes} {shape : Shape} {stop : Nat}
    (h : shapes.firstMatch? line = some (shape, stop)) : stop ≤ line.length := by
  obtain ⟨other, -, hfound⟩ := List.exists_of_findSome?_eq_some h
  obtain ⟨found, hmatch, heq⟩ := Option.map_eq_some_iff.mp hfound
  rw [← (Prod.mk.inj heq).2]
  exact other.matcher.le_length hmatch

/-- Whether a line belongs to a call with a template. -/
def accepts (shapes : Shapes) (line : Bytes) : Bool := (shapes.firstMatch? line).isSome

/-- The written forms of the usual shapes. The ones for expressions come first, since the last one
    accepts every line that continues a chain of calls. -/
def usualSources : List (String × Flavor) :=
  [("\\bnew\\s+ExpressionTemplate\\s*\\(", .expression),
   ("\\.(?:ByExcluding|ByIncludingOnly|When|Conditional)\\s*\\(", .expression),
   ("\\.(?:Verbose|Debug|Information|Warning|Error|Fatal|Write)\\s*(?:<[^>]*>)?\\s*\\(", .message),
   ("\\bLog(?:Trace|Debug|Information|Warning|Error|Critical)?\\s*(?:<[^>]*>)?\\s*\\(", .message),
   ("\\bBeginScope\\s*\\(", .message),
   ("\\boutputTemplate\\s*:", .message),
   ("^\\s*\\.", .message)]

/-- The usual shapes. -/
def usual : Shapes :=
  ⟨usualSources.filterMap fun (source, flavor) => (Shape.read source flavor).toOption⟩

end Shapes

end LogMarkup
