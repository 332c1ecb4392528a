/-!
# `LogMarkup.Region` — classified pieces of a template

Both sorts of templates, message templates and expressions, are shown to a reader as a sequence of
regions, each of one classification.

## Contents
- `Classification` and its name in answers.
- `Region`, a half-open span of the content of a template with its classification.
-/

namespace LogMarkup

/-- What a region is. -/
inductive Classification
  | identifier
  | string
  | number
  | operator
  | directive
  | builtIn
  | function
  | format
  | brace
  | punctuation
  /-- The name of a captured property. -/
  | property
  /-- The sign in front of the name of a captured property. -/
  | capture
  | alignment
deriving Repr, DecidableEq

/-- The name of a classification. -/
def Classification.name : Classification → String
  | identifier => "identifier"
  | string => "string"
  | number => "number"
  | operator => "operator"
  | directive => "directive"
  | builtIn => "builtin"
  | function => "function"
  | format => "format"
  | brace => "brace"
  | punctuation => "punctuation"
  | property => "property"
  | capture => "capture"
  | alignment => "alignment"

/-- A classified span of a template's content. -/
structure Region where
  classification : Classification
  start : Nat
  stop : Nat
deriving Repr, DecidableEq

end LogMarkup
