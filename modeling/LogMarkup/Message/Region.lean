import LogMarkup.Message.Property
import LogMarkup.Region

/-!
# `LogMarkup.Message.Region` — the regions of a message template

## Contents
- `SegmentKind.classification`, which depends on the property only for the name.
- `Property.regions` and `Message.regions`.
-/

namespace LogMarkup

/-- The classification of a piece of a property. A name that is a number is a position. -/
def SegmentKind.classification (property : PropertyKind) : SegmentKind → Classification
  | openBrace | closeBrace => .brace
  | operator => .capture
  | name => if property = .positional then .number else .property
  | alignment => .alignment
  | format => .format

/-- The regions of a property. -/
def Property.regions (property : Property) : List Region :=
  property.segments.map fun segment =>
    ⟨segment.kind.classification property.kind, segment.start, segment.stop⟩

/-- The regions of a message template. -/
def Message.regions (content : Bytes) : List Region :=
  (Property.all content).flatMap Property.regions

end LogMarkup
