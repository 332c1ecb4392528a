import LogMarkup.Pattern.Basic
import LogMarkup.Text.Character

/-!
# `LogMarkup.Pattern.Matcher` — what recognises lines

Patterns are one way to recognise lines, and what they match is a matter of their own. The analyses of a
document rely on no more than one fact about them: a match ends on the line that it was found in. So they
go by matchers, which are searches with that property, and hold for every other way to recognise lines.

## Contents
- `Matcher`, a search for a match in a line.
- `Pattern.matchEnd?_le` and `Pattern.matcher`, by which patterns are matchers.
-/

namespace LogMarkup

/-- A search for a match in a line. It gives the offset where the match ends, which is on the line. -/
structure Matcher where
  matchEnd? : Bytes → Option Nat
  le_length : ∀ {line stop}, matchEnd? line = some stop → stop ≤ line.length

namespace Pattern

/-- The characters up to the end of a match take no more bytes than the line has. -/
theorem matchEnd?_le {pattern : Pattern} {line : Bytes} {stop : Nat}
    (h : pattern.matchEnd? line = some stop) : stop ≤ line.length := by
  obtain ⟨place, -, rfl⟩ := Option.map_eq_some_iff.mp h
  rw [← Utf8.widthOf_symbols line]
  exact Utf8.widthOf_take_le _ _

/-- The search for a pattern. -/
def matcher (pattern : Pattern) : Matcher := ⟨pattern.matchEnd?, matchEnd?_le⟩

end Pattern

end LogMarkup
