/-!
# `LogMarkup.Config.Limits` — how far a search may go

Every search in a document that goes up or down from a line is bounded, so that no document can make
one slow. A bound of zero would switch a search off and is refused where a configuration is built.

## Contents
- `Limits` with its usual values.
- `Limit`, the names of the bounds, with `Limits.get` and `Limits.firstZero?`.
-/

namespace LogMarkup

/-- The bounds of the searches. -/
structure Limits where
  /-- How many lines above a recognised line a call may start. -/
  callLookback : Nat := 5
  /-- How many lines a call may go on for, counted from the recognised line. -/
  callLines : Nat := 200
  /-- How many lines above a brace the start of its string is looked for. -/
  braceLookback : Nat := 50
  /-- How many lines below a brace the end of its string is looked for. -/
  braceLookahead : Nat := 50
  /-- How many bytes apart the two braces of a pair may be. -/
  braceDistance : Nat := 1000
deriving Repr, DecidableEq

/-- The names of the bounds. -/
inductive Limit
  | callLookback
  | callLines
  | braceLookback
  | braceLookahead
  | braceDistance
deriving Repr, DecidableEq

namespace Limit

/-- All bounds, in the order in which they are checked. -/
def all : List Limit := [callLookback, callLines, braceLookback, braceLookahead, braceDistance]

/-- The name by which messages call a bound. -/
def name : Limit → String
  | callLookback => "call_lookback_lines"
  | callLines => "call_max_lines"
  | braceLookback => "brace_lookback_lines"
  | braceLookahead => "brace_lookahead_lines"
  | braceDistance => "brace_max_scan"

end Limit

namespace Limits

/-- The value of a bound. -/
def get (limits : Limits) : Limit → Nat
  | .callLookback => limits.callLookback
  | .callLines => limits.callLines
  | .braceLookback => limits.braceLookback
  | .braceLookahead => limits.braceLookahead
  | .braceDistance => limits.braceDistance

/-- The same bounds but for one of them. -/
def set (limits : Limits) (value : Nat) : Limit → Limits
  | .callLookback => { limits with callLookback := value }
  | .callLines => { limits with callLines := value }
  | .braceLookback => { limits with braceLookback := value }
  | .braceLookahead => { limits with braceLookahead := value }
  | .braceDistance => { limits with braceDistance := value }

/-- The first bound that is zero. -/
def firstZero? (limits : Limits) : Option Limit := Limit.all.find? (limits.get · == 0)

end Limits

end LogMarkup
