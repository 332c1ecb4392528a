import LogMarkup.Call.Code
import LogMarkup.Call.Statement
import LogMarkup.Config.Basic
import LogMarkup.Source.Window

/-!
# `LogMarkup.Call.Extent` — where calls start and end

A line that has the shape of a call is only one line of it. The call starts a few lines above, below
the end of the statement before it, and it ends at the parenthesis that balances its own, or at the
semicolon behind that. This is a heuristic: it reads no more of the host language than the items of
`CodeItem`.

## Contents
- **The start.** `climb` and `callStart`.
- **The end.** `balance`, the walk over the items, and `callEnd?`, with the semicolon.
- **Calls.** `callAt`, the call around a recognised line, and `calls`, those of a document, no two
  of which share a line.
-/

namespace LogMarkup

open Ascii

/-! ## The start -/

/-- The line where a statement starts that reaches down to a line, but none above `lowest`. -/
def climb (document : Document) (lowest : Nat) : Nat → Nat
  | 0 => 0
  | line + 1 =>
    if lowest ≤ line ∧ closesStatement (document.line line) = false then
      climb document lowest line
    else line + 1

/-- The line where the call around the line `trigger` starts, not above the line `floor`. -/
def callStart (document : Document) (limits : Limits) (trigger floor : Nat) : Nat :=
  climb document (max (trigger - limits.callLookback) floor) trigger

/-! ## The end -/

/-- The offset behind the parenthesis that balances a call, in a text whose first byte has the offset
    `start` and follows `opened` opening and `closed` closing parentheses. No parenthesis in front
    of the offset `trigger` ends the call, and none does while more parentheses were opened than
    closed. -/
def balance (trigger opened closed start : Nat) (text : Bytes) : Option Nat :=
  match text with
  | [] => none
  | b :: rest =>
    let item := CodeItem.first b rest
    let opened := if item.kind = .plain openParen then opened + 1 else opened
    let closed := if item.kind = .plain closeParen then closed + 1 else closed
    if item.kind = .plain closeParen ∧ trigger ≤ start ∧ 0 < opened ∧ opened ≤ closed then
      some (start + 1)
    else balance trigger opened closed (start + item.width) (rest.drop (item.width - 1))
termination_by text.length
decreasing_by
  simp only [List.length_drop, List.length_cons]
  omega

/-- The offset behind the semicolon that follows an offset, with white space before it at most, or
    else the offset itself. -/
def withSemicolon (text : Bytes) (offset : Nat) : Nat :=
  let behind := text.drop offset
  if (behind.dropWhile isSpace).head? = some semicolon then
    offset + (behind.takeWhile isSpace).length + 1
  else offset

/-- The offset where a call ends that is recognised at the offset `trigger`, if it is balanced. -/
def callEnd? (text : Bytes) (trigger : Nat) : Option Nat :=
  (balance trigger 0 0 0 text).map (withSemicolon text)

/-! ## Calls -/

/-- The call around the line `trigger`, not above the line `floor`. A call that is not balanced in
    the lines that it may take goes on to their end. -/
def callAt (document : Document) (limits : Limits) (trigger floor : Nat) : Span :=
  let startLine := callStart document limits trigger floor
  let window := Window.of document startLine (trigger + limits.callLines)
  let text := window.text
  let stop := (callEnd? text ((window.lineStart? trigger).getD 0)).getD text.length
  ⟨⟨startLine, (document.line startLine).indentation⟩, window.position stop⟩

/-- The calls on lines of a document, of which the first one has the number `n`, and of which those
    above the line `free` belong to calls that are known. -/
def callsFrom (document : Document) (config : Config) (free n : Nat) : List Bytes → List Span
  | [] => []
  | line :: lines =>
    if free ≤ n ∧ config.shapes.accepts line then
      let call := callAt document config.limits n free
      call :: callsFrom document config (call.stop.line + 1) (n + 1) lines
    else callsFrom document config free (n + 1) lines

/-- The calls with templates in a document, from top to bottom. -/
def calls (document : Document) (config : Config) : List Span :=
  callsFrom document config 0 0 document.lines

end LogMarkup
