import LogMarkup.Proofs.Call.Join
import LogMarkup.Proofs.Highlight.Selection

/-!
# `LogMarkup.Proofs.Highlight.Join` — the templates of two documents with an empty line between them

The templates of a call depend on nothing but the lines of the call. So what is true of the calls of joined
documents is true of their templates: the two documents are analysed independently of each other.

## Contents
- **Moving down.** `PlacedTemplate.moveDown` and `CallText.moveDown`, with `CallText.select?_moveDown` and
  `CallText.place_moveDown`.
- **One call.** `CallText.templates_join_above` and `CallText.templates_join_below`.
- **Documents.** `highlight_join` — the calls and the templates of the joined document are those of the
  upper one and those of the lower one, further down.
-/

namespace LogMarkup

open Ascii

/-! ## Moving down -/

/-- The region that is a number of lines further down. -/
def PlacedRegion.moveDown (lines : Nat) (region : PlacedRegion) : PlacedRegion :=
  ⟨region.classification, region.span.moveDown lines⟩

/-- The same template, a number of lines further down. -/
def PlacedTemplate.moveDown (lines : Nat) (template : PlacedTemplate) : PlacedTemplate :=
  { template with
    span := template.span.moveDown lines
    regions := template.regions.map (PlacedRegion.moveDown lines) }

namespace CallText

/-- The same lines of a call, further down. -/
def moveDown (lines : Nat) (text : CallText) : CallText :=
  ⟨text.window.moveDown lines, text.literals⟩

theorem select?_moveDown (lines : Nat) (text : CallText) (shapes : Shapes) (n : Nat) (line : Bytes) :
    (text.moveDown lines).select? shapes (n + lines) line = text.select? shapes n line := by
  have hstart : (text.moveDown lines).window.lineStart? (n + lines) = text.window.lineStart? n :=
    Window.lineStart?_moveDown lines text.window n
  unfold select?
  rw [hstart]
  rfl

theorem place_moveDown (lines : Nat) (text : CallText) (flavor : Flavor) (literal : Literal) :
    (text.moveDown lines).place flavor literal = (text.place flavor literal).moveDown lines := by
  simp only [place, PlacedTemplate.moveDown, moveDown, Window.span_moveDown, List.map_map]
  rfl

/-! ## One call -/

section

variable {upper lower : Document} {config : Config} {call : Span}

/-- A call of the upper document has the same templates in the joined one. -/
theorem templates_join_above (lower : Document) (hstart : call.start.line ≤ call.stop.line)
    (hstop : call.stop.line < upper.lineCount) :
    templates (upper.join lower) config call = templates upper config call := by
  have hfirst : call.start.line < min (call.stop.line + 1) upper.lineCount := by omega
  have htext : CallText.of (upper.join lower) call = CallText.of upper call := by
    have hwindow := Window.of_join_above lower hfirst
    rw [Nat.min_eq_left hstop] at hwindow
    rw [CallText.of, hwindow]
    rfl
  have hselections : selections (upper.join lower) config call = selections upper config call := by
    apply List.filterMap_congr
    intro n hn
    rw [List.mem_range'_1] at hn
    rw [htext, Document.line_join_above lower (by omega)]
  rw [templates_eq, templates_eq, hselections, htext]

/-- A call of the lower document has the same templates in the joined one, further down. -/
theorem templates_join_below (upper lower : Document) (config : Config) (call : Span) :
    templates (upper.join lower) config (call.moveDown (upper.lineCount + 1))
      = (templates lower config call).map (PlacedTemplate.moveDown (upper.lineCount + 1)) := by
  have htext : CallText.of (upper.join lower) (call.moveDown (upper.lineCount + 1))
      = (CallText.of lower call).moveDown (upper.lineCount + 1) := by
    have hwindow := Window.of_join_below upper lower call.start.line (call.stop.line + 1)
    rw [Nat.add_right_comm] at hwindow
    simp only [CallText.of, Span.moveDown, Position.moveDown, hwindow]
    rfl
  have hselections : selections (upper.join lower) config (call.moveDown (upper.lineCount + 1))
      = selections lower config call := by
    have hcount : call.stop.line + (upper.lineCount + 1) + 1 - (call.start.line + (upper.lineCount + 1))
        = call.stop.line + 1 - call.start.line := by omega
    unfold selections
    rw [htext]
    simp only [Span.moveDown, Position.moveDown, hcount]
    rw [Nat.add_comm call.start.line, ← List.map_add_range', List.filterMap_map]
    apply List.filterMap_congr
    intro n _
    simp only [Function.comp_apply]
    rw [Nat.add_comm _ n, Document.line_join_below]
    exact select?_moveDown _ _ _ _ _
  rw [templates_eq, templates_eq, hselections, htext, List.map_map]
  apply List.map_congr_left
  intro selection _
  exact place_moveDown _ _ _ _

end

end CallText

/-! ## Documents -/

/-- **Documents with an empty line between them are analysed independently of each other.** The calls and the
    templates of the joined document are those of the upper one and, further down, those of the lower one, if
    every call of the upper document found its end and the lower one does not start with a semicolon. -/
theorem highlight_join {upper lower : Document} {config : Config}
    (hlimits : config.limits.check = .ok config.limits)
    (hempty : config.shapes.accepts [] = false)
    (hclosed : ∀ call ∈ calls upper config, call.IsClosed upper config)
    (hlower : firstMark? lower.lines ≠ some semicolon) :
    calls (upper.join lower) config
        = calls upper config ++ (calls lower config).map (Span.moveDown (upper.lineCount + 1)) ∧
      highlight (upper.join lower) config
        = highlight upper config
          ++ (highlight lower config).map (PlacedTemplate.moveDown (upper.lineCount + 1)) := by
  have hlines : 0 < config.limits.callLines := (Limits.check_eq_ok_iff.mp hlimits).2 .callLines
  have hcalls := calls_join hlines hempty hclosed hlower
  refine ⟨hcalls, ?_⟩
  have habove : (calls upper config).flatMap (CallText.templates (upper.join lower) config)
      = highlight upper config := by
    apply List.flatMap_congr
    intro call hcall
    obtain ⟨hstart, hstop⟩ := lines_of_mem_calls hcall
    exact CallText.templates_join_above lower hstart hstop
  have hbelow : ((calls lower config).map (Span.moveDown (upper.lineCount + 1))).flatMap
        (CallText.templates (upper.join lower) config)
      = (highlight lower config).map (PlacedTemplate.moveDown (upper.lineCount + 1)) := by
    rw [List.flatMap_map, highlight, List.map_flatMap]
    apply List.flatMap_congr
    intro call _
    exact CallText.templates_join_below upper lower config call
  rw [highlight, hcalls, List.flatMap_append, habove, hbelow]

/-- A call without a semicolon, and below it a call on two lines. -/
theorem highlight_join_chained :
    ∃ upper lower : Document, upper = ⟨[Bytes.ofString "f.Debug(\"\x7bA\x7d\")"]⟩ ∧
      lower = ⟨[Bytes.ofString "g", Bytes.ofString ".Debug(\"\x7bB\x7d\");"]⟩ ∧
      ({} : Config).limits.check = .ok ({} : Config).limits ∧
      ({} : Config).shapes.accepts [] = false ∧
      (∀ call ∈ calls upper {}, call.IsClosed upper {}) ∧
      firstMark? lower.lines ≠ some semicolon ∧
      calls (upper.join lower) {} = [⟨⟨0, 0⟩, ⟨0, 14⟩⟩, ⟨⟨2, 0⟩, ⟨3, 14⟩⟩] ∧
      (highlight (upper.join lower) {}).map PlacedTemplate.span
        = [⟨⟨0, 8⟩, ⟨0, 13⟩⟩, ⟨⟨3, 7⟩, ⟨3, 12⟩⟩] := by
  refine ⟨_, _, rfl, rfl, ?_⟩
  have hlimits : ({} : Config).limits.check = .ok ({} : Config).limits := rfl
  have hempty : ({} : Config).shapes.accepts [] = false := by decide +kernel
  have hclosed : ∀ call ∈ calls ⟨[Bytes.ofString "f.Debug(\"\x7bA\x7d\")"]⟩ {},
      call.IsClosed ⟨[Bytes.ofString "f.Debug(\"\x7bA\x7d\")"]⟩ {} := by
    have hcalls : calls ⟨[Bytes.ofString "f.Debug(\"\x7bA\x7d\")"]⟩ {} = [⟨⟨0, 0⟩, ⟨0, 14⟩⟩] := by
      decide +kernel
    rw [hcalls]
    intro call hcall trigger floor heq haround
    obtain rfl := List.mem_singleton.mp hcall
    obtain rfl : trigger = 0 := Nat.le_zero.mp haround.le_stop
    rw [callOrigin, callWindow_eq heq]
    decide +kernel
  have hlower : firstMark? (Document.mk
      [Bytes.ofString "g", Bytes.ofString ".Debug(\"\x7bB\x7d\");"]).lines ≠ some semicolon := by
    decide
  obtain ⟨hcalls, hhighlight⟩ := highlight_join hlimits hempty hclosed hlower
  refine ⟨hlimits, hempty, hclosed, hlower, ?_, ?_⟩
  · rw [hcalls]
    decide +kernel
  · rw [hhighlight]
    decide +kernel

end LogMarkup
