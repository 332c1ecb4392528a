import LogMarkup.Proofs.Highlight.Call

/-!
# `LogMarkup.Proofs.Highlight.Walk` — templates and the strings that end up in the extent of a call

The extent of a call and the templates in it come from two searches over the same lines. The walk to the
end of the call tells strings from comments and character literals. The search for the template's literal
tells strings from everything else, so that to it a quote in a comment or in a character literal starts a
string, too.

Where both start on the same line, the one reads fewer lines than the other, which makes no difference for
where a literal starts. So what is true of both in one text is true of the templates of a call.

## Contents
- **Both searches.** `exists_mem_callWindow`, for the literals that both see.
- **Documents.** `highlight_enters_literal` — the walk enters the literal of a template in front of the end
  of its call, unless a quote in a comment or in a character literal has misled the search — and
  `highlight_in_character`, where it has.
-/

namespace LogMarkup

/-! ## Both searches -/

section

variable {document : Document} {config : Config} {call : Span} {trigger floor : Nat}

variable (heq : call = callAt document config.limits trigger floor)
  (haround : call.IsAround document config trigger)
  (hfirst : call.start.line < min (call.stop.line + 1) document.lineCount)

include heq haround hfirst

/-- Both searches see a literal of a call at the same place, as far as its start is concerned. -/
theorem exists_mem_callWindow {literal : Literal}
    (hmem : literal ∈ Literal.all (CallText.of document call).window.text) :
    ∃ long ∈ Literal.all (callWindow document config.limits trigger floor).text,
      (callWindow document config.limits trigger floor).position long.start
        = (CallText.of document call).window.position literal.start := by
  have hle : call.stop.line + 1 ≤ trigger + config.limits.callLines := haround.stop_lt
  have hstart : literal.start ≤ (Window.of document call.start.line (call.stop.line + 1)).text.length :=
    (Nat.le_add_right _ _).trans (literal.stop_le_length hmem)
  obtain ⟨behind, hbehind, htext⟩ := Window.exists_text_eq_append hfirst hle
  obtain ⟨long, hlong, hextends⟩ := Literal.exists_extends hbehind hmem
  rw [callWindow_eq heq, htext]
  refine ⟨long, hlong, ?_⟩
  rw [hextends.start_eq]
  exact Window.position_eq_of_le hfirst hle hstart

end

/-! ## Documents -/

/-- **The highlighter and the search for the end of a call agree on where strings are**, unless a comment or
    a character literal has a quote. A template that starts in front of the end of its call starts where the
    walk to that end enters a string literal, and so in no comment and in no character literal, or the search
    for literals was misled there or further up: it has found a literal that starts inside of a comment or a
    character literal. -/
theorem highlight_enters_literal {document : Document} {config : Config} {call : Span}
    {template : PlacedTemplate} (hlimits : config.limits.check = .ok config.limits)
    (hcall : call ∈ calls document config)
    (htemplate : template ∈ CallText.templates document config call) :
    ∃ trigger floor, call = callAt document config.limits trigger floor ∧
      call.IsAround document config trigger ∧
      let window := callWindow document config.limits trigger floor
      let walked := callWalk document config.limits trigger floor
      ∃ offset ≤ window.text.length, window.position offset = template.span.start ∧
        (template.span.start < call.stop →
          ((∃ placed ∈ walked, placed.item.kind = .literal ∧ placed.start = offset) ∧
              ∀ placed ∈ walked, ¬ placed.Hides offset) ∨
            IsMisled walked (Literal.all window.text) offset) := by
  have hlines : 0 < config.limits.callLines := (Limits.check_eq_ok_iff.mp hlimits).2 .callLines
  obtain ⟨trigger, floor, -, heq, haround⟩ :=
    (coversFrom_calls document hlines).exists_callAt call hcall
  obtain ⟨hstart, hbelow⟩ := lines_of_mem_calls hcall
  have hfirst := CallText.firstLine_lt hstart hbelow
  obtain ⟨literal, hstands⟩ := CallText.exists_standsFor hstart hbelow htemplate
  obtain ⟨long, hlong, hposition⟩ :=
    exists_mem_callWindow heq haround hfirst hstands.mem_literals
  have hlength : long.start ≤ (callWindow document config.limits trigger floor).text.length :=
    (Nat.le_add_right _ _).trans (long.stop_le_length hlong)
  have hspan : (callWindow document config.limits trigger floor).position long.start
      = template.span.start := by
    rw [hposition, hstands.eq_place]
    rfl
  refine ⟨trigger, floor, heq, haround, long.start, hlength, hspan, ?_⟩
  intro hlt
  -- Positions of the window are ordered like their offsets.
  have hfront : long.start < callStop document config.limits trigger floor := by
    have hstopLe := callStop_le document config.limits trigger floor
    rw [← hspan, ← position_callStop heq] at hlt
    rw [callWindow_eq heq] at hlt hlength hstopLe
    exact (Window.position_lt_iff (Window.first_lt_of_le hfirst haround.stop_lt) hlength hstopLe).mp hlt
  refine (mem_walk_or_isMisled rfl hlong ?_).imp_left ?_
  · intro middle hbalance
    rw [callStop_of_balance hbalance] at hfront
    exact Literal.start_lt_of_withSemicolon hlong hbalance hfront
  · intro hentered
    exact ⟨⟨_, hentered, rfl, rfl⟩, fun _ => not_hides_of_mem_walk hentered⟩

/-- A template behind a character literal and in front of a comment. -/
theorem highlight_enters_literal_mixed :
    ∃ document : Document,
      document = ⟨[Bytes.ofString "f.Debug('a',", Bytes.ofString "\"b\"); // \"c\""]⟩ ∧
      ({} : Config).limits.check = .ok ({} : Config).limits ∧
      ∃ call ∈ calls document {}, ∃ template ∈ CallText.templates document {} call,
        template.span.start < call.stop ∧
        ∃ trigger floor, call = callAt document ({} : Config).limits trigger floor ∧
          ∃ offset,
            (callWindow document ({} : Config).limits trigger floor).position offset
              = template.span.start ∧
            (((∃ placed ∈ callWalk document ({} : Config).limits trigger floor,
                  placed.item.kind = .literal ∧ placed.start = offset) ∧
                ∀ placed ∈ callWalk document ({} : Config).limits trigger floor,
                  ¬ placed.Hides offset) ∨
              IsMisled (callWalk document ({} : Config).limits trigger floor)
                (Literal.all (callWindow document ({} : Config).limits trigger floor).text)
                offset) := by
  refine ⟨_, rfl, ?_⟩
  have hlimits : ({} : Config).limits.check = .ok ({} : Config).limits := rfl
  have hcall : ⟨⟨0, 0⟩, ⟨1, 5⟩⟩
      ∈ calls ⟨[Bytes.ofString "f.Debug('a',", Bytes.ofString "\"b\"); // \"c\""]⟩ {} := by
    decide +kernel
  have htemplate : (⟨.message, .regular, ⟨⟨1, 0⟩, ⟨1, 3⟩⟩, Bytes.ofString "b", []⟩ : PlacedTemplate)
      ∈ CallText.templates
          ⟨[Bytes.ofString "f.Debug('a',", Bytes.ofString "\"b\"); // \"c\""]⟩ {}
          ⟨⟨0, 0⟩, ⟨1, 5⟩⟩ := by decide +kernel
  have hlt : (⟨1, 0⟩ : Position) < ⟨1, 5⟩ := by decide
  obtain ⟨trigger, floor, heq, -, offset, -, hposition, hall⟩ :=
    highlight_enters_literal hlimits hcall htemplate
  exact ⟨hlimits, _, hcall, _, htemplate, hlt, trigger, floor, heq, offset, hposition, hall hlt⟩

/-- A quote in a character literal is taken for a string and becomes a template, although the walk to the
    end of the call enters no string at all. -/
theorem highlight_in_character :
    ∃ document : Document, document = ⟨[Bytes.ofString "f.Debug('\"');"]⟩ ∧
      ∃ call ∈ calls document {}, ∃ template ∈ CallText.templates document {} call,
        template.span.start < call.stop ∧
        ∀ trigger floor, call = callAt document ({} : Config).limits trigger floor →
          call.IsAround document {} trigger →
          (∀ placed ∈ callWalk document ({} : Config).limits trigger floor,
            placed.item.kind ≠ .literal) ∧
          ∃ placed ∈ callWalk document ({} : Config).limits trigger floor,
            placed.item.kind = .character ∧
            (callWindow document ({} : Config).limits trigger floor).position placed.start
              < template.span.start ∧
            template.span.start
              < (callWindow document ({} : Config).limits trigger floor).position placed.stop := by
  refine ⟨_, rfl, ⟨⟨0, 0⟩, ⟨0, 13⟩⟩, by decide +kernel,
    ⟨.message, .regular, ⟨⟨0, 9⟩, ⟨0, 13⟩⟩, Bytes.ofString "');", []⟩, by decide +kernel,
    by decide, ?_⟩
  intro trigger floor _ haround
  -- A call that starts on the first line does not climb, whatever its floor is.
  obtain rfl : trigger = 0 := Nat.le_zero.mp haround.le_stop
  have hwalk : callWalk ⟨[Bytes.ofString "f.Debug('\"');"]⟩ ({} : Config).limits 0 floor
      = callWalk ⟨[Bytes.ofString "f.Debug('\"');"]⟩ ({} : Config).limits 0 0 := rfl
  have hwindow : callWindow ⟨[Bytes.ofString "f.Debug('\"');"]⟩ ({} : Config).limits 0 floor
      = callWindow ⟨[Bytes.ofString "f.Debug('\"');"]⟩ ({} : Config).limits 0 0 := rfl
  rw [hwalk, hwindow]
  decide +kernel

end LogMarkup
