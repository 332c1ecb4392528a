import LogMarkup.Proofs.Call.Walk
import LogMarkup.Proofs.Highlight.Placement
import LogMarkup.Proofs.Source.Prefix

/-!
# `LogMarkup.Proofs.Highlight.Call` — templates and the calls that they were found in

The literals of a call are those of its lines. Its first line is its own from its first mark on, so that
no template starts in front of the call. But its last line may go on behind it, with code that has
strings, too, and these are taken for strings of the call.

Where the lines of a call have neither comments nor character literals, the walk that finds the end of the
call steps over the same literals that the highlighter sees. Then every literal that starts in the call
ends in it, and what is left is whether a string starts behind it.

## Contents
- **Both walks.** `balance_literal_lt`, for literals in front of the parenthesis that ends a call, and
  `callEnd?_literal_le`, with the semicolon.
- **One call.** `Span.IsPlainCode`, and `exists_stop_of_mem_calls` for the literals in its lines.
- **Documents.** `highlight_in_call` — how far templates keep to their calls — and
  `highlight_behind_call`, where one does not.
-/

namespace LogMarkup

open Ascii

/-! ## Both walks -/

/-- **The walk over the items of a call steps over the same literals as the search for them**, as long as it
    meets neither an apostrophe nor a slash. -/
theorem balance_literal_lt {whole text : Bytes} {trigger opened closed start stop : Nat}
    (htext : whole.drop start = text) (h : balance trigger opened closed start text = some stop)
    (hplain : ∀ offset < stop, whole[offset]? ≠ some apostrophe ∧ whole[offset]? ≠ some slash) :
    ∀ literal ∈ Literal.allFrom start text, literal.start < stop → literal.stop < stop := by
  intro literal hmem hlt
  have hfront : ∀ other, balance trigger opened closed start text = some other →
      literal.start < other := by
    intro other hother
    rwa [← Option.some.inj (h.symm.trans hother)]
  rcases mem_walk_or_isMisled htext hmem hfront with hentered | ⟨placed, hplaced, _, -, hhides, -⟩
  · rcases stop_lt_of_mem_walk h hentered with hstop | ⟨-, hitem⟩
    · exact hstop
    · exact absurd hitem (by simp)
  · -- A comment or a character literal starts with a slash or an apostrophe.
    obtain ⟨b, rest, hrest, hitem⟩ := exists_first_of_mem_walk htext hplaced
    have hstop : placed.stop ≤ stop := by
      rcases stop_lt_of_mem_walk h hplaced with hstop | ⟨hstop, -⟩
      · exact Nat.le_of_lt hstop
      · exact Nat.le_of_eq hstop
    have hstart := (hhides.start_lt.trans hhides.lt_stop).trans_le hstop
    obtain ⟨hapostrophe, hslash⟩ := hplain placed.start hstart
    rw [Bytes.getElem?_of_drop_eq_cons hrest] at hapostrophe hslash
    rcases hhides.head_eq hitem with rfl | rfl
    · exact absurd rfl hapostrophe
    · exact absurd rfl hslash

/-- A literal starts with a byte that is neither blank nor a semicolon. -/
theorem Literal.getElem?_start_ne {text : Bytes} {literal : Literal} {b : UInt8}
    (h : literal ∈ all text) (hb : text[literal.start]? = some b) :
    isSpace b = false ∧ b ≠ semicolon := by
  obtain ⟨c, hc, hsign⟩ := getElem?_start (at?_of_mem_allFrom rfl h).2
  obtain rfl := Option.some.inj (hb.symm.trans hc)
  rcases hsign with rfl | rfl | rfl <;> decide

/-- What is between the parenthesis and the semicolon behind it is blank. -/
theorem withSemicolon_blank {text : Bytes} {offset place : Nat} (hlow : offset ≤ place)
    (hhigh : place < withSemicolon text offset) :
    ∃ b, text[place]? = some b ∧ (isSpace b = true ∨ b = semicolon) := by
  unfold withSemicolon at hhigh
  extract_lets behind at hhigh
  split at hhigh
  · next hhead =>
      obtain ⟨k, rfl⟩ := Nat.exists_eq_add_of_le hlow
      have hk : k < (behind.takeWhile isSpace).length + 1 := by omega
      have hget : text[offset + k]? = behind[k]? := Bytes.getElem?_of_drop_eq rfl k
      rw [hget]
      rcases Nat.lt_or_eq_of_le (Nat.le_of_lt_succ hk) with hlt | rfl
      · have hblank := (Bytes.length_takeWhile_eq_iff.mp rfl).1 k hlt
        cases hb : behind[k]? with
        | none =>
            rw [hb] at hblank
            exact absurd hblank (by simp)
        | some b =>
            rw [hb] at hblank
            exact ⟨b, rfl, .inl hblank⟩
      · refine ⟨semicolon, ?_, .inr rfl⟩
        rw [← List.head?_drop, Bytes.drop_length_takeWhile]
        exact hhead
  · omega

/-- A literal in front of the semicolon stands in front of the parenthesis. -/
theorem Literal.start_lt_of_withSemicolon {text : Bytes} {trigger middle : Nat} {literal : Literal}
    (hmem : literal ∈ all text) (hbalance : balance trigger 0 0 0 text = some middle)
    (hstart : literal.start < withSemicolon text middle) : literal.start < middle := by
  obtain ⟨offset, -, -, rfl⟩ := exists_of_balance rfl hbalance
  by_contra hbehind
  obtain ⟨b, hb, hblank⟩ := withSemicolon_blank (Nat.le_of_not_lt hbehind) hstart
  obtain ⟨hspace, hsemicolon⟩ := getElem?_start_ne hmem hb
  rcases hblank with hblank | hblank
  · rw [hspace] at hblank
    exact absurd hblank (by simp)
  · exact hsemicolon hblank

/-- **A literal that starts in a call ends in it**, where the call has neither comments nor character
    literals. -/
theorem callEnd?_literal_le {text : Bytes} {trigger stop : Nat} {literal : Literal}
    (h : callEnd? text trigger = some stop)
    (hplain : ∀ offset < stop, text[offset]? ≠ some apostrophe ∧ text[offset]? ≠ some slash)
    (hmem : literal ∈ Literal.all text) (hstart : literal.start < stop) : literal.stop ≤ stop := by
  obtain ⟨middle, hbalance, rfl⟩ := Option.map_eq_some_iff.mp h
  have hmiddle := Literal.start_lt_of_withSemicolon hmem hbalance hstart
  obtain ⟨offset, -, hget, rfl⟩ := exists_of_balance rfl hbalance
  have hlt : offset < text.length := (List.getElem?_eq_some_iff.mp hget).1
  have hle := (withSemicolon_bounds hlt).1
  have hbefore := balance_literal_lt rfl hbalance
    (fun place hplace => hplain place (Nat.lt_of_lt_of_le hplace hle)) literal hmem hmiddle
  exact (Nat.le_of_lt hbefore).trans hle

/-! ## One call -/

/-- The lines of a call are code in which only string literals have quotes, and no quote stands behind the
    call. -/
structure Span.IsPlainCode (document : Document) (call : Span) : Prop where
  ne_of_mem_line : ∀ n, call.start.line ≤ n → n ≤ call.stop.line →
    ∀ b ∈ document.line n, b ≠ apostrophe ∧ b ≠ slash
  ne_quote : ∀ b ∈ (document.line call.stop.line).drop call.stop.column, b ≠ quote

/-- A literal has a quote. -/
theorem Literal.exists_quote {text : Bytes} {literal : Literal} (h : literal ∈ all text) :
    ∃ offset, literal.start ≤ offset ∧ text[offset]? = some quote := by
  obtain ⟨front, hfront⟩ := literal.opener.exists_text_eq_append_quote
  refine ⟨literal.start + front.length, Nat.le_add_right _ _, ?_⟩
  refine getElem?_opener (at?_of_mem_allFrom rfl h).2 ?_
  rw [hfront, List.getElem?_append_right (Nat.le_refl _), Nat.sub_self]
  rfl

section

variable {document : Document} {call : Span} {last stop : Nat}

/-- A mark in front of the end of a call stands on one of its lines. -/
theorem Span.IsPlainCode.getElem?_ne (h : call.IsPlainCode document)
    (hfirst : call.start.line < min last document.lineCount)
    (hlength : stop ≤ (Window.of document call.start.line last).text.length)
    (hstop : (Window.of document call.start.line last).position stop = call.stop) :
    ∀ offset < stop,
      (Window.of document call.start.line last).text[offset]? ≠ some apostrophe ∧
      (Window.of document call.start.line last).text[offset]? ≠ some slash := by
  intro offset hlt
  have hwithin := (Nat.le_of_lt hlt).trans hlength
  have horder := (Window.position_le_iff hfirst hwithin hlength).mpr (Nat.le_of_lt hlt)
  rw [hstop] at horder
  obtain ⟨hfloor, -, -⟩ := Window.position_of hfirst hwithin
  have hline := h.ne_of_mem_line _ hfloor (Position.line_le horder)
  refine ⟨?_, ?_⟩
  · intro hget
    have hmark := (Window.getElem?_position hfirst hget (by decide)).1
    exact (hline _ (List.mem_of_getElem? hmark)).1 rfl
  · intro hget
    have hmark := (Window.getElem?_position hfirst hget (by decide)).1
    exact (hline _ (List.mem_of_getElem? hmark)).2 rfl

/-- No literal of the lines of a call starts behind it. -/
theorem Span.IsPlainCode.start_lt (h : call.IsPlainCode document)
    (hfirst : call.start.line < min (call.stop.line + 1) document.lineCount)
    (hlength : stop ≤ (CallText.of document call).window.text.length)
    (hstop : (CallText.of document call).window.position stop = call.stop) {literal : Literal}
    (hmem : literal ∈ Literal.all (CallText.of document call).window.text) :
    literal.start < stop := by
  by_contra hbehind
  obtain ⟨offset, hle, hget⟩ := Literal.exists_quote hmem
  have hlt : offset < (CallText.of document call).window.text.length :=
    (List.getElem?_eq_some_iff.mp hget).1
  have hafter := (Window.position_le_iff hfirst hlength (Nat.le_of_lt hlt)).mpr
    ((Nat.le_of_not_lt hbehind).trans hle)
  obtain ⟨-, hbelow, -⟩ := Window.position_of hfirst (Nat.le_of_lt hlt)
  obtain ⟨hmark, -⟩ := Window.getElem?_position hfirst hget (by decide)
  generalize (Window.of document call.start.line (call.stop.line + 1)).position offset = place at *
  have hposition : call.stop ≤ place := hstop ▸ hafter
  -- The quote is on the last line, at or behind the end of the call.
  obtain ⟨hline, hcolumn⟩ : place.line = call.stop.line ∧ call.stop.column ≤ place.column := by
    have hlast := (Nat.lt_min.mp hbelow).1
    rcases hposition with hlt' | ⟨heq, hcolumn⟩
    · omega
    · exact ⟨heq.symm, hcolumn⟩
  refine h.ne_quote quote ?_ rfl
  obtain ⟨k, hk⟩ := Nat.exists_eq_add_of_le hcolumn
  rw [hline, hk, ← List.getElem?_drop] at hmark
  exact List.mem_of_getElem? hmark

/-- **The end of a call is the place of an offset in its lines**, and all literals in them end in front of
    it if the call is plain code. -/
theorem exists_stop_of_mem_calls {config : Config} (hlines : 0 < config.limits.callLines)
    (hcall : call ∈ calls document config) :
    ∃ stop ≤ (CallText.of document call).window.text.length,
      (CallText.of document call).window.position stop = call.stop ∧
      (call.IsPlainCode document →
        ∀ literal ∈ Literal.all (CallText.of document call).window.text, literal.stop ≤ stop) := by
  obtain ⟨hstart, hbelow⟩ := lines_of_mem_calls hcall
  obtain ⟨trigger, floor, -, heq, haround⟩ :=
    (coversFrom_calls document hlines).exists_callAt call hcall
  have hfirst := CallText.firstLine_lt hstart hbelow
  have hle : call.stop.line + 1 ≤ trigger + config.limits.callLines := haround.stop_lt
  have hfirst' := Window.first_lt_of_le hfirst hle
  have hlength := callStop_le document config.limits trigger floor
  have hstop := position_callStop heq
  have hend := callStop_cases document config.limits trigger floor
  rw [callWindow_eq heq] at hlength hstop hend
  generalize callStop document config.limits trigger floor = stop at hlength hstop hend
  have hline : ((Window.of document call.start.line (trigger + config.limits.callLines)).position
      stop).line < call.stop.line + 1 := hstop ▸ Nat.lt_succ_self _
  have hwithin := Window.le_length_of_line_lt hfirst hle hlength hline
  have hposition := (Window.position_eq hfirst hfirst' hwithin hlength).trans hstop
  obtain ⟨behind, hbehind, htext⟩ := Window.exists_text_eq_append hfirst hle
  refine ⟨stop, hwithin, hposition, ?_⟩
  intro hplain literal hmem
  rcases hend with hall | hend
  · -- The call goes on to the end of all lines that it may take.
    rw [hall, htext, List.length_append]
    exact (literal.stop_le_length hmem).trans (Nat.le_add_right _ _)
  · have hbefore := hplain.start_lt hfirst hwithin hposition hmem
    obtain ⟨long, hlong, hextends⟩ := Literal.exists_extends hbehind hmem
    have hwalk := callEnd?_literal_le hend (hplain.getElem?_ne hfirst' hlength hstop)
      (htext ▸ hlong) (hextends.start_eq ▸ hbefore)
    by_cases hsame : long = literal
    · exact hsame ▸ hwalk
    · -- A literal that is cut off goes on to the end of the last line.
      obtain ⟨hlimit, hlimitLe⟩ := hextends.limit_le_stop hsame
      rw [hlimit]
      exact hlimitLe.trans hwalk

end

/-! ## Documents -/

/-- **Templates keep to their calls as far as plain code does.** A template does not start in front of the
    call that it was found in, nor does it end below the last line of the call. It ends in the call if
    this is plain code. -/
theorem highlight_in_call (document : Document) {config : Config}
    (hlimits : config.limits.check = .ok config.limits) {template : PlacedTemplate}
    (htemplate : template ∈ highlight document config) :
    ∃ call ∈ calls document config,
      call.start ≤ template.span.start ∧
      template.span.stop ≤ ⟨call.stop.line, (document.line call.stop.line).length⟩ ∧
      (call.IsPlainCode document → template.span.stop ≤ call.stop) := by
  have hlines : 0 < config.limits.callLines := (Limits.check_eq_ok_iff.mp hlimits).2 .callLines
  obtain ⟨call, hcall, hin⟩ := List.mem_flatMap.mp htemplate
  obtain ⟨hstart, hbelow⟩ := (calls_lines document hlines).2 call hcall
  obtain ⟨literal, hstands⟩ := CallText.exists_standsFor hstart hbelow hin
  obtain ⟨stop, hwithin, hstop, hplain⟩ := exists_stop_of_mem_calls hlines hcall
  have hfirst := CallText.firstLine_lt hstart hbelow
  have hlength := literal.stop_le_length hstands.mem_literals
  have hspan : template.span = (CallText.of document call).window.span literal.start literal.stop := by
    rw [hstands.eq_place]
    rfl
  rw [hspan]
  refine ⟨call, hcall, ?_, ?_, ?_⟩
  · -- A call starts with the first mark of its first line, and a literal starts with a mark.
    obtain ⟨b, hget, hsign⟩ := Literal.getElem?_start
      (Literal.at?_of_mem_allFrom rfl hstands.mem_literals).2
    have hcovers : CoversFrom document config 0 0 (calls document config) :=
      callsFrom_covers hlines rfl (by simp)
    obtain ⟨trigger, floor, -, heq, -⟩ := hcovers.exists_callAt call hcall
    have hindented : call.start
        = ⟨call.start.line, (document.line call.start.line).indentation⟩ := by
      rw [heq]
      rfl
    rw [hindented]
    rcases hsign with rfl | rfl | rfl <;>
      exact indented_le_position hfirst hget (by decide) (by decide) (by decide)
  · obtain ⟨-, hline, hcolumn⟩ := Window.position_of hfirst hlength
    rcases Nat.lt_or_eq_of_le (Nat.le_of_lt_succ (Nat.lt_min.mp hline).1) with hlt | heq
    · exact .inl hlt
    · refine .inr ⟨heq, ?_⟩
      rw [heq] at hcolumn
      exact hcolumn
  · intro hcode
    rw [← hstop]
    exact (Window.position_le_iff hfirst hlength hwithin).mpr
      (hplain hcode literal hstands.mem_literals)

/-- A template in the parentheses of its call. -/
theorem highlight_in_call_plain :
    ∃ document : Document, document = ⟨[Bytes.ofString "f.Debug(\"a\");"]⟩ ∧
      ({} : Config).limits.check = .ok ({} : Config).limits ∧
      ∃ template ∈ highlight document {}, template.content = Bytes.ofString "a" ∧
        ∃ call ∈ calls document {}, call.IsPlainCode document ∧
          call.start ≤ template.span.start ∧ template.span.stop ≤ call.stop := by
  refine ⟨_, rfl, ?_⟩
  have hlimits : ({} : Config).limits.check = .ok ({} : Config).limits := rfl
  have hmem : (⟨.message, .regular, ⟨⟨0, 8⟩, ⟨0, 11⟩⟩, Bytes.ofString "a", []⟩ : PlacedTemplate)
      ∈ highlight ⟨[Bytes.ofString "f.Debug(\"a\");"]⟩ {} := by decide +kernel
  have hcalls : calls ⟨[Bytes.ofString "f.Debug(\"a\");"]⟩ {} = [⟨⟨0, 0⟩, ⟨0, 13⟩⟩] := by
    decide +kernel
  obtain ⟨call, hcall, hstart, -, hstop⟩ := highlight_in_call _ hlimits hmem
  obtain rfl := List.mem_singleton.mp (hcalls ▸ hcall)
  have hplain : Span.IsPlainCode ⟨[Bytes.ofString "f.Debug(\"a\");"]⟩ ⟨⟨0, 0⟩, ⟨0, 13⟩⟩ := by
    refine ⟨?_, by decide +kernel⟩
    intro n _ hle
    obtain rfl : n = 0 := Nat.le_zero.mp hle
    decide +kernel
  exact ⟨hlimits, _, hmem, rfl, _, hcall, hplain, hstart, hstop hplain⟩

/-- A call without a string takes the string of the next statement on its line for its template. -/
theorem highlight_behind_call :
    ∃ document : Document, document = ⟨[Bytes.ofString "f.Debug(x); g(\"\x7bA\x7d\");"]⟩ ∧
      ∃ template ∈ highlight document {}, ∀ call ∈ calls document {},
        ¬ (call.start ≤ template.span.start ∧ template.span.stop ≤ call.stop) := by
  refine ⟨_, rfl, ⟨.message, .regular, ⟨⟨0, 14⟩, ⟨0, 19⟩⟩, Bytes.ofString "\x7bA\x7d",
    [⟨.brace, ⟨⟨0, 15⟩, ⟨0, 16⟩⟩⟩, ⟨.property, ⟨⟨0, 16⟩, ⟨0, 17⟩⟩⟩,
      ⟨.brace, ⟨⟨0, 17⟩, ⟨0, 18⟩⟩⟩]⟩, ?_, ?_⟩
  · decide +kernel
  · decide +kernel

end LogMarkup
