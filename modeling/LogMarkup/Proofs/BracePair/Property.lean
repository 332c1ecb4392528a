import LogMarkup.Proofs.BracePair.Hole
import LogMarkup.Proofs.BracePair.Window
import LogMarkup.Proofs.Highlight.Placement

/-!
# `LogMarkup.Proofs.BracePair.Property` — the braces of highlighted properties

The templates of a document are found call by call, from the top of the document to its end. A pair of
braces is looked for from a single line, in a window of its own that starts where a call seems to start.
If this is where the call of the template starts, both read the same text from there on, up to the end of
the shorter window. A literal may be cut off there, but not in front of the properties in it.

The two differ where a line inside of a string looks like a call itself. Then the window starts in the
middle of the string, and the string is not seen as one.

## Contents
- **Contents.** `Property.isBracePair`.
- **The base.** `braceBase_eq`, for windows that start with a call.
- **Agreement.** `bracePairAt?_of_mem_templates` — a pair is found at the opening brace of a property,
  and it is the property's own — and `bracePairAt?_eq_none_of_dotted_line`, where it is not found.
-/

namespace LogMarkup

open Ascii

/-! ## Contents -/

/-- **The two braces of a property are a pair**, if no other brace opens between them. -/
theorem Property.isBracePair {content : Bytes} {property : Property} {distance : Nat}
    (h : property ∈ all content)
    (hopen : ∀ offset, property.start < offset → offset < property.stop - 1 →
      (coverEscapes content)[offset]? ≠ some openBrace)
    (hdistance : property.stop - 1 - property.start ≤ distance) :
    IsBracePair (coverEscapes content) distance property.start (property.stop - 1) := by
  exact (isBracePair_iff h).mpr ⟨fun offset hhigh hlow => hopen offset hlow hhigh, hdistance⟩

/-! ## The base -/

/-- The nearest line above that is recognised is found first. -/
theorem find?_reverse_range'_eq {p : Nat → Bool} {floor trigger line : Nat} (hfloor : floor ≤ trigger)
    (hline : trigger ≤ line) (hp : p trigger = true)
    (hnone : ∀ n, trigger < n → n ≤ line → p n = false) :
    ((List.range' floor (line + 1 - floor)).reverse).find? p = some trigger := by
  refine List.find?_eq_some_iff_append.mpr ⟨hp, (List.range' (trigger + 1) (line - trigger)).reverse,
    (List.range' floor (trigger - floor)).reverse, ?_, ?_⟩
  · have hbelow : trigger + 1 = floor + (trigger - floor + 1) := by omega
    have hsplit : line + 1 - floor = trigger - floor + 1 + (line - trigger) := by omega
    rw [hsplit, ← List.range'_append_1, ← hbelow, List.range'_concat, List.reverse_append,
      List.reverse_append, Nat.one_mul, Nat.add_sub_cancel' hfloor]
    rfl
  · intro n hn
    rw [List.mem_reverse, List.mem_range'_1] at hn
    rw [hnone n (by omega) (by omega)]
    rfl

/-- **The window starts with the call around a line**, if no line between the first recognised one of the
    call and the line is recognised, and the call starts where it would start in any document. -/
theorem braceBase_eq {document : Document} {config : Config} {call : Span} {trigger floor line : Nat}
    (hcall : call = callAt document config.limits trigger floor) (hfloor : floor ≤ trigger)
    (haccepts : config.shapes.accepts (document.line trigger) = true)
    (hnearest : ∀ n, trigger < n → n ≤ line → config.shapes.accepts (document.line n) = false)
    (hline : trigger ≤ line) (hcovers : line ≤ call.stop.line)
    (hreach : line ≤ call.start.line + config.limits.braceLookback)
    (hstop : call.start.line = trigger - config.limits.callLookback ∨
      closesStatement (document.line (call.start.line - 1)) = true) :
    braceBase document config line = call.start.line := by
  subst hcall
  have hle : (callAt document config.limits trigger floor).start.line ≤ trigger :=
    (callStart_bounds document config.limits hfloor).2.2
  have hfloor' : line - config.limits.braceLookback
      ≤ (callAt document config.limits trigger floor).start.line := Nat.sub_le_iff_le_add.mpr hreach
  have hstart := callStart_eq hfloor hfloor' hstop
  have hsame : callAt document config.limits trigger (line - config.limits.braceLookback)
      = callAt document config.limits trigger floor := by
    unfold callAt
    rw [hstart]
  have hfind : ((List.range' (line - config.limits.braceLookback)
      (line + 1 - (line - config.limits.braceLookback))).reverse).find?
        (fun n => config.shapes.accepts (document.line n)) = some trigger :=
    find?_reverse_range'_eq (by omega) hline haccepts hnearest
  unfold braceBase
  simp only [hfind, hsame]
  exact if_pos (Span.coversLine_iff.mpr ⟨hle.trans hline, hcovers⟩)

/-! ## Agreement -/

/-- **What is a pair of braces in a literal of a call is found as one**, if the window of the braces starts
    with the call and reaches down to the end of the literal. -/
theorem bracePairAt?_of_braceBase_eq {document : Document} {config : Config} {first last : Nat}
    {literal : Literal} {opening closing : Nat} (hfirst : first < min last document.lineCount)
    (hmem : literal ∈ Literal.all (Window.of document first last).text)
    (hpair : IsBracePair (coverEscapes literal.content) config.limits.braceDistance opening closing)
    (hbase : braceBase document config
      (literal.spanOf (Window.of document first last) opening).start.line = first)
    (hstop : ((Window.of document first last).position literal.stop).line
      ≤ (literal.spanOf (Window.of document first last) opening).start.line
        + config.limits.braceLookahead) :
    bracePairAt? document config (literal.spanOf (Window.of document first last) opening).start
      = some ⟨literal.spanOf (Window.of document first last) opening,
          literal.spanOf (Window.of document first last) closing⟩ := by
  have hclosing := hpair.closing_lt
  have hlength := literal.stop_le_length hmem
  have hcontent := literal.contentStop_le_stop
  rw [Literal.contentStop] at hcontent
  -- The closing brace stands in front of the end of the literal.
  have hbefore := (Window.position_le_iff hfirst
    (show literal.contentStart + closing ≤ _ by omega) hlength).mpr (by omega)
  exact bracePairAt?_of_isAtBraces hfirst hmem hpair rfl (.inl rfl) hbase
    ((Position.line_le hbefore).trans hstop)

namespace Property

/-- The two braces of a property of a literal's content. -/
def braces (window : Window) (literal : Literal) (property : Property) : BracePair :=
  ⟨literal.spanOf window property.start, literal.spanOf window (property.stop - 1)⟩

theorem mem_regions (property : Property) :
    ⟨.brace, property.start, property.start + 1⟩ ∈ property.regions ∧
      ⟨.brace, property.stop - 1, property.stop - 1 + 1⟩ ∈ property.regions := by
  rw [regions, segments, List.map_append]
  refine ⟨List.mem_append_left _ ?_, List.mem_append_right _ (List.mem_singleton.mpr rfl)⟩
  exact List.mem_cons_self

/-- The bounds of the search that the two braces of a property have to keep. -/
structure IsInReach (config : Config) (call : Span) (template : PlacedTemplate) (pair : BracePair)
    (property : Property) : Prop where
  ne_openBrace : ∀ offset, property.start < offset → offset < property.stop - 1 →
    (coverEscapes template.content)[offset]? ≠ some openBrace
  le_distance : property.stop - 1 - property.start ≤ config.limits.braceDistance
  le_lookback : pair.opening.start.line ≤ call.start.line + config.limits.braceLookback
  le_lookahead : template.span.stop.line ≤ pair.opening.start.line + config.limits.braceLookahead

end Property

/-- A call can be told from one of its lines: no line between its first recognised one and that line is
    recognised, and it starts as far up as it may or below the end of a statement. -/
structure Span.IsToldFrom (document : Document) (config : Config) (call : Span) (line trigger : Nat) :
    Prop where
  isAround : call.IsAround document config trigger
  accepts_eq_false : ∀ n, trigger < n → n ≤ line →
    config.shapes.accepts (document.line n) = false
  stops : call.start.line = trigger - config.limits.callLookback ∨
    closesStatement (document.line (call.start.line - 1)) = true

/-- **The window of a line starts with the call that can be told from it.** -/
theorem Span.IsToldFrom.braceBase_eq {document : Document} {config : Config} {call : Span}
    {line trigger : Nat} (hlines : 0 < config.limits.callLines)
    (hcall : call ∈ calls document config) (h : call.IsToldFrom document config line trigger)
    (htrigger : trigger ≤ line) (hstop : line ≤ call.stop.line)
    (hreach : line ≤ call.start.line + config.limits.braceLookback) :
    braceBase document config line = call.start.line := by
  obtain ⟨opener, floor, hfloor, heq, haround⟩ :=
    (coversFrom_calls document hlines).exists_callAt call hcall
  obtain rfl := h.isAround.trigger_eq haround
  exact LogMarkup.braceBase_eq heq (hfloor.trans haround.start_le) haround.accepts h.accepts_eq_false
    htrigger hstop hreach h.stops

/-- Each piece of a template's content stands on a line of its call, not above the template. -/
theorem PlacedTemplate.StandsFor.lines_of_spanOf {document : Document} {config : Config} {call : Span}
    {template : PlacedTemplate} {literal : Literal} {offset : Nat}
    (h : template.StandsFor document config call literal)
    (hstart : call.start.line ≤ call.stop.line) (hstop : call.stop.line < document.lineCount)
    (hoffset : offset ≤ literal.content.length) :
    template.span.start.line
        ≤ (literal.spanOf (CallText.of document call).window offset).start.line ∧
      (literal.spanOf (CallText.of document call).window offset).start.line ≤ call.stop.line := by
  have hfirst := CallText.firstLine_lt hstart hstop
  have hlength := literal.contentStop_le_length h.mem_literals
  have hbehind : literal.start ≤ literal.contentStart + offset :=
    Nat.le_add_right_of_le (Nat.le_add_right _ _)
  have hwithin := (Nat.add_le_add_left hoffset literal.contentStart).trans hlength
  have horder := (Window.position_le_iff hfirst (hbehind.trans hwithin) hwithin).mpr hbehind
  obtain ⟨-, hline, -⟩ := Window.position_of hfirst hwithin
  refine ⟨?_, Nat.le_of_lt_succ (Nat.lt_min.mp hline).1⟩
  rw [h.eq_place]
  exact Position.line_le horder

/-- **The highlighter and the matcher agree on the braces of a property**, if the call of the template can
    be told from the line of the opening brace. The literal that the template stands for has each of its
    properties between two braces, which the template shows if its holes are properties. From the opening
    brace the matcher finds exactly these two. -/
theorem bracePairAt?_of_mem_templates {document : Document} {config : Config} {call : Span}
    {template : PlacedTemplate} (hlimits : config.limits.check = .ok config.limits)
    (hcall : call ∈ calls document config)
    (htemplate : template ∈ CallText.templates document config call) :
    ∃ literal, template.StandsFor document config call literal ∧
      ∀ property ∈ Property.all template.content,
        let pair := property.braces (CallText.of document call).window literal
        (template.flavor = .message →
          ⟨.brace, pair.opening⟩ ∈ template.regions ∧ ⟨.brace, pair.closing⟩ ∈ template.regions) ∧
        (property.IsInReach config call template pair →
          (∃ trigger, call.IsToldFrom document config pair.opening.start.line trigger) →
          bracePairAt? document config pair.opening.start = some pair) := by
  have hlines : 0 < config.limits.callLines := (Limits.check_eq_ok_iff.mp hlimits).2 .callLines
  obtain ⟨hstart, hstop⟩ := (calls_lines document hlines).2 call hcall
  obtain ⟨literal, hstands⟩ := CallText.exists_standsFor hstart hstop htemplate
  have hfirst := CallText.firstLine_lt hstart hstop
  have hcontent : template.content = literal.content := by
    rw [hstands.eq_place]
    rfl
  refine ⟨literal, hstands, ?_⟩
  intro property hproperty pair
  refine ⟨?_, ?_⟩
  · intro hmessage
    have hregions : template.regions = (Message.regions literal.content).map fun region =>
        ⟨region.classification, (CallText.of document call).window.span
          (literal.contentStart + region.start) (literal.contentStart + region.stop)⟩ := by
      rw [hstands.eq_place, hmessage]
      rfl
    rw [hcontent] at hproperty
    obtain ⟨hopening, hclosing⟩ := property.mem_regions
    rw [hregions]
    exact ⟨List.mem_map_of_mem (List.mem_flatMap_of_mem hproperty hopening),
      List.mem_map_of_mem (List.mem_flatMap_of_mem hproperty hclosing)⟩
  · rintro hreach ⟨trigger, htold⟩
    rw [hcontent] at hproperty
    have hopen := hreach.ne_openBrace
    rw [hcontent] at hopen
    have hpair := Property.isBracePair hproperty hopen hreach.le_distance
    refine bracePairAt?_of_braceBase_eq hfirst hstands.mem_literals hpair ?_ ?_
    · have hopening : property.start ≤ literal.content.length := by
        have hlt := (List.getElem?_eq_some_iff.mp hpair.getElem?_opening).1
        rw [length_coverEscapes] at hlt
        exact Nat.le_of_lt hlt
      obtain ⟨hspan, hceiling⟩ := hstands.lines_of_spanOf hstart hstop hopening
      -- The literal stands at or below a recognised line, so at or below the first one.
      obtain ⟨n, hn, hbelow, haccepts⟩ := hstands.exists_recognised
      have htrigger := (htold.isAround.le_of_accepts hn haccepts).trans (hbelow.trans hspan)
      exact htold.braceBase_eq hlines hcall htrigger hceiling hreach.le_lookback
    · have hlookahead := hreach.le_lookahead
      rw [hstands.eq_place] at hlookahead
      exact hlookahead

/-- A property on the second line of a template. -/
theorem bracePairAt?_of_mem_templates_second_line :
    ∃ document : Document,
      document = ⟨[Bytes.ofString "f.Debug(@\"", Bytes.ofString "\x7bA\x7d\")"]⟩ ∧
      ({} : Config).limits.check = .ok ({} : Config).limits ∧
      ⟨⟨0, 0⟩, ⟨1, 5⟩⟩ ∈ calls document {} ∧
      (∃ template ∈ CallText.templates document {} ⟨⟨0, 0⟩, ⟨1, 5⟩⟩,
        template.content = Bytes.ofString "\n\x7bA\x7d" ∧ template.flavor = .message) ∧
      bracePairAt? document {} ⟨1, 0⟩ = some ⟨⟨⟨1, 0⟩, ⟨1, 1⟩⟩, ⟨⟨1, 2⟩, ⟨1, 3⟩⟩⟩ := by
  refine ⟨_, rfl, ?_⟩
  have hlimits : ({} : Config).limits.check = .ok ({} : Config).limits := rfl
  have hcall : ⟨⟨0, 0⟩, ⟨1, 5⟩⟩
      ∈ calls ⟨[Bytes.ofString "f.Debug(@\"", Bytes.ofString "\x7bA\x7d\")"]⟩ {} := by
    decide +kernel
  have htemplate : (⟨.message, .verbatim, ⟨⟨0, 8⟩, ⟨1, 4⟩⟩, Bytes.ofString "\n\x7bA\x7d",
        [⟨.brace, ⟨⟨1, 0⟩, ⟨1, 1⟩⟩⟩, ⟨.property, ⟨⟨1, 1⟩, ⟨1, 2⟩⟩⟩, ⟨.brace, ⟨⟨1, 2⟩, ⟨1, 3⟩⟩⟩]⟩ :
          PlacedTemplate)
      ∈ CallText.templates ⟨[Bytes.ofString "f.Debug(@\"", Bytes.ofString "\x7bA\x7d\")"]⟩ {}
          ⟨⟨0, 0⟩, ⟨1, 5⟩⟩ := by decide +kernel
  have hproperty : (⟨Bytes.ofString "A", 1, 4, .standard, none, none⟩ : Property)
      ∈ Property.all (Bytes.ofString "\n\x7bA\x7d") := by decide +kernel
  obtain ⟨literal, hstands, hall⟩ := bracePairAt?_of_mem_templates hlimits hcall htemplate
  -- There is only one literal in the call.
  have hliterals : Literal.all (CallText.of
      ⟨[Bytes.ofString "f.Debug(@\"", Bytes.ofString "\x7bA\x7d\")"]⟩ ⟨⟨0, 0⟩, ⟨1, 5⟩⟩).window.text
        = [⟨8, .verbatim, Bytes.ofString "\n\x7bA\x7d", true⟩] := by decide +kernel
  obtain rfl := List.mem_singleton.mp (hliterals ▸ hstands.mem_literals)
  have hfound := (hall _ hproperty).2 ⟨?_, by decide, by decide, by decide⟩ ⟨0, ?_⟩
  · exact ⟨hlimits, hcall, ⟨_, htemplate, rfl, rfl⟩, hfound⟩
  · intro offset hlow hhigh
    obtain rfl : offset = 2 := Nat.le_antisymm (Nat.le_of_lt_succ hhigh) hlow
    decide
  · refine ⟨⟨by decide +kernel, ?_, by decide, by decide, by decide, by decide⟩, ?_, .inl rfl⟩
    · intro n _ hlt
      exact absurd hlt (Nat.not_lt_zero n)
    · intro n hlow hhigh
      obtain rfl : n = 1 := Nat.le_antisymm hhigh hlow
      decide +kernel

/-- A line of a string that starts with a dot looks like a call. From such a line the call around the
    string is not found, nor is the string, and the braces of a property on it are not matched. -/
theorem bracePairAt?_eq_none_of_dotted_line :
    ∃ document : Document, document
        = ⟨[Bytes.ofString "f.Debug(@\"", Bytes.ofString "a;", Bytes.ofString ".\x7bA\x7d\")"]⟩ ∧
      ∃ call ∈ calls document {}, ∃ template ∈ CallText.templates document {} call,
        template.flavor = .message ∧
        ∃ literal, template.StandsFor document {} call literal ∧
        ∃ property ∈ Property.all template.content,
        ∃ pair, pair = property.braces (CallText.of document call).window literal ∧
          pair.opening.start.line = pair.closing.start.line ∧
          property.IsInReach {} call template pair ∧
          bracePairAt? document {} pair.opening.start = none := by
  refine ⟨_, rfl, ⟨⟨0, 0⟩, ⟨2, 6⟩⟩, by decide +kernel,
    ⟨.message, .verbatim, ⟨⟨0, 8⟩, ⟨2, 5⟩⟩, Bytes.ofString "\na;\n.\x7bA\x7d",
      [⟨.brace, ⟨⟨2, 1⟩, ⟨2, 2⟩⟩⟩, ⟨.property, ⟨⟨2, 2⟩, ⟨2, 3⟩⟩⟩, ⟨.brace, ⟨⟨2, 3⟩, ⟨2, 4⟩⟩⟩]⟩,
    by decide +kernel, rfl, ⟨8, .verbatim, Bytes.ofString "\na;\n.\x7bA\x7d", true⟩,
    ⟨by decide +kernel, by decide +kernel, by decide, ⟨0, by decide, by decide, by decide +kernel⟩,
      by decide⟩,
    ⟨Bytes.ofString "A", 5, 8, .standard, none, none⟩, by decide +kernel,
    ⟨⟨⟨2, 1⟩, ⟨2, 2⟩⟩, ⟨⟨2, 3⟩, ⟨2, 4⟩⟩⟩, by decide +kernel, rfl,
    ⟨?_, by decide, by decide, by decide⟩, by decide +kernel⟩
  intro offset hlow hhigh
  obtain rfl : offset = 6 := Nat.le_antisymm (Nat.le_of_lt_succ hhigh) hlow
  decide

end LogMarkup
