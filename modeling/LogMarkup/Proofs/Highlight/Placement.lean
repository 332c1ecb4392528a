import LogMarkup.Proofs.Expression.Scanner
import LogMarkup.Proofs.Highlight.Selection
import LogMarkup.Proofs.Literal.Boundary
import LogMarkup.Proofs.Message.Property
import LogMarkup.Proofs.Source.Text

/-!
# `LogMarkup.Proofs.Highlight.Placement` — templates and regions as they stand in the document

A region is a piece of a content, the content is a piece of a window, and the window is a piece of the
document. Each of these steps adds an offset, so what is read in the document at the place of a region
is what the content has there, over however many lines the content goes.

## Contents
- **Regions.** `Flavor.isRow_regions`, `PlacedRegion.Shows` and `PlacedRegion.shows_span`.
- **Templates.** `PlacedTemplate.IsPlaced`, with `CallText.isPlaced_place`.
- **Calls.** `CallText.span_of_mem_templates` and `CallText.pairwise_templates`, for the templates of one
  call.
- **Documents.** `highlight_placed` — templates and their regions are ordered and disjoint, and show
  what stands in the document.
-/

namespace LogMarkup

/-! ## Regions -/

/-- **The regions of a content are pieces of it in a row, in either language.** -/
theorem Flavor.isRow_regions (flavor : Flavor) {content : Bytes}
    (hvalid : Utf8.isValid content = true) :
    IsRow 0 content.length ((flavor.regions content).map Region.offsets) := by
  cases flavor with
  | message => exact Message.isRow_regions content
  | expression => exact Expression.isRow_regions hvalid

/-- A placed region shows a region of a content that stands in a document between two positions. -/
structure PlacedRegion.Shows (document : Document) (content : Bytes) (within : Span)
    (region : Region) (placed : PlacedRegion) : Prop where
  classification_eq : placed.classification = region.classification
  start_lt_stop : placed.span.start < placed.span.stop
  start_le : within.start ≤ placed.span.start
  le_stop : placed.span.stop ≤ within.stop
  read_eq : document.read placed.span = content.extract region.start region.stop

/-- How a template stands in a document, with its content between two positions. -/
structure PlacedTemplate.IsPlaced (document : Document) (within : Span)
    (template : PlacedTemplate) : Prop where
  start_lt : template.span.start < within.start
  start_le_stop : within.start ≤ within.stop
  le_stop : within.stop ≤ template.span.stop
  read_eq : document.read within = template.content
  /-- The regions of the content are not empty and follow one another in it. -/
  isRow_regions : IsRow 0 template.content.length
    ((template.flavor.regions template.content).map Region.offsets)
  /-- The template shows each of them, in the same order. -/
  shows_regions : List.Forall₂ (PlacedRegion.Shows document template.content within)
    (template.flavor.regions template.content) template.regions
  pairwise_regions : template.regions.Pairwise fun first second =>
    first.span.stop ≤ second.span.start

section

variable {document : Document} {first last : Nat} {literal : Literal}

variable (hmem : literal ∈ Literal.all (Window.of document first last).text)
  (hfirst : first < min last document.lineCount)

include hmem hfirst

/-- A region of a literal's content is shown where it stands behind the opener of the literal. -/
theorem PlacedRegion.shows_span {region : Region} (hlt : region.start < region.stop)
    (hle : region.stop ≤ literal.content.length) :
    PlacedRegion.Shows document literal.content
      ((Window.of document first last).span literal.contentStart literal.contentStop) region
      ⟨region.classification, (Window.of document first last).span
        (literal.contentStart + region.start) (literal.contentStart + region.stop)⟩ := by
  have hcontent := literal.contentStop_le_length hmem
  have hbehind : literal.contentStart + region.stop ≤ literal.contentStop :=
    Nat.add_le_add_left hle _
  have hbefore : literal.contentStart + region.start < literal.contentStart + region.stop :=
    Nat.add_lt_add_left hlt _
  have hstopLe := hbehind.trans hcontent
  have hstartLe := (Nat.le_of_lt hbefore).trans hstopLe
  refine ⟨rfl, ?_, ?_, ?_, ?_⟩
  · exact (Window.position_lt_iff hfirst hstartLe hstopLe).mpr hbefore
  · have horigin : literal.contentStart ≤ literal.contentStart + region.start :=
      Nat.le_add_right _ _
    exact (Window.position_le_iff hfirst (horigin.trans hstartLe) hstartLe).mpr horigin
  · exact (Window.position_le_iff hfirst hstopLe hcontent).mpr hbehind
  · rw [Document.read_span hfirst hstartLe hstopLe, (Literal.delimits_of_mem_all hmem).content_eq,
      Bytes.extract_extract _ hbehind]

/-- **A literal of a window is placed with all regions of its content.** -/
theorem CallText.isPlaced_place (hvalid : ∀ line ∈ document.lines, Utf8.isValid line = true)
    (literals : List Literal) (flavor : Flavor) :
    ((⟨Window.of document first last, literals⟩ : CallText).place flavor literal).IsPlaced document
      ((Window.of document first last).span literal.contentStart literal.contentStop) := by
  have hdelimits := Literal.delimits_of_mem_all hmem
  have hcontent := literal.contentStop_le_length hmem
  have hlength := literal.stop_le_length hmem
  have hopener := hdelimits.start_lt_contentStart
  have hmiddle := hdelimits.contentStart_le_contentStop
  have hcloser := hdelimits.contentStop_le
  rw [literal.last_add_one] at hcloser
  have hrow := flavor.isRow_regions
    (Literal.isValid_content (Literal.at?_of_mem_allFrom rfl hmem).2 (Window.isValid_text hvalid _ _))
  have hregion : ∀ region ∈ flavor.regions literal.content,
      region.start < region.stop ∧ region.stop ≤ literal.content.length := by
    intro region hin
    have hoffsets := List.mem_map_of_mem (f := Region.offsets) hin
    exact ⟨hrow.lt _ hoffsets, hrow.le_high _ hoffsets⟩
  refine ⟨?_, ?_, ?_, ?_, hrow, ?_, ?_⟩
  · exact (Window.position_lt_iff hfirst (by omega) (by omega)).mpr hopener
  · exact (Window.position_le_iff hfirst (by omega) hcontent).mpr hmiddle
  · exact (Window.position_le_iff hfirst hcontent hlength).mpr hcloser
  · rw [Document.read_span hfirst (hmiddle.trans hcontent) hcontent]
    exact hdelimits.content_eq.symm
  · refine List.forall₂_map_right_iff.mpr (List.forall₂_same.mpr ?_)
    intro region hin
    exact PlacedRegion.shows_span hmem hfirst (hregion region hin).1 (hregion region hin).2
  · -- Behind the opener the regions keep the order that they have in the content.
    refine List.pairwise_map.mpr ((List.pairwise_map.mp hrow.pairwise).imp_of_mem ?_)
    intro one other hin hin' hle
    have hone : literal.contentStart + one.stop ≤ literal.contentStop :=
      Nat.add_le_add_left (hregion one hin).2 _
    have hother : literal.contentStart + other.start ≤ literal.contentStop :=
      Nat.add_le_add_left (Nat.le_of_lt (Nat.lt_of_lt_of_le (hregion other hin').1
        (hregion other hin').2)) _
    exact (Window.position_le_iff hfirst (hone.trans hcontent) (hother.trans hcontent)).mpr
      (Nat.add_le_add_left hle _)

end

theorem PlacedTemplate.IsPlaced.start_lt_stop {document : Document} {within : Span}
    {template : PlacedTemplate} (h : template.IsPlaced document within) :
    template.span.start < template.span.stop :=
  h.start_lt.trans_le (h.start_le_stop.trans h.le_stop)

/-! ## Calls -/

/-- A template stands for a literal in the lines of a call, at or below one that is recognised, and the
    holes of the literal do not belong to the host language. -/
structure PlacedTemplate.StandsFor (document : Document) (config : Config) (call : Span)
    (literal : Literal) (template : PlacedTemplate) : Prop where
  mem_literals : literal ∈ Literal.all (CallText.of document call).window.text
  eq_place : template = (CallText.of document call).place template.flavor literal
  kind_ne : literal.kind ≠ .interpolated
  exists_recognised : ∃ n, call.start.line ≤ n ∧ n ≤ template.span.start.line ∧
    config.shapes.accepts (document.line n) = true
  stop_line_le : template.span.stop.line ≤ call.stop.line

theorem PlacedTemplate.StandsFor.start_line_le {document : Document} {config : Config} {call : Span}
    {literal : Literal} {template : PlacedTemplate}
    (h : template.StandsFor document config call literal) :
    call.start.line ≤ template.span.start.line := by
  obtain ⟨n, hfloor, hle, -⟩ := h.exists_recognised
  exact hfloor.trans hle

namespace CallText

variable {document : Document} {call : Span}

variable (hstart : call.start.line ≤ call.stop.line) (hstop : call.stop.line < document.lineCount)

include hstart hstop

theorem firstLine_lt : call.start.line < min (call.stop.line + 1) document.lineCount := by
  omega

/-- What the lines of a call select stands for a literal in them. -/
theorem standsFor_of_mem_selections {config : Config} {selection : Flavor × Literal}
    (h : selection ∈ selections document config call) :
    ((CallText.of document call).place selection.1 selection.2).StandsFor document config call
      selection.2 := by
  obtain ⟨n, hn, hle, anchor, hselects⟩ := exists_line_of_mem_selections config h
  have hfirst := firstLine_lt hstart hstop
  have hmem : selection.2 ∈ Literal.all (CallText.of document call).window.text :=
    hselects.mem_literals
  have hlength := selection.2.stop_le_length hmem
  have horigin : selection.2.start ≤ selection.2.stop := Nat.le_add_right _ _
  obtain ⟨-, hceiling, -⟩ := Window.position_of hfirst hlength
  refine ⟨hmem, rfl, hselects.kind_ne, ⟨n, hn, ?_, ?_⟩, ?_⟩
  · -- The literal starts behind the match, and so at or below the start of its line.
    obtain ⟨shape, start, stop, -, hline, rfl, -⟩ := hselects.exists_match
    obtain ⟨origin, hstartLine, hlengthLine, hposition⟩ :=
      Window.exists_offset hfirst hn (by omega) (Nat.zero_le _)
    obtain rfl := Option.some.inj (hline.symm.trans hstartLine)
    have hbehind : start + 0 ≤ selection.2.start :=
      (Nat.add_le_add_left (Nat.zero_le stop) start).trans hselects.anchor_le
    have hbelow := (Window.position_le_iff hfirst hlengthLine (horigin.trans hlength)).mpr hbehind
    rw [hposition] at hbelow
    exact Position.line_le hbelow
  · obtain ⟨shape, start, stop, hmatch, -⟩ := hselects.exists_match
    rw [Shapes.accepts, hmatch]
    rfl
  · exact Nat.le_of_lt_succ (Nat.lt_of_lt_of_le hceiling (Nat.min_le_left _ _))

/-- Every template of a call stands for a literal. -/
theorem exists_standsFor {config : Config} {template : PlacedTemplate}
    (h : template ∈ templates document config call) :
    ∃ literal, template.StandsFor document config call literal := by
  rw [templates_eq] at h
  obtain ⟨selection, hmem, rfl⟩ := List.mem_map.mp h
  exact ⟨selection.2, standsFor_of_mem_selections hstart hstop (mem_of_mem_withoutRepeats hmem).1⟩

/-- **The templates of a call follow one another.** -/
theorem pairwise_templates (config : Config) :
    (templates document config call).Pairwise fun first second =>
      first.span.stop ≤ second.span.start := by
  rw [templates_eq]
  refine List.pairwise_map.mpr ((pairwise_withoutRepeats
    (pairwise_selections config hstart hstop)).imp_of_mem ?_)
  intro one other hone hother hlt
  have hmem := (standsFor_of_mem_selections hstart hstop
    (mem_of_mem_withoutRepeats hone).1).mem_literals
  have hmem' := (standsFor_of_mem_selections hstart hstop
    (mem_of_mem_withoutRepeats hother).1).mem_literals
  have hlength' := other.2.stop_le_length hmem'
  have horigin' : other.2.start ≤ other.2.stop := Nat.le_add_right _ _
  refine (Window.position_le_iff (firstLine_lt hstart hstop) (one.2.stop_le_length hmem)
    (horigin'.trans hlength')).mpr ?_
  -- Two literals of a text are the same, or one ends in front of the other one.
  rw [← one.2.last_add_one]
  rcases eq_or_of_pairwise (Literal.pairwise_allFrom List.drop_zero) hmem hmem' with
    heq | hbefore | hbehind
  · rw [heq] at hlt
    exact absurd hlt (Nat.lt_irrefl _)
  · exact hbefore
  · have hlast' := (Literal.delimits_of_mem_all hmem').start_le_last
    omega

end CallText

/-! ## Documents -/

section

variable (document : Document) {config : Config}

/-- The calls of a document lie on its lines, and they share none. -/
theorem calls_lines (hlines : 0 < config.limits.callLines) :
    (calls document config).Pairwise (fun first second => first.stop.line < second.start.line) ∧
    ∀ call ∈ calls document config,
      call.start.line ≤ call.stop.line ∧ call.stop.line < document.lineCount :=
  ⟨(coversFrom_calls document hlines).pairwise, fun _ => lines_of_mem_calls⟩

/-- **The templates of a document are ordered and disjoint, and show what stands in it.** They follow
    one another, so that no literal is a template twice. Each of them stands for a literal in the lines
    of a call. Its regions are those of its content, ordered and disjoint in the content and in the
    document, and between the two ends of each the document has what the content has there. -/
theorem highlight_placed (hlimits : config.limits.check = .ok config.limits)
    (hvalid : ∀ line ∈ document.lines, Utf8.isValid line = true) :
    (highlight document config).Pairwise (fun first second =>
      first.span.start < second.span.start ∧ first.span.stop ≤ second.span.start) ∧
    ∀ template ∈ highlight document config, ∃ call ∈ calls document config, ∃ literal,
      template.StandsFor document config call literal ∧
      template.IsPlaced document
        ((CallText.of document call).window.span literal.contentStart literal.contentStop) := by
  have hlines : 0 < config.limits.callLines := (Limits.check_eq_ok_iff.mp hlimits).2 .callLines
  obtain ⟨hcalls, hcall⟩ := calls_lines document hlines
  have hplaced : ∀ template ∈ highlight document config, ∃ call ∈ calls document config, ∃ literal,
      template.StandsFor document config call literal ∧
      template.IsPlaced document
        ((CallText.of document call).window.span literal.contentStart literal.contentStop) := by
    intro template htemplate
    obtain ⟨call, hmem, hin⟩ := List.mem_flatMap.mp htemplate
    obtain ⟨hstart, hstop⟩ := hcall call hmem
    obtain ⟨literal, hstands⟩ := CallText.exists_standsFor hstart hstop hin
    refine ⟨call, hmem, literal, hstands, ?_⟩
    rw [hstands.eq_place]
    exact CallText.isPlaced_place hstands.mem_literals (CallText.firstLine_lt hstart hstop) hvalid _ _
  refine ⟨?_, hplaced⟩
  have hpairwise : (highlight document config).Pairwise fun first second =>
      first.span.stop ≤ second.span.start := by
    refine List.pairwise_flatMap.mpr ⟨?_, hcalls.imp_of_mem ?_⟩
    · intro call hmem
      exact CallText.pairwise_templates (hcall call hmem).1 (hcall call hmem).2 config
    · -- Calls share no line, and neither do their templates.
      intro call call' hmem hmem' hlt template hin template' hin'
      obtain ⟨_, hstands⟩ := CallText.exists_standsFor (hcall call hmem).1 (hcall call hmem).2 hin
      obtain ⟨_, hstands'⟩ :=
        CallText.exists_standsFor (hcall call' hmem').1 (hcall call' hmem').2 hin'
      exact .inl (Nat.lt_of_le_of_lt hstands.stop_line_le
        (Nat.lt_of_lt_of_le hlt hstands'.start_line_le))
  refine hpairwise.imp_of_mem ?_
  intro first second hfirst _ hle
  obtain ⟨_, _, _, _, hisPlaced⟩ := hplaced first hfirst
  exact ⟨hisPlaced.start_lt_stop.trans_le hle, hle⟩

/-- A property on the second line of a string over two lines. -/
theorem highlight_placed_verbatim :
    ∃ document : Document,
      document = ⟨[Bytes.ofString "log.Debug(@\"a", Bytes.ofString "\x7bB\x7d\", b);"]⟩ ∧
      ({} : Config).limits.check = .ok ({} : Config).limits ∧
      (∀ line ∈ document.lines, Utf8.isValid line = true) ∧
      ∃ template ∈ highlight document {},
        template.span = ⟨⟨0, 10⟩, ⟨1, 4⟩⟩ ∧
        template.regions = [⟨.brace, ⟨⟨1, 0⟩, ⟨1, 1⟩⟩⟩, ⟨.property, ⟨⟨1, 1⟩, ⟨1, 2⟩⟩⟩,
          ⟨.brace, ⟨⟨1, 2⟩, ⟨1, 3⟩⟩⟩] ∧
        ∃ within, template.IsPlaced document within := by
  refine ⟨_, rfl, ?_⟩
  have hlimits : ({} : Config).limits.check = .ok ({} : Config).limits := rfl
  have hvalid : ∀ line ∈ [Bytes.ofString "log.Debug(@\"a", Bytes.ofString "\x7bB\x7d\", b);"],
      Utf8.isValid line = true := by decide
  have hmem : (⟨.message, .verbatim, ⟨⟨0, 10⟩, ⟨1, 4⟩⟩, Bytes.ofString "a\n\x7bB\x7d",
        [⟨.brace, ⟨⟨1, 0⟩, ⟨1, 1⟩⟩⟩, ⟨.property, ⟨⟨1, 1⟩, ⟨1, 2⟩⟩⟩, ⟨.brace, ⟨⟨1, 2⟩, ⟨1, 3⟩⟩⟩]⟩ :
          PlacedTemplate)
      ∈ highlight ⟨[Bytes.ofString "log.Debug(@\"a", Bytes.ofString "\x7bB\x7d\", b);"]⟩ {} := by
    decide +kernel
  obtain ⟨_, _, _, _, hplaced⟩ := (highlight_placed _ hlimits hvalid).2 _ hmem
  exact ⟨hlimits, hvalid, _, hmem, rfl, rfl, _, hplaced⟩

end

end LogMarkup
