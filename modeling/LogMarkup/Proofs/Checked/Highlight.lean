import LogMarkup.Proofs.Checked.BracePair
import LogMarkup.Proofs.Checked.Template
import LogMarkup.Proofs.Highlight.Selection

/-!
# `LogMarkup.Proofs.Checked.Highlight` — the templates of a document, offset by offset

The lines of a call are joined to one text, of which the literals are cut out, and of their contents the
tokens. Each of these is a text again, so that no cut goes through a character on any level.

## Contents
- **Templates.** `Checked.templates` and `Checked.highlight`, each with its equation.
- **All together.** `Checked.runs_without_fault` — nothing that this library computes has a step that
  fails.
-/

namespace LogMarkup.Checked

/-! ## Templates -/

/-- The regions of a template's content in its language. -/
def flavorRegions : Flavor → Bytes → Checked (List Region)
  | .message, content => messageRegions content
  | .expression, content => regions content

/-- All lines of a call, with the literals in them. -/
def callText (document : Document) (call : Span) : Checked CallText := do
  let window ← windowOf document call.start.line (call.stop.line + 1)
  let found ← literals window.text
  pure ⟨window, found⟩

/-- A literal as a template, with its regions. -/
def place (text : CallText) (selection : Flavor × Literal) : Checked PlacedTemplate := do
  let (flavor, literal) := selection
  let found ← flavorRegions flavor literal.content
  pure {
    flavor := flavor
    kind := literal.kind
    span := text.window.span literal.start literal.stop
    content := literal.content
    regions := found.map fun region =>
      ⟨region.classification,
        text.window.span (literal.contentStart + region.start) (literal.contentStart + region.stop)⟩ }

/-- The templates of a call. -/
def templates (document : Document) (config : Config) (call : Span) :
    Checked (List PlacedTemplate) := do
  let text ← callText document call
  let numbers := List.range' call.start.line (call.stop.line + 1 - call.start.line)
  let selections := numbers.filterMap fun n => text.select? config.shapes n (document.line n)
  (CallText.withoutRepeats [] selections).mapM (place text)

/-- The templates of a document, call by call. -/
def highlight (document : Document) (config : Config) : Checked (List PlacedTemplate) := do
  let found ← calls document config
  let placed ← found.mapM (templates document config)
  pure placed.flatten

theorem flavorRegions_eq (flavor : Flavor) {content : Bytes} (hvalid : Utf8.isValid content = true) :
    flavorRegions flavor content = .ok (flavor.regions content) := by
  cases flavor with
  | message => exact messageRegions_eq hvalid
  | expression => exact regions_eq hvalid

theorem place_eq (text : CallText) (selection : Flavor × Literal)
    (hvalid : Utf8.isValid selection.2.content = true) :
    place text selection = .ok (text.place selection.1 selection.2) := by
  simp only [place, flavorRegions_eq selection.1 hvalid, ok_bind]
  rfl

section

variable {document : Document} (hlines : ∀ line ∈ document.lines, Utf8.isValid line = true)

include hlines

theorem callText_eq (call : Span) : callText document call = .ok (CallText.of document call) := by
  have htext := Window.isValid_text hlines call.start.line (call.stop.line + 1)
  simp only [callText, windowOf_eq, literals_eq htext, ok_bind]
  rfl

/-- What a call selects is the content of a literal, and so it is a text. -/
theorem isValid_content_of_mem_selections {config : Config} {call : Span} {selection : Flavor × Literal}
    (h : selection ∈ CallText.selections document config call) :
    Utf8.isValid selection.2.content = true := by
  obtain ⟨n, -, -, anchor, hselects⟩ := CallText.exists_line_of_mem_selections config h
  have hat := (Literal.at?_of_mem_allFrom rfl hselects.mem_literals).2
  exact Literal.isValid_content hat (Window.isValid_text hlines _ _)

theorem templates_eq (config : Config) (call : Span) :
    templates document config call = .ok (CallText.templates document config call) := by
  simp only [templates, callText_eq hlines, ok_bind]
  refine mapM_eq_ok fun selection hmem => ?_
  exact place_eq _ selection
    (isValid_content_of_mem_selections hlines (CallText.mem_of_mem_withoutRepeats hmem).1)

theorem highlight_eq (config : Config) :
    highlight document config = .ok (LogMarkup.highlight document config) := by
  simp only [highlight, calls_eq hlines, ok_bind, mapM_eq_ok fun call _ => templates_eq hlines config call,
    pure_eq_ok]
  rw [LogMarkup.highlight, List.flatMap_def]

end

/-! ## All together -/

/-- Whatever is computed for a text comes to its value, from every offset and in every mode. -/
structure RunsOnText (text : Bytes) : Prop where
  literalAt : ∀ offset, literalAt? text offset = .ok (Literal.at? text offset)
  literals : literals text = .ok (Literal.all text)
  properties : properties text = .ok (Property.all text)
  segments : ∀ property ∈ Property.all text, segments property = .ok property.segments
  mode : mode text = .ok (Mode.ofContent text)
  tokens : ∀ mode, tokens text mode = .ok (mode.tokens text)
  regions : regions text = .ok (Expression.regions text)

/-- Whatever is computed for a document comes to its value, from every position. -/
structure RunsOnDocument (document : Document) (config : Config) : Prop where
  calls : calls document config = .ok (LogMarkup.calls document config)
  bracePairAt : ∀ position,
    bracePairAt? document config position = .ok (LogMarkup.bracePairAt? document config position)
  highlight : highlight document config = .ok (LogMarkup.highlight document config)

/-- **No step fails.** For every text and every document of texts, whatever the bounds and the shapes are,
    each read, cut, difference and turn of a loop is one that is allowed. -/
theorem runs_without_fault {text : Bytes} (htext : Utf8.isValid text = true) {document : Document}
    (hlines : ∀ line ∈ document.lines, Utf8.isValid line = true) (config : Config) :
    RunsOnText text ∧ RunsOnDocument document config where
  left :=
    { literalAt := literalAt?_eq htext
      literals := literals_eq htext
      properties := properties_eq htext
      segments := fun _ => segments_eq
      mode := mode_eq text
      tokens := tokens_eq htext
      regions := regions_eq htext }
  right :=
    { calls := calls_eq hlines config
      bracePairAt := bracePairAt?_eq hlines config
      highlight := highlight_eq hlines config }

/-- A backslash in front of a character of two bytes, a line with a line feed in it, and bounds of zero. -/
theorem runs_without_fault_escaped :
    ∃ text : Bytes, text = Bytes.ofString "\"\\\u00e9\x7bA\x7d" ∧ Utf8.isValid text = true ∧
      ∃ document : Document, document = ⟨[text, Bytes.ofString "f.Debug(\"\n\x7bA\x7d"]⟩ ∧
        (∀ line ∈ document.lines, Utf8.isValid line = true) ∧
        RunsOnText text ∧ RunsOnDocument document { limits := ⟨0, 0, 0, 0, 0⟩ } ∧
        ∃ property ∈ Property.all text, segments property = .ok property.segments := by
  have htext : Utf8.isValid (Bytes.ofString "\"\\\u00e9\x7bA\x7d") = true := by decide
  have hlines : ∀ line ∈ [Bytes.ofString "\"\\\u00e9\x7bA\x7d", Bytes.ofString "f.Debug(\"\n\x7bA\x7d"],
      Utf8.isValid line = true := by decide
  obtain ⟨hruns, hdocument⟩ := runs_without_fault htext hlines { limits := ⟨0, 0, 0, 0, 0⟩ }
  obtain ⟨property, hproperty⟩ : ∃ property, property
      ∈ Property.all (Bytes.ofString "\"\\\u00e9\x7bA\x7d") :=
    List.exists_mem_of_ne_nil _ (by decide +kernel)
  exact ⟨_, rfl, htext, _, rfl, hlines, hruns, hdocument, property, hproperty,
    hruns.segments property hproperty⟩

/-- Where the bytes are no text, a literal may be cut out inside of what should be a character. -/
example : literalAt? [Ascii.quote, 0x80, Ascii.quote] 0 = .error .boundary := by decide +kernel

end LogMarkup.Checked
