import LogMarkup.Proofs.Highlight.Placement
import LogMarkup.Proofs.Pattern.Ending

/-!
# `LogMarkup.Proofs.Highlight.Contribution` — what each line of a call adds to the templates

The lines of a call select their literals one after another, and a literal that a line further up has selected
is left out. So every line adds at most one template, and which one can be told from the line and from the
lines above it. A match that is a part of a string adds none: the line is skipped because its anchor is inside
of a literal. The anchor is the offset behind the match, though, and a literal that is cut off at the end of
its line may end right there.

## Contents
- **Repeats.** `CallText.isSelectedAbove` and `CallText.fresh?`, with `CallText.withoutRepeats_filterMap`.
- **Lines.** `CallText.contribution?`, with `highlight_eq_contributions`.
- **Matches in literals.** `Literal.IsCutAt`, `Literal.getElem?_last`, and `highlight_match_in_literal`.
-/

namespace LogMarkup

open Ascii

/-! ## Repeats -/

namespace CallText

/-- Whether a line from `first` on, but above the line `n`, selects the literal that starts at an offset. -/
def isSelectedAbove (select : Nat → Option (Flavor × Literal)) (first n start : Nat) : Bool :=
  (List.range' first (n - first)).any fun above =>
    (select above).any fun selection => selection.2.start == start

/-- What a line selects, unless the literal was claimed before or is selected further up. -/
def fresh? (select : Nat → Option (Flavor × Literal)) (claimed : List Nat) (first n : Nat) :
    Option (Flavor × Literal) :=
  (select n).filter fun selection =>
    !(claimed.contains selection.2.start || isSelectedAbove select first n selection.2.start)

section

variable {select : Nat → Option (Flavor × Literal)} {claimed : List Nat} {first n : Nat}
  {selection : Flavor × Literal}

theorem isSelectedAbove_of_lt (h : first < n) (start : Nat) : isSelectedAbove select first n start
    = ((select first).any (fun selection => selection.2.start == start)
        || isSelectedAbove select (first + 1) n start) := by
  unfold isSelectedAbove
  have hcount : n - first = n - (first + 1) + 1 := by omega
  rw [hcount, List.range'_succ, List.any_cons]

theorem fresh?_of_mem (hselect : select n = some selection) (hclaimed : selection.2.start ∈ claimed) :
    fresh? select claimed first n = none := by
  unfold fresh?
  rw [hselect]
  simp [hclaimed]

theorem fresh?_self (hselect : select first = some selection)
    (hclaimed : selection.2.start ∉ claimed) : fresh? select claimed first first = some selection := by
  unfold fresh? isSelectedAbove
  rw [hselect, Nat.sub_self]
  simp [hclaimed]

/-- A line that selects nothing makes no difference below. -/
theorem fresh?_of_lt_of_none (hlt : first < n) (hselect : select first = none) :
    fresh? select claimed first n = fresh? select claimed (first + 1) n := by
  unfold fresh?
  simp only [isSelectedAbove_of_lt hlt, hselect, Option.any_none, Bool.false_or]

/-- For the lines below, a literal that a line selects is one more that was claimed before. -/
theorem fresh?_of_lt_of_some {claimed' : List Nat} (hlt : first < n)
    (hselect : select first = some selection)
    (hclaimed : ∀ start, start ∈ claimed' ↔ start ∈ claimed ∨ selection.2.start = start) :
    fresh? select claimed first n = fresh? select claimed' (first + 1) n := by
  have hcontains : ∀ start,
      claimed'.contains start = (claimed.contains start || selection.2.start == start) := by
    intro start
    rw [Bool.eq_iff_iff, Bool.or_eq_true, List.contains_iff_mem, List.contains_iff_mem, beq_iff_eq]
    exact hclaimed start
  unfold fresh?
  simp only [isSelectedAbove_of_lt hlt, hselect, Option.any_some, hcontains, Bool.or_assoc]

end

/-- **A selection is left out if its literal was claimed before or is selected further up**, and in no other
    case. -/
theorem withoutRepeats_filterMap (select : Nat → Option (Flavor × Literal)) (claimed : List Nat)
    (first count : Nat) :
    withoutRepeats claimed ((List.range' first count).filterMap select)
      = (List.range' first count).filterMap (fresh? select claimed first) := by
  induction count generalizing first claimed with
  | zero => rfl
  | succ count ih =>
      have hbelow : ∀ n ∈ List.range' (first + 1) count, first < n := by
        intro n hn
        rw [List.mem_range'_1] at hn
        exact hn.1
      rw [List.range'_succ]
      cases hselect : select first with
      | none =>
          have hnone : fresh? select claimed first first = none := by
            unfold fresh?
            rw [hselect]
            rfl
          rw [List.filterMap_cons_none hselect, List.filterMap_cons_none hnone, ih]
          apply List.filterMap_congr
          intro n hn
          exact (fresh?_of_lt_of_none (hbelow n hn) hselect).symm
      | some selection =>
          rw [List.filterMap_cons_some hselect]
          by_cases hclaimed : selection.2.start ∈ claimed
          · have hstep : withoutRepeats claimed
                (selection :: (List.range' (first + 1) count).filterMap select)
                  = withoutRepeats claimed ((List.range' (first + 1) count).filterMap select) :=
              if_pos hclaimed
            rw [hstep, ih, List.filterMap_cons_none (fresh?_of_mem hselect hclaimed)]
            apply List.filterMap_congr
            intro n hn
            refine (fresh?_of_lt_of_some (hbelow n hn) hselect ?_).symm
            intro start
            constructor
            · exact .inl
            · rintro (hmem | rfl)
              · exact hmem
              · exact hclaimed
          · have hstep : withoutRepeats claimed
                (selection :: (List.range' (first + 1) count).filterMap select)
                  = selection :: withoutRepeats (selection.2.start :: claimed)
                      ((List.range' (first + 1) count).filterMap select) :=
              if_neg hclaimed
            rw [hstep, ih, List.filterMap_cons_some (fresh?_self hselect hclaimed)]
            apply congrArg (selection :: ·)
            apply List.filterMap_congr
            intro n hn
            refine (fresh?_of_lt_of_some (hbelow n hn) hselect ?_).symm
            intro start
            rw [List.mem_cons, or_comm, eq_comm]

/-! ## Lines -/

/-- The template that a line of a call adds to those of the lines above it, if it adds one. -/
def contribution? (document : Document) (config : Config) (call : Span) (n : Nat) :
    Option PlacedTemplate :=
  let text := CallText.of document call
  (fresh? (fun n => text.select? config.shapes n (document.line n)) [] call.start.line n).map
    fun selection => text.place selection.1 selection.2

/-- What a line adds is a literal that it selects. -/
theorem exists_select?_of_contribution? {document : Document} {config : Config} {call : Span} {n : Nat}
    {template : PlacedTemplate} (h : contribution? document config call n = some template) :
    ∃ selection,
      (CallText.of document call).select? config.shapes n (document.line n) = some selection := by
  obtain ⟨selection, hfresh, -⟩ := Option.map_eq_some_iff.mp h
  exact ⟨selection, (Option.filter_eq_some_iff.mp hfresh).1⟩

theorem templates_eq_contributions (document : Document) (config : Config) (call : Span) :
    templates document config call
      = (List.range' call.start.line (call.stop.line + 1 - call.start.line)).filterMap
          (contribution? document config call) := by
  rw [templates_eq, selections, withoutRepeats_filterMap, List.map_filterMap]
  rfl

end CallText

/-- **The templates of a document are what the lines of its calls add**, from top to bottom. -/
theorem highlight_eq_contributions (document : Document) (config : Config) :
    highlight document config = (calls document config).flatMap fun call =>
      (List.range' call.start.line (call.stop.line + 1 - call.start.line)).filterMap
        (CallText.contribution? document config call) := by
  rw [highlight]
  simp only [funext (CallText.templates_eq_contributions document config)]

/-! ## Matches in literals -/

namespace Literal

/-- Whether a literal has no closer and ends at an offset because the line ends there. -/
def IsCutAt (text : Bytes) (offset : Nat) (literal : Literal) : Prop :=
  literal.closed = false ∧ literal.stop = offset ∧ text[offset]? = some lineFeed

instance (text : Bytes) (offset : Nat) (literal : Literal) : Decidable (literal.IsCutAt text offset) :=
  inferInstanceAs (Decidable (_ ∧ _ ∧ _))

/-- A literal with a closer ends with a quote. -/
theorem getElem?_last {text : Bytes} {literal : Literal} (h : at? text literal.start = some literal)
    (hclosed : literal.closed = true) : text[literal.last]? = some quote := by
  obtain ⟨more, hcloser⟩ := literal.opener.exists_closer_eq
  have hstop := literal.stop_eq
  have hlast := literal.last_add_one
  have hextract := (delimits_of_at? h).closer_eq hclosed
  rw [hclosed, if_pos rfl, hcloser, List.length_replicate] at hstop
  rw [← closer_eq_replicate h, hcloser] at hextract
  have hmore : (List.replicate (more + 1) quote)[more]? = some quote := by
    rw [List.getElem?_replicate, if_pos (Nat.lt_succ_self more)]
  have hoffset : literal.contentStop + more = literal.last := by omega
  rw [← hoffset]
  exact Bytes.getElem?_of_extract hextract hmore

end Literal

namespace CallText

variable {document : Document} {call : Span} {shapes : Shapes} {n anchor : Nat} {line : Bytes}
  {selection : Flavor × Literal}

/-- The anchor of a line that selects something is behind every literal that it is not in front of. -/
theorem Selects.stop_le {text : CallText} (h : text.Selects shapes n line anchor selection)
    {literal : Literal} (hmem : literal ∈ text.literals) (hbehind : literal.start < anchor) :
    literal.stop ≤ anchor := by
  have hout : ¬ (decide (literal.start < anchor) && decide (anchor ≤ literal.last)) = true :=
    List.any_eq_false.mp h.isInLiteral_eq_false literal hmem
  have hlast := literal.last_add_one
  simp only [Bool.and_eq_true, decide_eq_true_eq] at hout
  omega

/-- A literal that has the byte in front of such an anchor ends with it, in a quote or because it is cut
    off. -/
theorem Selects.quote_or_isCutAt
    (h : (CallText.of document call).Selects shapes n line anchor selection) {literal : Literal}
    (hmem : literal ∈ Literal.all (CallText.of document call).window.text)
    (hbehind : literal.start < anchor) (hle : anchor ≤ literal.stop) :
    (CallText.of document call).window.text[anchor - 1]? = some quote ∨
      literal.IsCutAt (CallText.of document call).window.text anchor := by
  have hstop : literal.stop = anchor := Nat.le_antisymm (h.stop_le hmem hbehind) hle
  have hat : Literal.at? (CallText.of document call).window.text literal.start = some literal :=
    (Literal.at?_of_mem_allFrom rfl hmem).2
  have hlast := literal.last_add_one
  rw [hstop] at hlast
  cases hclosed : literal.closed with
  | true =>
      refine .inl ?_
      rw [← hlast, Nat.add_sub_cancel]
      exact Literal.getElem?_last hat hclosed
  | false =>
      have hcontent := (Literal.delimits_of_at? hat).contentStop_eq hclosed
      rw [hlast] at hcontent
      rcases Literal.contentStop_of_open hat hclosed with hend | hfeed
      · -- The literal that is selected starts behind the anchor, where no text is left.
        have hselected : Literal.Delimits (CallText.of document call).window.text selection.2 :=
          Literal.delimits_of_mem_all h.mem_literals
        have hbefore := (h.anchor_le.trans hselected.start_le_last).trans_lt hselected.last_lt
        rw [← hend, hcontent] at hbefore
        exact absurd hbefore (Nat.lt_irrefl anchor)
      · exact .inr ⟨hclosed, hstop, hcontent ▸ hfeed⟩

end CallText

/-- **A shape that is found in a string selects no template**, unless the string is cut off there. The
    templates of a document are what the lines of its calls add, and a line adds none if the last byte of its
    match is a byte of some literal in the lines of the call. The only exception is a literal without a closer
    that ends together with the match, at the end of a line. -/
theorem highlight_match_in_literal {document : Document} {config : Config} {call : Span} {n stop : Nat}
    {shape : Shape} (hshapes : config.shapes = Shapes.usual) (hcall : call ∈ calls document config)
    (hline : call.coversLine n = true)
    (hmatch : config.shapes.firstMatch? (document.line n) = some (shape, stop)) :
    (highlight document config = (calls document config).flatMap fun call =>
      (List.range' call.start.line (call.stop.line + 1 - call.start.line)).filterMap
        (CallText.contribution? document config call)) ∧
    ∃ start, (CallText.of document call).window.lineStart? n = some start ∧
      ∀ literal ∈ Literal.all (CallText.of document call).window.text,
        literal.start < start + stop → start + stop ≤ literal.stop →
        ¬ literal.IsCutAt (CallText.of document call).window.text (start + stop) →
        CallText.contribution? document config call n = none := by
  obtain ⟨hstart, hbelow⟩ := lines_of_mem_calls hcall
  obtain ⟨hfrom, hto⟩ := Span.coversLine_iff.mp hline
  have hfirst := CallText.firstLine_lt hstart hbelow
  have hlast : n < min (call.stop.line + 1) document.lineCount := by omega
  obtain ⟨k, b, rfl, hb, hmark⟩ := Shapes.exists_mark_of_firstMatch? (hshapes ▸ hmatch)
  have hcolumn := (List.getElem?_eq_some_iff.mp hb).1
  obtain ⟨start, hlineStart, -, hposition⟩ :=
    Window.exists_offset hfirst hfrom hlast (Nat.le_of_lt hcolumn)
  refine ⟨highlight_eq_contributions document config, start, hlineStart, ?_⟩
  intro literal hmem hbehind hle hcut
  by_contra hsome
  obtain ⟨template, hcontribution⟩ := Option.ne_none_iff_exists'.mp hsome
  obtain ⟨selection, hselect⟩ := CallText.exists_select?_of_contribution? hcontribution
  obtain ⟨anchor, hselects⟩ := CallText.exists_selects hselect
  obtain ⟨shape', start', stop', hmatch', hlineStart', rfl, -⟩ := hselects.exists_match
  obtain ⟨rfl, rfl⟩ := Prod.mk.inj (Option.some.inj (hmatch.symm.trans hmatch'))
  obtain rfl := Option.some.inj (hlineStart.symm.trans hlineStart')
  rcases hselects.quote_or_isCutAt hmem hbehind hle with hquote | hisCut
  · -- The match ends with a mark of its shape, which is no quote.
    have hbyte := (Window.getElem?_position hfirst hquote (by decide)).1
    rw [← Nat.add_assoc, Nat.add_sub_cancel, hposition, hb] at hbyte
    obtain rfl := Option.some.inj hbyte
    exact absurd hmark (by decide)
  · exact hcut hisCut

/-- A match in front of the closing quote of a string. -/
theorem highlight_match_in_literal_closed :
    ∃ document : Document, document = ⟨[Bytes.ofString "g(\"a .Debug(\", \"b\");"]⟩ ∧
      ({} : Config).shapes = Shapes.usual ∧
      ∃ call ∈ calls document {}, call.coversLine 0 = true ∧
        ∃ shape stop, ({} : Config).shapes.firstMatch? (document.line 0) = some (shape, stop) ∧
        ∃ start, (CallText.of document call).window.lineStart? 0 = some start ∧
        ∃ literal ∈ Literal.all (CallText.of document call).window.text,
          literal.start < start + stop ∧ start + stop ≤ literal.stop ∧
          ¬ literal.IsCutAt (CallText.of document call).window.text (start + stop) ∧
          CallText.contribution? document {} call 0 = none := by
  refine ⟨_, rfl, ?_⟩
  have hshapes : ({} : Config).shapes = Shapes.usual := rfl
  have hcall : ⟨⟨0, 0⟩, ⟨0, 20⟩⟩ ∈ calls ⟨[Bytes.ofString "g(\"a .Debug(\", \"b\");"]⟩ {} := by
    decide +kernel
  have hline : (⟨⟨0, 0⟩, ⟨0, 20⟩⟩ : Span).coversLine 0 = true := rfl
  have hstop : (({} : Config).shapes.firstMatch?
      (Document.line ⟨[Bytes.ofString "g(\"a .Debug(\", \"b\");"]⟩ 0)).map Prod.snd = some 12 := by
    decide +kernel
  have hmem : ⟨2, .regular, Bytes.ofString "a .Debug(", true⟩
      ∈ Literal.all (CallText.of ⟨[Bytes.ofString "g(\"a .Debug(\", \"b\");"]⟩
          ⟨⟨0, 0⟩, ⟨0, 20⟩⟩).window.text := by decide +kernel
  obtain ⟨⟨shape, stop⟩, hmatch, rfl⟩ := Option.map_eq_some_iff.mp hstop
  obtain ⟨-, start, hstart, hnone⟩ := highlight_match_in_literal hshapes hcall hline hmatch
  obtain rfl : start = 0 := Option.some.inj (hstart.symm.trans (by decide +kernel))
  have hcut : ¬ Literal.IsCutAt (CallText.of ⟨[Bytes.ofString "g(\"a .Debug(\", \"b\");"]⟩
      ⟨⟨0, 0⟩, ⟨0, 20⟩⟩).window.text (0 + 12) ⟨2, .regular, Bytes.ofString "a .Debug(", true⟩ := by
    decide +kernel
  exact ⟨hshapes, _, hcall, hline, shape, 12, hmatch, 0, hstart, _, hmem, by decide, by decide, hcut,
    hnone _ hmem (by decide) (by decide) hcut⟩

/-- A match at the end of its line, in a string without a closer, selects the string on the next line. -/
theorem highlight_match_ends_literal :
    ∃ document : Document,
      document = ⟨[Bytes.ofString "g(\"f.Debug(", Bytes.ofString "\"\x7bA\x7d\");"]⟩ ∧
      ({} : Config).shapes = Shapes.usual ∧ ({} : Config).limits.check = .ok ({} : Config).limits ∧
      ∃ call ∈ calls document {}, call.coversLine 0 = true ∧
        ∃ shape stop, ({} : Config).shapes.firstMatch? (document.line 0) = some (shape, stop) ∧
        ∃ start, (CallText.of document call).window.lineStart? 0 = some start ∧
        (∃ literal ∈ Literal.all (CallText.of document call).window.text,
          literal.start < start + stop ∧ start + stop ≤ literal.stop) ∧
        ∃ template ∈ highlight document {},
          CallText.contribution? document {} call 0 = some template := by
  refine ⟨_, rfl, rfl, rfl, ?_⟩
  have hcall : ⟨⟨0, 0⟩, ⟨1, 7⟩⟩
      ∈ calls ⟨[Bytes.ofString "g(\"f.Debug(", Bytes.ofString "\"\x7bA\x7d\");"]⟩ {} := by
    decide +kernel
  have hline : (⟨⟨0, 0⟩, ⟨1, 7⟩⟩ : Span).coversLine 0 = true := rfl
  have hstop : (({} : Config).shapes.firstMatch? (Document.line
      ⟨[Bytes.ofString "g(\"f.Debug(", Bytes.ofString "\"\x7bA\x7d\");"]⟩ 0)).map Prod.snd
        = some 11 := by decide +kernel
  have hstart : (CallText.of ⟨[Bytes.ofString "g(\"f.Debug(", Bytes.ofString "\"\x7bA\x7d\");"]⟩
      ⟨⟨0, 0⟩, ⟨1, 7⟩⟩).window.lineStart? 0 = some 0 := by decide +kernel
  have hmem : ⟨2, .regular, Bytes.ofString "f.Debug(", false⟩
      ∈ Literal.all (CallText.of
          ⟨[Bytes.ofString "g(\"f.Debug(", Bytes.ofString "\"\x7bA\x7d\");"]⟩
          ⟨⟨0, 0⟩, ⟨1, 7⟩⟩).window.text := by decide +kernel
  have hcontribution : CallText.contribution?
      ⟨[Bytes.ofString "g(\"f.Debug(", Bytes.ofString "\"\x7bA\x7d\");"]⟩ {} ⟨⟨0, 0⟩, ⟨1, 7⟩⟩ 0
      = some ⟨.message, .regular, ⟨⟨1, 0⟩, ⟨1, 5⟩⟩, Bytes.ofString "\x7bA\x7d",
        [⟨.brace, ⟨⟨1, 1⟩, ⟨1, 2⟩⟩⟩, ⟨.property, ⟨⟨1, 2⟩, ⟨1, 3⟩⟩⟩, ⟨.brace, ⟨⟨1, 3⟩, ⟨1, 4⟩⟩⟩]⟩ := by
    decide +kernel
  have htemplate : ⟨.message, .regular, ⟨⟨1, 0⟩, ⟨1, 5⟩⟩, Bytes.ofString "\x7bA\x7d",
        [⟨.brace, ⟨⟨1, 1⟩, ⟨1, 2⟩⟩⟩, ⟨.property, ⟨⟨1, 2⟩, ⟨1, 3⟩⟩⟩, ⟨.brace, ⟨⟨1, 3⟩, ⟨1, 4⟩⟩⟩]⟩
      ∈ highlight ⟨[Bytes.ofString "g(\"f.Debug(", Bytes.ofString "\"\x7bA\x7d\");"]⟩ {} := by
    decide +kernel
  obtain ⟨⟨shape, stop⟩, hmatch, rfl⟩ := Option.map_eq_some_iff.mp hstop
  exact ⟨_, hcall, hline, shape, 11, hmatch, 0, hstart, ⟨_, hmem, by decide, by decide⟩, _, htemplate,
    hcontribution⟩

end LogMarkup
