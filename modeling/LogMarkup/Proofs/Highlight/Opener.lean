import LogMarkup.Proofs.Highlight.Placement

/-!
# `LogMarkup.Proofs.Highlight.Opener` — how templates start in the document

A literal with holes of the host language is no template, and it is told by its kind. Its opener decides
over the kind: a dollar sign and one quote, with an at sign between them or in front of both, are the
openers of literals with holes. So a template starts with quotes, or with an at sign and a quote.

But raw literals are all of one kind, and with dollar signs they have such holes, too. These are the only
templates that start with a dollar sign.

## Contents
- **Openers.** `Opener.text_cases`, for those of literals that may be templates.
- **Documents.** `highlight_opener` — what the first bytes of a template say about it — and
  `highlight_raw_holes`, where a literal with holes of the host language is a template.
-/

namespace LogMarkup

open Ascii

/-! ## Openers -/

/-- The openers of literals without holes, as far as their kind can tell. -/
theorem Opener.text_cases {opener : Opener} (h : opener.kind ≠ .interpolated) :
    [quote] <+: opener.text ∨ [atSign, quote] <+: opener.text ∨
      (opener.kind = .raw ∧ ∃ dollars, 0 < dollars ∧
        List.replicate dollars dollar ++ List.replicate 3 quote <+: opener.text) := by
  cases opener with
  | regular => exact .inl List.prefix_rfl
  | verbatim => exact .inr (.inl List.prefix_rfl)
  | raw dollars extraQuotes =>
      have hquotes : List.replicate 3 quote <+: List.replicate (extraQuotes + 3) quote := by
        rw [Nat.add_comm, List.replicate_add]
        exact List.prefix_append _ _
      rcases Nat.eq_zero_or_pos dollars with rfl | hpos
      · exact .inl ((List.prefix_append [quote] _).trans hquotes)
      · exact .inr (.inr ⟨rfl, dollars, hpos, (List.prefix_append_right_inj _).mpr hquotes⟩)
  | interpolated => exact absurd rfl h
  | verbatimInterpolated dollarFirst => exact absurd rfl h

/-! ## Documents -/

/-- A template reads in the document as the literal that it stands for. -/
theorem PlacedTemplate.StandsFor.read_span {document : Document} {config : Config} {call : Span}
    {literal : Literal} {template : PlacedTemplate}
    (h : template.StandsFor document config call literal)
    (hcall : call ∈ calls document config) : document.read template.span = literal.text := by
  obtain ⟨hstart, hstop⟩ := lines_of_mem_calls hcall
  have hlength := literal.stop_le_length h.mem_literals
  have horigin : literal.start ≤ literal.stop := Nat.le_add_right _ _
  rw [h.eq_place]
  exact (Document.read_span (CallText.firstLine_lt hstart hstop) (horigin.trans hlength) hlength).trans
    (Literal.extract_eq_text h.mem_literals)

/-- **Templates do not start like literals with holes of the host language, unless they are raw.** No
    template starts with an at sign and a dollar sign, and those that start with a dollar sign are raw
    literals: behind all of their dollar signs there are three quotes. -/
theorem highlight_opener {document : Document} {config : Config} {template : PlacedTemplate}
    (h : template ∈ highlight document config) :
    ¬ [atSign, dollar] <+: document.read template.span ∧
    ([dollar] <+: document.read template.span → template.kind = .raw ∧ ∃ dollars, 0 < dollars ∧
      List.replicate dollars dollar ++ List.replicate 3 quote <+: document.read template.span) := by
  obtain ⟨call, hcall, hin⟩ := List.mem_flatMap.mp h
  obtain ⟨hstart, hstop⟩ := lines_of_mem_calls hcall
  obtain ⟨literal, hstands⟩ := CallText.exists_standsFor hstart hstop hin
  have hkind : template.kind = literal.opener.kind := by
    rw [hstands.eq_place]
    rfl
  have hopener : literal.opener.text <+: literal.text := by
    rw [Literal.text, List.append_assoc]
    exact List.prefix_append _ _
  -- Two beginnings of one text agree on their first bytes.
  have hagree : ∀ {first second : Bytes}, first <+: literal.text → second <+: literal.text →
      first.length ≤ second.length → first <+: second :=
    fun hfirst hsecond => List.prefix_of_prefix_length_le hfirst hsecond
  rw [hstands.read_span hcall, hkind]
  rcases Opener.text_cases hstands.kind_ne with hquote | hverbatim | ⟨hraw, dollars, hpos, hdollars⟩
  · have hbegins := hquote.trans hopener
    refine ⟨fun hat => ?_, fun hdollar => ?_⟩
    · exact absurd (hagree hbegins hat (by decide)) (by decide)
    · exact absurd (hagree hbegins hdollar (by decide)) (by decide)
  · have hbegins := hverbatim.trans hopener
    refine ⟨fun hat => ?_, fun hdollar => ?_⟩
    · exact absurd (hagree hbegins hat (by decide)) (by decide)
    · exact absurd (hagree hdollar hbegins (by decide)) (by decide)
  · have hbegins := hdollars.trans hopener
    refine ⟨?_, fun _ => ⟨hraw, dollars, hpos, hbegins⟩⟩
    intro hat
    obtain ⟨more, rfl⟩ := Nat.exists_eq_add_of_le' hpos
    have hdollar : [dollar] <+: literal.text := by
      refine List.IsPrefix.trans ?_ hbegins
      rw [List.replicate_succ]
      exact List.prefix_append [dollar] _
    exact absurd (hagree hdollar hat (by decide)) (by decide)

/-- A raw template with two dollar signs. -/
theorem highlight_opener_two_dollars :
    ∃ document : Document, document = ⟨[Bytes.ofString "f.Debug($$\"\"\"a\"\"\");"]⟩ ∧
      ∃ template ∈ highlight document {}, template.content = Bytes.ofString "a" ∧
        [dollar] <+: document.read template.span ∧
        ¬ [atSign, dollar] <+: document.read template.span ∧ template.kind = .raw := by
  refine ⟨_, rfl, ?_⟩
  have hmem : (⟨.message, .raw, ⟨⟨0, 8⟩, ⟨0, 17⟩⟩, Bytes.ofString "a", []⟩ : PlacedTemplate)
      ∈ highlight ⟨[Bytes.ofString "f.Debug($$\"\"\"a\"\"\");"]⟩ {} := by decide +kernel
  obtain ⟨hat, hdollar⟩ := highlight_opener hmem
  have hbegins : [dollar] <+: Document.read ⟨[Bytes.ofString "f.Debug($$\"\"\"a\"\"\");"]⟩
      ⟨⟨0, 8⟩, ⟨0, 17⟩⟩ := by decide +kernel
  exact ⟨_, hmem, rfl, hbegins, hat, (hdollar hbegins).1⟩

/-- A raw literal with a dollar sign is a template, although the hole in it belongs to the host language. -/
theorem highlight_raw_holes :
    ∃ document : Document, document = ⟨[Bytes.ofString "f.Debug($\"\"\"\x7bA\x7d\"\"\");"]⟩ ∧
      ∃ template ∈ highlight document {}, template.kind = .raw ∧
        template.content = Bytes.ofString "\x7bA\x7d" ∧
        [dollar] <+: document.read template.span := by
  refine ⟨_, rfl, ⟨.message, .raw, ⟨⟨0, 8⟩, ⟨0, 18⟩⟩, Bytes.ofString "\x7bA\x7d",
    [⟨.brace, ⟨⟨0, 12⟩, ⟨0, 13⟩⟩⟩, ⟨.property, ⟨⟨0, 13⟩, ⟨0, 14⟩⟩⟩,
      ⟨.brace, ⟨⟨0, 14⟩, ⟨0, 15⟩⟩⟩]⟩, by decide +kernel, rfl, rfl, by decide +kernel⟩

end LogMarkup
