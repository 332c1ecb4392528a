import LogMarkup.Highlight
import LogMarkup.Proofs.Call.Cover
import LogMarkup.Proofs.Literal.Decomposition

/-!
# `LogMarkup.Proofs.Highlight.Selection` — which literals the lines of a call select

Each line looks for its literal from the end of its match on, its anchor. An anchor is on its own line,
so further down the anchors lie further behind, and so do the literals that are found from them. Two
lines may find the same literal, but then no other line finds one in between: with the repeats left out,
what remains is in strict order.

## Contents
- **One line.** `CallText.Selects`, what it takes for a line to select a literal, with
  `CallText.Selects.start_le`.
- **All lines.** `CallText.selections`, with `CallText.pairwise_selections`.
- **Repeats.** `CallText.mem_of_mem_withoutRepeats` and `CallText.pairwise_withoutRepeats`.
-/

namespace LogMarkup

namespace CallText

/-! ## One line -/

/-- A line with a match that ends at an anchor selects the first literal from there on, if the anchor is
    not inside of a literal and the literal belongs to the templates. -/
structure Selects (text : CallText) (shapes : Shapes) (n : Nat) (line : Bytes) (anchor : Nat)
    (selection : Flavor × Literal) : Prop where
  exists_match : ∃ shape start stop, shapes.firstMatch? line = some (shape, stop) ∧
    text.window.lineStart? n = some start ∧ anchor = start + stop ∧ selection.1 = shape.flavor
  isInLiteral_eq_false : text.isInLiteral anchor = false
  find?_eq_some :
    text.literals.find? (fun literal => anchor ≤ literal.start) = some selection.2
  kind_ne : selection.2.kind ≠ .interpolated

variable {text : CallText} {shapes : Shapes} {n : Nat} {line : Bytes} {anchor : Nat}
  {selection : Flavor × Literal}

theorem exists_selects (h : text.select? shapes n line = some selection) :
    ∃ anchor, text.Selects shapes n line anchor selection := by
  unfold select? at h
  split at h
  · next shape stop start hmatch hstart =>
      extract_lets anchor at h
      by_cases hin : text.isInLiteral anchor = true
      · rw [if_pos hin] at h
        exact absurd h (by simp)
      · rw [if_neg hin] at h
        split at h
        · exact absurd h (by simp)
        · next literal hfind =>
            by_cases hkind : literal.kind = .interpolated
            · rw [if_pos hkind] at h
              exact absurd h (by simp)
            · rw [if_neg hkind] at h
              obtain rfl := Option.some.inj h
              exact ⟨anchor, ⟨shape, start, stop, hmatch, hstart, rfl, rfl⟩,
                Bool.not_eq_true _ ▸ hin, hfind, hkind⟩
  · exact absurd h (by simp)

namespace Selects

theorem mem_literals (h : text.Selects shapes n line anchor selection) :
    selection.2 ∈ text.literals := List.mem_of_find?_eq_some h.find?_eq_some

theorem anchor_le (h : text.Selects shapes n line anchor selection) :
    anchor ≤ selection.2.start := by
  have hfound := List.find?_some h.find?_eq_some
  exact of_decide_eq_true hfound

/-- From a later anchor no earlier literal is selected. -/
theorem start_le {shapes' : Shapes} {n' anchor' : Nat} {line' : Bytes}
    {selection' : Flavor × Literal}
    (hsorted : text.literals.Pairwise fun first second => first.start ≤ second.start)
    (h : text.Selects shapes n line anchor selection)
    (h' : text.Selects shapes' n' line' anchor' selection') (hle : anchor ≤ anchor') :
    selection.2.start ≤ selection'.2.start := by
  obtain ⟨-, before, behind, hliterals, hbefore⟩ :=
    List.find?_eq_some_iff_append.mp h.find?_eq_some
  have hreached : anchor ≤ selection'.2.start := hle.trans h'.anchor_le
  have hmem := h'.mem_literals
  rw [hliterals] at hmem hsorted
  rcases List.mem_append.mp hmem with hin | hin
  · exact absurd hreached (by simpa using hbefore _ hin)
  rcases List.mem_cons.mp hin with heq | hin
  · rw [heq]
  · exact (List.pairwise_cons.mp (List.pairwise_append.mp hsorted).2.1).1 _ hin

end Selects

/-! ## All lines -/

section

variable {document : Document} {call : Span} (config : Config)

/-- What the lines of a call select, from top to bottom. -/
def selections (document : Document) (config : Config) (call : Span) : List (Flavor × Literal) :=
  (List.range' call.start.line (call.stop.line + 1 - call.start.line)).filterMap fun n =>
    (CallText.of document call).select? config.shapes n (document.line n)

theorem templates_eq (document : Document) (config : Config) (call : Span) :
    templates document config call =
      (withoutRepeats [] (selections document config call)).map fun selection =>
        (CallText.of document call).place selection.1 selection.2 := rfl

theorem pairwise_literals (document : Document) (call : Span) :
    (CallText.of document call).literals.Pairwise
      fun first second => first.start ≤ second.start := by
  refine (Literal.pairwise_allFrom List.drop_zero).imp ?_
  intro first second hlt
  have hlast := first.last_add_one
  have hwidth := first.width_pos
  rw [Literal.stop] at hlast
  omega

/-- What a call selects is selected by one of its lines. -/
theorem exists_line_of_mem_selections {selection : Flavor × Literal}
    (h : selection ∈ selections document config call) :
    ∃ n, call.start.line ≤ n ∧ n ≤ call.stop.line ∧
      ∃ anchor, (CallText.of document call).Selects config.shapes n (document.line n) anchor
        selection := by
  obtain ⟨n, hn, hselect⟩ := List.mem_filterMap.mp h
  rw [List.mem_range'_1] at hn
  exact ⟨n, hn.1, by omega, exists_selects hselect⟩

/-- **The lines of a call select their literals from left to right.** -/
theorem pairwise_selections (hstart : call.start.line ≤ call.stop.line)
    (hstop : call.stop.line < document.lineCount) :
    (selections document config call).Pairwise fun first second =>
      first.2.start ≤ second.2.start := by
  have hfirst : call.start.line < min (call.stop.line + 1) document.lineCount := by omega
  refine List.pairwise_filterMap.mpr (List.Pairwise.imp_of_mem ?_ List.pairwise_lt_range')
  intro n n' hn hn' hlt selection hselect selection' hselect'
  rw [List.mem_range'_1] at hn hn'
  obtain ⟨anchor, h⟩ := exists_selects hselect
  obtain ⟨anchor', h'⟩ := exists_selects hselect'
  refine h.start_le (pairwise_literals document call) h' ?_
  -- The first match ends on its own line, above the line of the second one.
  obtain ⟨shape, start, stop, hmatch, hline, rfl, -⟩ := h.exists_match
  obtain ⟨shape', start', stop', -, hline', rfl, -⟩ := h'.exists_match
  have habove := Window.lineStart?_add_lt hfirst hn.1 hlt (by omega)
    (Shapes.firstMatch?_le hmatch) hline hline'
  omega

end

/-! ## Repeats -/

theorem mem_of_mem_withoutRepeats {claimed : List Nat} {selections : List (Flavor × Literal)}
    {selection : Flavor × Literal} (h : selection ∈ withoutRepeats claimed selections) :
    selection ∈ selections ∧ selection.2.start ∉ claimed := by
  fun_induction withoutRepeats claimed selections with
  | case1 => exact absurd h (by simp)
  | case2 claimed flavor literal selections _ ih =>
      obtain ⟨hmem, hfresh⟩ := ih h
      exact ⟨List.mem_cons_of_mem _ hmem, hfresh⟩
  | case3 claimed flavor literal selections hfresh ih =>
      rcases List.mem_cons.mp h with rfl | hmem
      · exact ⟨List.mem_cons_self, hfresh⟩
      · obtain ⟨hmem, hother⟩ := ih hmem
        exact ⟨List.mem_cons_of_mem _ hmem, fun hin => hother (List.mem_cons_of_mem _ hin)⟩

/-- **Selections in order are in strict order without their repeats.** -/
theorem pairwise_withoutRepeats {claimed : List Nat} {selections : List (Flavor × Literal)}
    (h : selections.Pairwise fun first second => first.2.start ≤ second.2.start) :
    (withoutRepeats claimed selections).Pairwise fun first second =>
      first.2.start < second.2.start := by
  fun_induction withoutRepeats claimed selections with
  | case1 => exact .nil
  | case2 claimed flavor literal selections _ ih => exact ih (List.pairwise_cons.mp h).2
  | case3 claimed flavor literal selections _ ih =>
      obtain ⟨hle, hrest⟩ := List.pairwise_cons.mp h
      refine List.pairwise_cons.mpr ⟨?_, ih hrest⟩
      intro selection hselection
      obtain ⟨hmem, hfresh⟩ := mem_of_mem_withoutRepeats hselection
      -- The literal is claimed from here on, so none of the rest starts where it does.
      have hne : selection.2.start ≠ literal.start := by
        intro heq
        exact hfresh (heq ▸ List.mem_cons_self)
      have hbehind : literal.start ≤ selection.2.start := hle selection hmem
      show literal.start < selection.2.start
      omega

end CallText

end LogMarkup
