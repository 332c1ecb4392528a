import LogMarkup.Literal.Basic
import LogMarkup.Proofs.Text.Enclosed
import LogMarkup.Proofs.Text.Slice

/-!
# `LogMarkup.Proofs.Literal.Layout` — how a literal stands in its text

A literal is read as an opener, a content and possibly a closer, each from the end of the one before.
So its own text is a beginning of the text that it is read from, and all of its offsets follow from
the lengths of the three parts.

## Contents
- **Openers.** `Opener.read?_cases`, everything that an opener can be, and from it
  `Opener.text_isPrefix`; `Opener.closer_isPrefix`: no rule closes a literal but at its closer.
- **Literals.** `Literal.text_isPrefix`, and `Literal.Delimits`, what the offsets of a literal say
  about the text around them, with `Literal.delimits_of_at?`.
-/

namespace LogMarkup

open Ascii

namespace Opener

/-! ## Openers -/

/-- **Everything that the opener at the head of a text can be**, with the signs and quotes that decide
    for it. -/
theorem read?_cases {text : Bytes} {opener : Opener} (h : read? text = some opener) :
    (∃ extraQuotes, opener = raw (text.run dollar) extraQuotes ∧
        Bytes.run quote (text.drop (text.run dollar)) = extraQuotes + 3) ∨
    (opener = regular ∧ 1 ≤ text.run quote ∧ text.run quote < 3) ∨
    (opener = verbatim ∧ [atSign, quote] <+: text) ∨
    (opener = verbatimInterpolated false ∧ [atSign, dollar, quote] <+: text) ∨
    (opener = interpolated ∧ text.run dollar = 1 ∧
        1 ≤ Bytes.run quote (text.drop 1) ∧ Bytes.run quote (text.drop 1) < 3) ∨
    (opener = verbatimInterpolated true ∧ text.run dollar = 1 ∧
        [atSign, quote] <+: text.drop 1) := by
  simp only [read?, List.isPrefixOf_iff_prefix] at h
  by_cases hraw : 3 ≤ Bytes.run quote (text.drop (text.run dollar))
  · rw [if_pos hraw] at h
    exact .inl ⟨_, (Option.some.inj h).symm, by omega⟩
  · rw [if_neg hraw] at h
    rcases hdollars : text.run dollar with _ | _ | more
    · simp only [hdollars, List.drop_zero, if_true] at h hraw
      split at h
      · exact .inr (.inl ⟨(Option.some.inj h).symm, by omega, by omega⟩)
      · split at h
        · exact .inr (.inr (.inl ⟨(Option.some.inj h).symm, by assumption⟩))
        · split at h
          · exact .inr (.inr (.inr (.inl ⟨(Option.some.inj h).symm, by assumption⟩)))
          · exact absurd h (by simp)
    · simp only [hdollars, Nat.zero_add, Nat.one_ne_zero, if_true, if_false] at h hraw
      split at h
      · exact .inr (.inr (.inr (.inr (.inl ⟨(Option.some.inj h).symm, rfl, by omega, by omega⟩))))
      · split at h
        · exact .inr (.inr (.inr (.inr (.inr ⟨(Option.some.inj h).symm, rfl, by assumption⟩))))
        · exact absurd h (by simp)
    · exact absurd h (by simp [hdollars])

/-- The opener that is read stands at the head of the text. -/
theorem text_isPrefix {text : Bytes} {opener : Opener} (h : read? text = some opener) :
    opener.text <+: text := by
  have hdollars : List.replicate (text.run dollar) dollar <+: text :=
    Bytes.replicate_isPrefix (Nat.le_refl _)
  obtain ⟨extraQuotes, rfl, hquotes⟩ | ⟨rfl, hquote, -⟩ | ⟨rfl, hhead⟩ | ⟨rfl, hhead⟩ |
    ⟨rfl, hone, hquote, -⟩ | ⟨rfl, hone, hhead⟩ := read?_cases h
  · rw [Opener.text, ← hquotes]
    refine Bytes.append_isPrefix_iff.mpr ⟨hdollars, ?_⟩
    rw [List.length_replicate]
    exact Bytes.replicate_isPrefix (Nat.le_refl _)
  · exact Bytes.replicate_isPrefix hquote
  · exact hhead
  · exact hhead
  · rw [hone] at hdollars
    exact Bytes.append_isPrefix_iff.mpr ⟨hdollars, Bytes.replicate_isPrefix hquote⟩
  · rw [hone] at hdollars
    exact Bytes.append_isPrefix_iff.mpr ⟨hdollars, hhead⟩

theorem moveBrace_ne_close (depth : Nat) (b : UInt8) (rest : Bytes) :
    moveBrace depth b rest ≠ .close := by
  unfold moveBrace
  split
  · simp
  · split <;> simp

theorem eq_quote_of_moveInLine {depth : Nat} {b : UInt8} {rest : Bytes}
    (h : moveInLine depth b rest = .close) : b = quote := by
  by_contra hne
  rw [moveInLine, if_neg hne] at h
  split at h
  · split at h <;> exact absurd h (by simp)
  · split at h <;> exact absurd h (by simp)

theorem eq_quote_of_moveVerbatim {depth : Nat} {b : UInt8} {rest : Bytes}
    (h : moveVerbatim depth b rest = .close) : b = quote := by
  by_contra hne
  rw [moveVerbatim, if_neg hne] at h
  exact absurd h (by simp)

theorem eq_quote_of_moveInterpolated {depth : Nat} {b : UInt8} {rest : Bytes}
    (h : moveInterpolated depth b rest = .close) : b = quote := by
  unfold moveInterpolated at h
  split at h
  · exact absurd h (moveBrace_ne_close depth b rest)
  · split at h
    · exact eq_quote_of_moveInLine h
    · split at h <;> exact absurd h (by simp)

theorem eq_quote_of_moveVerbatimInterpolated {depth : Nat} {b : UInt8} {rest : Bytes}
    (h : moveVerbatimInterpolated depth b rest = .close) : b = quote := by
  unfold moveVerbatimInterpolated at h
  split at h
  · exact absurd h (moveBrace_ne_close depth b rest)
  · split at h
    · exact eq_quote_of_moveVerbatim h
    · exact absurd h (by simp)

/-- No rule closes a literal but where the closer of its opener stands. -/
theorem closer_isPrefix {opener : Opener} {depth : Nat} {b : UInt8} {rest : Bytes}
    (h : opener.move depth b rest = .close) : opener.closer <+: b :: rest := by
  have hquote (hb : b = quote) : [quote] <+: b :: rest := ⟨rest, by rw [hb]; rfl⟩
  cases opener with
  | regular => exact hquote (eq_quote_of_moveInLine h)
  | verbatim => exact hquote (eq_quote_of_moveVerbatim h)
  | raw dollars extraQuotes =>
      simp only [move, moveRaw, List.isPrefixOf_iff_prefix] at h
      split at h
      · next hcloser => exact hcloser
      · exact absurd h (by simp)
  | interpolated => exact hquote (eq_quote_of_moveInterpolated h)
  | verbatimInterpolated dollarFirst => exact hquote (eq_quote_of_moveVerbatimInterpolated h)

end Opener

/-! ## Literals -/

namespace Literal

/-- A literal is read at its offset, by its opener and by the walk behind that. -/
theorem read?_eq_some_iff {start : Nat} {text : Bytes} {literal : Literal} :
    read? start text = some literal ↔
      literal.start = start ∧ Opener.read? text = some literal.opener ∧
        Enclosed.read literal.opener.move 0 (text.drop literal.opener.text.length)
          = ⟨literal.content, literal.closed⟩ := by
  unfold read?
  constructor
  · intro h
    split at h
    · exact absurd h (by simp)
    · next opener hopener =>
        obtain rfl := Option.some.inj h
        exact ⟨rfl, hopener, rfl⟩
  · rintro ⟨rfl, hopener, hread⟩
    simp only [hopener, hread]

/-- The literal at the head of a text does not depend on where the text stands. -/
theorem read?_eq_map (start : Nat) (text : Bytes) :
    read? start text = (read? 0 text).map fun literal => { literal with start := start } := by
  unfold read?
  split <;> rfl

/-- **The literal that is read stands at the head of the text**, from its opener to its closer. -/
theorem text_isPrefix {start : Nat} {text : Bytes} {literal : Literal}
    (h : read? start text = some literal) : literal.text <+: text := by
  obtain ⟨-, hopener, hread⟩ := read?_eq_some_iff.mp h
  have hclose : ∀ depth b rest, literal.opener.move depth b rest = .close →
      literal.opener.closer <+: b :: rest := fun _ _ _ => Opener.closer_isPrefix
  have hcontent := Enclosed.content_append_closer_isPrefix hclose 0
    (text.drop literal.opener.text.length)
  rw [hread] at hcontent
  rw [Literal.text, List.append_assoc]
  exact Bytes.append_isPrefix_iff.mpr ⟨Opener.text_isPrefix hopener, hcontent⟩

/-! ## Offsets -/

theorem stop_eq (literal : Literal) : literal.stop =
    literal.contentStop + (if literal.closed then literal.opener.closer else []).length := by
  simp only [stop, width, text, contentStop, contentStart, List.length_append]
  omega

theorem last_add_one (literal : Literal) : literal.last + 1 = literal.stop := by
  have hwidth := literal.width_pos
  unfold last stop
  omega

/-- How many quotes open a literal of the text: a raw literal counts all quotes behind its dollar signs,
    and every other one has a single quote. -/
def openingQuotes (text : Bytes) (literal : Literal) : Nat :=
  let behind : Bytes := text.drop literal.start
  if literal.kind = .raw then Bytes.run quote (behind.drop (behind.run dollar)) else 1

/-- What the offsets of a literal say about the text that it stands in. -/
structure Delimits (text : Bytes) (literal : Literal) : Prop where
  start_le_last : literal.start ≤ literal.last
  last_lt : literal.last < text.length
  start_lt_contentStart : literal.start < literal.contentStart
  contentStart_le_contentStop : literal.contentStart ≤ literal.contentStop
  contentStop_le : literal.contentStop ≤ literal.last + 1
  content_eq : literal.content = text.extract literal.contentStart literal.contentStop
  /-- Without a closer the content goes on to the end of the literal. -/
  contentStop_eq : literal.closed = false → literal.contentStop = literal.last + 1
  /-- The closer has as many quotes as the opener. -/
  closer_eq : literal.closed = true →
    text.extract literal.contentStop (literal.last + 1)
      = List.replicate (openingQuotes text literal) quote

/-- The closer of a literal is made of as many quotes as open it. -/
theorem closer_eq_replicate {text : Bytes} {literal : Literal}
    (h : at? text literal.start = some literal) :
    literal.opener.closer = List.replicate (openingQuotes text literal) quote := by
  have hopener := (read?_eq_some_iff.mp h).2.1
  unfold openingQuotes kind
  obtain ⟨extraQuotes, ho, hquotes⟩ | ⟨ho, -⟩ | ⟨ho, -⟩ | ⟨ho, -⟩ | ⟨ho, -⟩ | ⟨ho, -⟩ :=
    Opener.read?_cases hopener
  · simp only [ho, Opener.kind, if_true, hquotes]
    rfl
  all_goals
    rw [ho]
    rfl

/-- **The offsets of a literal are those of its parts in the text.** -/
theorem delimits_of_at? {text : Bytes} {literal : Literal}
    (h : at? text literal.start = some literal) : Delimits text literal := by
  have htext : literal.text <+: text.drop literal.start := text_isPrefix h
  have hwidth := literal.width_pos
  have hopener := literal.opener.length_text_pos
  have hlast := literal.last_add_one
  have hstop := literal.stop_eq
  have hlength : literal.width ≤ text.length - literal.start := by
    rw [← List.length_drop]
    exact htext.length_le
  obtain ⟨hparts, hcloser⟩ := Bytes.append_isPrefix_iff.mp htext
  obtain ⟨-, hcontent⟩ := Bytes.append_isPrefix_iff.mp hparts
  rw [List.drop_drop] at hcontent hcloser
  refine ⟨?_, ?_, ?_, ?_, ?_, ?_, ?_, ?_⟩
  · unfold last stop
    omega
  · unfold stop at hlast
    omega
  · unfold contentStart
    omega
  · unfold contentStop
    omega
  · omega
  · exact (Bytes.extract_of_isPrefix hcontent).symm
  · intro hopen
    rw [hopen] at hstop
    exact (hlast.trans hstop).symm
  · intro hclosed
    rw [hclosed, if_pos rfl, List.length_append, ← Nat.add_assoc] at hcloser
    rw [← closer_eq_replicate h, hlast, hstop, hclosed, if_pos rfl]
    exact Bytes.extract_of_isPrefix hcloser

end Literal

end LogMarkup
