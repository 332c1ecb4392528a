import LogMarkup.Proofs.BracePair.Document
import LogMarkup.Proofs.Message.Covering
import LogMarkup.Proofs.Source.Prefix

/-!
# `LogMarkup.Proofs.BracePair.Window` — one pair of braces in several windows

The window in which a pair of braces is looked for depends on the line of the position, and so do its
first and its last line. Windows that start on the same line show the same text, as far as the shorter one
goes, and the same literals in it, except that the last one may be cut off there. But it is cut off at the
end of a line, where nothing in front of it changes its meaning. So a pair of braces is seen in every
window that has the line of its closing brace.

## Contents
- **Contents.** `coverEscapesFrom_append`, and `IsBracePair.of_isPrefix` with its converse
  `IsBracePair.of_isPrefix_of_lt`.
- **Windows.** `Literal.exists_isBracePair`, the literal of a pair in another window, and
  `Literal.spanOf_eq`.
- **Positions.** `line_eq_of_isAtBraces`, the lines from which a pair is found, and
  `bracePairAt?_of_isAtBraces`, the positions from which it is found.
-/

namespace LogMarkup

open Ascii

/-! ## Contents -/

/-- Doubled braces are covered on each line by itself, as far as the end of the line is concerned. -/
theorem coverEscapesFrom_append (inHole : Bool) (content : Bytes) {behind : Bytes}
    (hbehind : behind.FollowsLine) :
    coverEscapesFrom inHole content <+: coverEscapesFrom inHole (content ++ behind) := by
  -- The byte behind the content is a line feed, which is no half of a doubled brace.
  have hcut : ¬ (content ++ behind).CutsPair content.length := by
    rintro ⟨-, b, hb, -, hnext⟩
    rw [List.getElem?_append_right (Nat.le_refl _), Nat.sub_self, ← List.head?_eq_getElem?] at hnext
    obtain rfl := hbehind b hnext
    exact absurd hb (by decide)
  have htake := (coverEscapesFrom_eq_iff.mp (Eq.refl (coverEscapesFrom inHole (content ++ behind)))).take hcut
  rw [List.take_left] at htake
  rw [coverEscapesFrom_eq_iff.mpr htake]
  exact List.take_prefix _ _

namespace IsBracePair

variable {content whole : Bytes} {distance opening closing : Nat}

/-- Only the bytes up to the closing brace matter. -/
theorem congr (hget : ∀ offset ≤ closing, whole[offset]? = content[offset]?)
    (h : IsBracePair content distance opening closing) :
    IsBracePair whole distance opening closing := by
  refine ⟨h.opening_lt, ?_, ?_, ?_, h.le_distance⟩
  · rw [hget _ (Nat.le_of_lt h.opening_lt)]
    exact h.getElem?_opening
  · rw [hget _ (Nat.le_refl _)]
    exact h.getElem?_closing
  · intro offset hlow hhigh
    rw [hget _ (Nat.le_of_lt hhigh)]
    exact h.isBrace_eq_false offset hlow hhigh

variable (hbegins : content <+: whole)

include hbegins

/-- **A pair of braces is one in every text that goes on behind the lines of the content.** -/
theorem of_isPrefix (h : IsBracePair content distance opening closing) :
    IsBracePair whole distance opening closing := by
  obtain ⟨behind, rfl⟩ := hbegins
  have hlt : closing < content.length := (List.getElem?_eq_some_iff.mp h.getElem?_closing).1
  refine h.congr ?_
  intro offset hle
  exact List.getElem?_append_left (Nat.lt_of_le_of_lt hle hlt)

/-- A pair of braces is one in the first lines if its closing brace stands there. -/
theorem of_isPrefix_of_lt (hlt : closing < content.length)
    (h : IsBracePair whole distance opening closing) :
    IsBracePair content distance opening closing := by
  obtain ⟨behind, rfl⟩ := hbegins
  refine h.congr ?_
  intro offset hle
  exact (List.getElem?_append_left (Nat.lt_of_le_of_lt hle hlt)).symm

end IsBracePair

theorem IsBracePair.closing_lt {content : Bytes} {distance opening closing : Nat}
    (h : IsBracePair (coverEscapes content) distance opening closing) : closing < content.length := by
  rw [← length_coverEscapes]
  exact (List.getElem?_eq_some_iff.mp h.getElem?_closing).1

/-! ## Windows -/

section

variable {document : Document} {first last last' distance opening closing : Nat} {literal : Literal}

/-- **The literal of a pair of braces is seen in every window with the same first line that has the line
    of the closing brace.** It may be cut off in one of the two windows, but not in front of the brace. -/
theorem Literal.exists_isBracePair (hfirst : first < min last document.lineCount)
    (hfirst' : first < min last' document.lineCount)
    (hmem : literal ∈ all (Window.of document first last).text)
    (hpair : IsBracePair (coverEscapes literal.content) distance opening closing)
    (hline : (literal.spanOf (Window.of document first last) closing).start.line < last') :
    ∃ seen ∈ all (Window.of document first last').text,
      seen.contentStart = literal.contentStart ∧
        IsBracePair (coverEscapes seen.content) distance opening closing := by
  rcases Nat.le_total last last' with hle | hle
  · obtain ⟨behind, hbehind, htext⟩ := Window.exists_text_eq_append hfirst hle
    obtain ⟨long, hlong, hextends⟩ := exists_extends hbehind hmem
    rw [← htext] at hlong
    refine ⟨long, hlong, hextends.contentStart_eq, ?_⟩
    rcases hextends.eq_or_open with rfl | ⟨-, -, more, hmore, hcontent⟩
    · exact hpair
    · rw [hcontent]
      exact hpair.of_isPrefix (coverEscapesFrom_append false literal.content hmore)
  · -- The byte behind the brace is on the same line, so the shorter window has it, too.
    obtain ⟨-, hstop, -⟩ := spanOf_shown hfirst hmem (by decide) hpair.getElem?_closing
    have hlength := literal.contentStop_le_length hmem
    have hclosing := hpair.closing_lt
    rw [contentStop] at hlength
    have hbehindLine : ((Window.of document first last).position
        (literal.contentStart + closing + 1)).line < last' :=
      (congrArg Position.line hstop).trans_lt hline
    have hshown := Window.le_length_of_line_lt hfirst' hle (by omega) hbehindLine
    have hopener := literal.opener.length_text_pos
    obtain ⟨behind, hbehind, htext⟩ := Window.exists_text_eq_append hfirst' hle
    rw [htext] at hmem
    obtain ⟨short, hshort, hextends⟩ := exists_extends_of_lt hbehind hmem (by
      rw [contentStart] at hshown
      omega)
    refine ⟨short, hshort, hextends.contentStart_eq.symm, ?_⟩
    rcases hextends.eq_or_open with rfl | ⟨-, hlimit, more, hmore, hcontent⟩
    · exact hpair
    · rw [hcontent] at hpair
      refine hpair.of_isPrefix_of_lt (coverEscapesFrom_append false short.content hmore) ?_
      rw [contentStop, ← hextends.contentStart_eq] at hlimit
      show closing < (coverEscapes short.content).length
      rw [length_coverEscapes]
      omega

end

/-- Both windows show a piece of a content at the same place. -/
theorem Literal.spanOf_eq {document : Document} {first last last' offset : Nat}
    {literal seen : Literal} (hfirst : first < min last document.lineCount)
    (hfirst' : first < min last' document.lineCount)
    (hmem : literal ∈ all (Window.of document first last).text)
    (hseen : seen ∈ all (Window.of document first last').text)
    (hstart : seen.contentStart = literal.contentStart) (hlt : offset < literal.content.length)
    (hlt' : offset < seen.content.length) :
    seen.spanOf (Window.of document first last') offset
      = literal.spanOf (Window.of document first last) offset := by
  have hlength := literal.contentStop_le_length hmem
  have hlength' := seen.contentStop_le_length hseen
  rw [contentStop] at hlength hlength'
  rw [spanOf, spanOf, Window.span, Window.span, hstart,
    Window.position_eq hfirst' hfirst (by omega) (by omega),
    Window.position_eq hfirst' hfirst (by omega) (by omega)]

/-! ## Positions -/

section

variable {document : Document} {first last cursor distance opening closing : Nat}
  {literal : Literal} {position : Position}

/-- **A pair of braces is found from one of its own lines.** -/
theorem line_eq_of_isAtBraces (hfirst : first < min last document.lineCount)
    (hfloor : first ≤ position.line) (hline : position.line < min last document.lineCount)
    (hfits : (Window.of document first last).Fits position)
    (hcursor : (Window.of document first last).offset? position = some cursor)
    (hmem : literal ∈ Literal.all (Window.of document first last).text)
    (hholds : literal.holdsCursor cursor = true)
    (hpair : IsBracePair (coverEscapes literal.content) distance opening closing)
    (hat : IsAtBraces (coverEscapes literal.content) opening closing
      (cursor - literal.contentStart)) :
    position.line = (literal.spanOf (Window.of document first last) opening).start.line ∨
      position.line = (literal.spanOf (Window.of document first last) closing).start.line := by
  obtain ⟨cursor', hcursor', hposition⟩ := Window.exists_offset?_eq_some hfirst hfloor hline hfits
  obtain rfl := Option.some.inj (hcursor.symm.trans hcursor')
  obtain ⟨hbehind, -⟩ := Literal.holdsCursor_iff.mp hholds
  have hplace : cursor = literal.contentStart + (cursor - literal.contentStart) := by omega
  have hcursorLine : position.line
      = ((Window.of document first last).position cursor).line := by rw [hposition]
  rw [hcursorLine]
  rcases hat with hopen | hclose | ⟨hclose, -⟩
  · rw [hopen] at hplace
    rw [hplace]
    exact .inl rfl
  · rw [hclose] at hplace
    rw [hplace]
    exact .inr rfl
  · -- The place right behind a brace is on its line.
    obtain ⟨-, hstop, -⟩ := Literal.spanOf_shown hfirst hmem (by decide) hpair.getElem?_closing
    rw [hclose] at hplace
    have hsame := congrArg Position.line hstop
    rw [hplace]
    exact .inr hsame

end

/-- There is a brace of a string literal at a position, and it is not one of a doubled brace. -/
def Document.HasBraceAt (document : Document) (config : Config) (position : Position) : Prop :=
  let window := braceWindow document config position.line
  ∃ cursor, window.offset? position = some cursor ∧
    ∃ literal ∈ Literal.all window.text, literal.holdsCursor cursor = true ∧
      (coverEscapes literal.content)[cursor - literal.contentStart]?.any isBrace = true

/-- **A pair of braces is found from each of its braces, and from right behind the closing one**, as long as
    the window of the position starts with that of the pair and has the line of the closing brace. -/
theorem bracePairAt?_of_isAtBraces {document : Document} {config : Config}
    {first last opening closing offset : Nat} {literal : Literal} {position : Position}
    (hfirst : first < min last document.lineCount)
    (hmem : literal ∈ Literal.all (Window.of document first last).text)
    (hpair : IsBracePair (coverEscapes literal.content) config.limits.braceDistance opening closing)
    (hposition : position
      = (Window.of document first last).position (literal.contentStart + offset))
    (hat : offset = opening ∨ offset = closing ∨
      (offset = closing + 1 ∧ ¬ document.HasBraceAt config position))
    (hbase : braceBase document config position.line = first)
    (hline : (literal.spanOf (Window.of document first last) closing).start.line
      ≤ position.line + config.limits.braceLookahead) :
    bracePairAt? document config position
      = some ⟨literal.spanOf (Window.of document first last) opening,
          literal.spanOf (Window.of document first last) closing⟩ := by
  have hclosing := hpair.closing_lt
  have hopening := hpair.opening_lt
  have hoffset : offset ≤ closing + 1 := by
    rcases hat with rfl | rfl | ⟨rfl, -⟩ <;> omega
  have hlength := literal.contentStop_le_length hmem
  rw [Literal.contentStop] at hlength
  obtain ⟨-, hlast, -⟩ := Window.position_of hfirst
    (show literal.contentStart + offset ≤ (Window.of document first last).text.length by omega)
  rw [← hposition] at hlast
  have hcount : position.line < document.lineCount := (Nat.lt_min.mp hlast).2
  have hwindow : braceWindow document config position.line
      = Window.of document first (position.line + config.limits.braceLookahead + 1) := by
    rw [braceWindow, hbase]
  have hfirst' : first
      < min (position.line + config.limits.braceLookahead + 1) document.lineCount :=
    hbase ▸ braceBase_lt config hcount
  obtain ⟨seen, hseen, hstart, hsame⟩ :=
    Literal.exists_isBracePair hfirst hfirst' hmem hpair (Nat.lt_succ_of_le hline)
  have hclosing' := hsame.closing_lt
  have hlength' := seen.contentStop_le_length hseen
  rw [Literal.contentStop, hstart] at hlength'
  -- The position is the one that the window of the position shows there, too.
  have hcursor : (Window.of document first
      (position.line + config.limits.braceLookahead + 1)).offset? position
        = some (literal.contentStart + offset) := by
    have hplace := Window.offset?_position hfirst'
      (show literal.contentStart + offset ≤ _ by omega)
    rwa [← Window.position_eq hfirst hfirst' (by omega) (by omega), ← hposition] at hplace
  have hholds : seen.holdsCursor (literal.contentStart + offset) = true := by
    rw [Literal.holdsCursor_iff, Literal.contentStop, hstart]
    omega
  have hback : literal.contentStart + offset - seen.contentStart = offset := by
    rw [hstart, Nat.add_sub_cancel_left]
  rw [bracePairAt?_eq_some_iff, BraceScope.pairAt?_eq_some_iff, hwindow]
  refine ⟨hcount, literal.contentStart + offset, seen, opening, closing, hcursor, hseen, hholds, hsame,
    ?_, ?_⟩
  · rw [hback]
    refine hat.imp_right (Or.imp_right ?_)
    rintro ⟨rfl, hnone⟩
    refine ⟨rfl, ?_⟩
    by_contra hbrace
    rw [Bool.not_eq_false] at hbrace
    refine hnone ⟨_, hwindow ▸ hcursor, seen, hwindow ▸ hseen, hholds, ?_⟩
    rwa [hback]
  · rw [Literal.spanOf_eq hfirst hfirst' hmem hseen hstart (by omega) (by omega),
      Literal.spanOf_eq hfirst hfirst' hmem hseen hstart (by omega) (by omega)]

end LogMarkup
