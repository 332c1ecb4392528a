import LogMarkup.Proofs.BracePair.Content
import LogMarkup.Proofs.BracePair.Document
import LogMarkup.Proofs.Checked.Call
import LogMarkup.Proofs.Checked.Message
import LogMarkup.Proofs.Checked.Mode

/-!
# `LogMarkup.Proofs.Checked.BracePair` — pairs of braces, offset by offset

The cursor is counted from the start of the content that holds it, and that content is as long with its
escapes covered as without. So the brace before the cursor is in the content, even where the cursor is at
its end.

## Contents
- **In a content.** `Checked.braceAt?`, `Checked.openingBefore?` and `Checked.bracePairIn?`, each with
  its equation.
- **In a document.** `Checked.braceBase` and `Checked.bracePairAt?`, with `Checked.bracePairAt?_eq`.
-/

namespace LogMarkup.Checked

open Ascii

/-! ## In a content -/

/-- The brace at an offset, or the closing brace right before it. -/
def braceAt? (content : Bytes) (offset : Nat) : Checked (Option Nat) :=
  if content[offset]?.any isBrace then pure (some offset)
  else if 0 < offset then do
    let before ← sub offset 1
    let b ← byteAt content before
    pure (if b = closeBrace then some before else none)
  else pure none

/-- The opening brace of the hole that closes at an offset, at most `distance` bytes before. -/
def openingBefore? (content : Bytes) (distance closing : Nat) : Checked (Option Nat) := do
  let lower := closing - distance
  let reach ← slice content lower closing
  match Bytes.lastIdx? isBrace reach with
  | none => pure none
  | some found => do
    let b ← byteAt content (lower + found)
    pure (if b = openBrace then some (lower + found) else none)

/-- The offsets of the pair of braces around the brace at an offset. -/
def bracePairIn? (content : Bytes) (distance offset : Nat) : Checked (Option (Nat × Nat)) := do
  match ← braceAt? content offset with
  | none => pure none
  | some brace => do
    let b ← byteAt content brace
    if b = openBrace then
      pure ((closingBehind? content distance brace).map fun closing => (brace, closing))
    else do
      let opening ← openingBefore? content distance brace
      pure (opening.map fun opening => (opening, brace))

section

variable {content : Bytes}

/-- The brace before the end of a content is in it. -/
theorem braceAt?_eq {offset : Nat} (h : offset ≤ content.length) :
    braceAt? content offset = .ok (LogMarkup.braceAt? content offset) := by
  unfold braceAt? LogMarkup.braceAt?
  split
  · rfl
  by_cases hpos : 0 < offset
  · have hlt : offset - 1 < content.length := by omega
    have hget := List.getElem?_eq_getElem hlt
    simp only [sub_eq (b := 1) hpos, byteAt_eq hget, hget, ok_bind, pure_eq_ok, Option.some_inj, hpos,
      true_and, if_true]
  · rw [if_neg hpos, if_neg fun hboth => hpos hboth.1]
    rfl

theorem openingBefore?_eq (distance : Nat) {closing : Nat} (h : closing ≤ content.length) :
    openingBefore? content distance closing
      = .ok (LogMarkup.openingBefore? content distance closing) := by
  have hslice := slice_eq (Nat.sub_le closing distance) h
  have hreach : (content.take closing).drop (closing - distance)
      = content.extract (closing - distance) closing := by
    rw [List.drop_take, List.extract_eq_take_drop]
  have hlength : (content.extract (closing - distance) closing).length
      = closing - (closing - distance) := by
    rw [← hreach, List.length_drop, List.length_take_of_le h]
  unfold openingBefore? LogMarkup.openingBefore?
  simp only [hslice, hreach, Bytes.lastIdx?, ok_bind]
  generalize hpart : content.extract (closing - distance) closing = part at *
  rcases Bytes.findIdx?_cases isBrace part.reverse with ⟨hfind, hall⟩ | ⟨b, hfind, hb⟩
  · rw [hfind, hall, List.getElem?_length]
    rfl
  · -- Counted from the front, the brace is as far behind the start as it is in front of the end.
    obtain ⟨hlt, -⟩ := List.getElem?_eq_some_iff.mp hb
    have hback := hb
    rw [List.length_reverse] at hlt
    rw [List.getElem?_reverse hlt] at hback
    have hbyte := byteAt_eq (Bytes.getElem?_of_extract hpart hback)
    simp only [hfind, hb, hbyte, Option.map_some, ok_bind, pure_eq_ok, Option.some_inj]
    split
    · exact congrArg (Except.ok ∘ some) (by omega)
    · rfl

theorem bracePairIn?_eq (distance : Nat) {offset : Nat} (h : offset ≤ content.length) :
    bracePairIn? content distance offset
      = .ok (LogMarkup.bracePairIn? content distance offset) := by
  unfold bracePairIn? LogMarkup.bracePairIn?
  simp only [braceAt?_eq h, ok_bind]
  cases hbrace : LogMarkup.braceAt? content offset with
  | none => rfl
  | some brace =>
      obtain ⟨b, hb⟩ : ∃ b, content[brace]? = some b := by
        rcases braceAt?_eq_some_iff.mp hbrace with ⟨-, hany⟩ | ⟨-, hclose, -⟩
        · obtain ⟨hsome, -⟩ := (Option.any_eq_true_iff_get _ _).mp hany
          exact Option.isSome_iff_exists.mp hsome
        · exact ⟨closeBrace, hclose⟩
      have hlt := (List.getElem?_eq_some_iff.mp hb).1
      simp only [byteAt_eq hb, hb, openingBefore?_eq distance (Nat.le_of_lt hlt), ok_bind,
        pure_eq_ok, Option.some_inj]
      split <;> rfl

end

/-! ## In a document -/

/-- The line from which on the literals around a line are looked for. -/
def braceBase (document : Document) (config : Config) (line : Nat) : Checked Nat :=
  let floor := line - config.limits.braceLookback
  let lines := (List.range' floor (line + 1 - floor)).reverse
  match lines.find? fun n => config.shapes.accepts (document.line n) with
  | none => pure line
  | some trigger => do
    let call ← callAt document config.limits trigger floor
    pure (if call.coversLine line then call.start.line else line)

/-- The pair of braces at a cursor in a literal. -/
def pairAtCursor? (window : Window) (literal : Literal) (distance cursor : Nat) :
    Checked (Option BracePair) := do
  let content ← coverEscapes literal.content
  let offset ← sub cursor literal.contentStart
  let pair ← bracePairIn? content distance offset
  let spanOf (offset : Nat) : Span :=
    window.span (literal.contentStart + offset) (literal.contentStart + offset + 1)
  pure (pair.map fun (opening, closing) => ⟨spanOf opening, spanOf closing⟩)

/-- The pair of braces at a position. -/
def bracePairAt? (document : Document) (config : Config) (position : Position) :
    Checked (Option BracePair) :=
  if position.line < document.lineCount then do
    let base ← braceBase document config position.line
    let window ← windowOf document base (position.line + config.limits.braceLookahead + 1)
    match ← offset? window position with
    | none => pure none
    | some cursor => do
      let found ← literals window.text
      match found.find? (·.holdsCursor cursor) with
      | none => pure none
      | some literal => pairAtCursor? window literal config.limits.braceDistance cursor
  else pure none

/-- A cursor in a literal is at most as far behind the start of the content as the content is long. -/
theorem pairAtCursor?_eq {window : Window} {literal : Literal} (distance : Nat) {cursor : Nat}
    (hvalid : Utf8.isValid literal.content = true) (hcursor : literal.holdsCursor cursor = true) :
    pairAtCursor? window literal distance cursor =
      let spanOf (offset : Nat) : Span :=
        window.span (literal.contentStart + offset) (literal.contentStart + offset + 1)
      .ok ((LogMarkup.bracePairIn? (LogMarkup.coverEscapes literal.content) distance
        (cursor - literal.contentStart)).map
          fun (opening, closing) => ⟨spanOf opening, spanOf closing⟩) := by
  obtain ⟨hstart, hstop⟩ := Literal.holdsCursor_iff.mp hcursor
  have hlength := (forall₂_coverEscapes literal.content).length_eq
  have hoffset : cursor - literal.contentStart
      ≤ (LogMarkup.coverEscapes literal.content).length := by
    unfold Literal.contentStop at hstop
    omega
  simp only [pairAtCursor?, coverEscapes_eq hvalid, sub_eq hstart, bracePairIn?_eq distance hoffset,
    ok_bind, pure_eq_ok]

section

variable {document : Document} (hlines : ∀ line ∈ document.lines, Utf8.isValid line = true)

include hlines

theorem braceBase_eq (config : Config) (line : Nat) :
    braceBase document config line = .ok (LogMarkup.braceBase document config line) := by
  unfold braceBase LogMarkup.braceBase
  simp only [callAt_eq hlines, ok_bind, pure_eq_ok]
  generalize List.find? _ _ = found
  cases found <;> rfl

/-- **A pair of braces may be looked for at every position.** -/
theorem bracePairAt?_eq (config : Config) (position : Position) :
    bracePairAt? document config position
      = .ok (LogMarkup.bracePairAt? document config position) := by
  unfold bracePairAt? LogMarkup.bracePairAt? BraceScope.of?
  by_cases hline : position.line < document.lineCount
  · rw [if_pos hline, if_pos hline, braceBase_eq hlines, ok_bind, windowOf_eq, ok_bind, offset?_eq,
      ok_bind, Option.bind_some, BraceScope.pairAt?]
    have htext := Window.isValid_text hlines (LogMarkup.braceBase document config position.line)
      (position.line + config.limits.braceLookahead + 1)
    generalize Window.of document _ _ = window at htext ⊢
    cases window.offset? position with
    | none => rfl
    | some cursor =>
        simp only [literals_eq htext, ok_bind]
        cases hfind : (Literal.all window.text).find? (·.holdsCursor cursor) with
        | none => rfl
        | some literal =>
            have hat := (Literal.at?_of_mem_allFrom rfl (List.mem_of_find?_eq_some hfind)).2
            have hcursor := List.find?_some hfind
            exact pairAtCursor?_eq config.limits.braceDistance (Literal.isValid_content hat htext)
              hcursor
  · rw [if_neg hline, if_neg hline]
    rfl

end

end LogMarkup.Checked
