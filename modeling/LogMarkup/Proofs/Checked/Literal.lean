import LogMarkup.Proofs.Checked.Walk
import LogMarkup.Proofs.Literal.Boundary
import LogMarkup.Proofs.Literal.Decomposition

/-!
# `LogMarkup.Proofs.Checked.Literal` — literals, offset by offset

A literal is looked for at any offset of a text, also inside of a character or behind the end. Its
content is cut out at the offsets where the walk over it starts and ends. Both lie between characters:
a walk may step into a character, but it never ends there.

## Contents
- **One literal.** `Checked.contentOf`, `Checked.literalOf` and `Checked.literalAt?`, with
  `Checked.literalAt?_eq`.
- **All literals.** `Checked.literals` and `Checked.literals_eq`.
-/

namespace LogMarkup.Checked

open Ascii

/-! ## One literal -/

/-- The content between two offsets, neither of which counts behind the end of the text. -/
def contentOf (text : Bytes) (start stop : Nat) : Checked Bytes := do
  let first := min start text.length
  let last ← clamp stop first text.length
  cut text first last

/-- The literal with an opener at an offset. -/
def literalOf (text : Bytes) (start : Nat) (opener : Opener) : Checked Literal := do
  let contentStart := start + opener.text.length
  let (contentStop, closed) ←
    walk (fun depth b rest => .ok (opener.move depth b rest)) text text.length 0 contentStart
  let content ← contentOf text contentStart contentStop
  pure ⟨start, opener, content, closed⟩

/-- The literal that starts at an offset. -/
def literalAt? (text : Bytes) (start : Nat) : Checked (Option Literal) :=
  if start < text.length then do
    let behind ← slice text start text.length
    match Opener.read? behind with
    | none => pure none
    | some opener => do
      let literal ← literalOf text start opener
      pure (some literal)
  else pure none

section

variable {text : Bytes} (hvalid : Utf8.isValid text = true)

include hvalid

theorem contentOf_eq {literal : Literal} (h : Literal.at? text literal.start = some literal) :
    contentOf text literal.contentStart literal.contentStop = .ok literal.content := by
  have hdelimits := Literal.delimits_of_at? h
  have hstart := Literal.isBoundary_contentStart h hvalid
  have hstop := Literal.isBoundary_contentStop h hvalid
  have hle := hdelimits.contentStart_le_contentStop
  simp only [contentOf, min_eq_left hstart.le_length, clamp_eq hle hstop.le_length, ok_bind]
  rw [cut_eq hstart hstop hle, hdelimits.content_eq]

theorem literalOf_eq {literal : Literal} (h : Literal.at? text literal.start = some literal) :
    literalOf text literal.start literal.opener = .ok literal := by
  obtain ⟨-, -, hread⟩ := Literal.read?_eq_some_iff.mp h
  have hbound := (Literal.isBoundary_contentStart h hvalid).le_length
  have hcontent := contentOf_eq hvalid h
  rw [Literal.contentStop, Literal.contentStart] at hcontent
  rw [Literal.contentStart] at hbound
  rw [List.drop_drop] at hread
  simp only [literalOf, walk_ok_eq rfl hbound, hread, hcontent, ok_bind, pure_eq_ok]

/-- **A literal may be looked for at every offset.** -/
theorem literalAt?_eq (start : Nat) : literalAt? text start = .ok (Literal.at? text start) := by
  unfold literalAt?
  by_cases hstart : start < text.length
  · rw [if_pos hstart, slice_length (Nat.le_of_lt hstart), ok_bind]
    cases hat : Literal.at? text start with
    | none =>
        have hopener : Opener.read? (text.drop start) = none := by
          cases hopener : Opener.read? (text.drop start) with
          | none => rfl
          | some opener => simp [Literal.at?, Literal.read?, hopener] at hat
        rw [hopener]
        rfl
    | some literal =>
        obtain ⟨rfl, hopener, -⟩ := Literal.read?_eq_some_iff.mp hat
        simp only [hopener, literalOf_eq hvalid hat, ok_bind, pure_eq_ok]
  · have hnone := Literal.at?_eq_none_of_length_le (Nat.le_of_not_lt hstart)
    rw [if_neg hstart, hnone]
    rfl

end

/-! ## All literals -/

/-- Whether a literal may start with a byte. -/
def isSign (b : UInt8) : Bool := b == quote || b == atSign || b == dollar

/-- Look for a literal at a sign, and go on behind it, or else behind the byte. -/
def literalTurn (text : Bytes) (found : List Literal) (offset : Nat) :
    Checked (Turn (List Literal) (List Literal)) := do
  let b ← byteAt text offset
  if isSign b then
    match ← literalAt? text offset with
    | some literal => pure (.next (found ++ [literal]) literal.stop)
    | none => pure (.next found (offset + 1))
  else pure (.next found (offset + 1))

/-- The literals of a text, from left to right. -/
def literals (text : Bytes) : Checked (List Literal) :=
  loop text.length (literalTurn text) (fun found _ => found) [] 0

section

variable {text : Bytes} (hvalid : Utf8.isValid text = true)

theorem isSign_of_at? {b : UInt8} {offset : Nat} {literal : Literal} (hb : text[offset]? = some b)
    (h : Literal.at? text offset = some literal) : isSign b = true := by
  obtain rfl := Literal.start_of_read? h
  obtain ⟨c, hc, hsign⟩ := Literal.getElem?_start h
  obtain rfl : c = b := Option.some.inj (hc.symm.trans hb)
  rcases hsign with rfl | rfl | rfl <;> decide

include hvalid

theorem literalTurn_eq (found : List Literal) {offset : Nat} {b : UInt8}
    (hb : text[offset]? = some b) : literalTurn text found offset =
      match Literal.at? text offset with
      | none => .ok (.next found (offset + 1))
      | some literal => .ok (.next (found ++ [literal]) literal.stop) := by
  simp only [literalTurn, byteAt_eq hb, literalAt?_eq hvalid, ok_bind]
  cases hat : Literal.at? text offset with
  | none => split <;> rfl
  | some literal => exact if_pos (isSign_of_at? hb hat)

/-- **The search for literals comes to the end of every text.** -/
theorem literals_eq : literals text = .ok (Literal.all text) := by
  -- The search in a list goes on in the same way, from the same place.
  have hloop : ∀ {start : Nat} {rest : Bytes} (found : List Literal), text.drop start = rest →
      loop text.length (literalTurn text) (fun found _ => found) found start
        = .ok (found ++ Literal.allFrom start rest) := by
    intro start rest found hrest
    fun_induction Literal.allFrom start rest generalizing found with
    | case1 start =>
        rw [List.append_nil]
        exact loop_of_le (List.drop_eq_nil_iff.mp hrest)
    | case2 start b rest hnone ih =>
        have hturn := literalTurn_eq hvalid found (Bytes.getElem?_of_drop_eq_cons hrest)
        rw [Literal.at?, hrest, hnone] at hturn
        rw [loop_of_next (Bytes.lt_of_drop_eq_cons hrest) hturn (Nat.lt_succ_self _)]
        exact ih found (Bytes.drop_add_of_drop_eq_cons hrest Nat.one_pos)
    | case3 start b rest literal hliteral ih =>
        have hturn := literalTurn_eq hvalid found (Bytes.getElem?_of_drop_eq_cons hrest)
        rw [Literal.at?, hrest, hliteral] at hturn
        have hstop : start < literal.stop := by
          rw [Literal.stop, Literal.start_of_read? hliteral]
          exact Nat.lt_add_of_pos_right literal.width_pos
        rw [loop_of_next (Bytes.lt_of_drop_eq_cons hrest) hturn hstop,
          ih _ (Literal.drop_stop_of_read? hrest hliteral), List.append_assoc]
        rfl
  exact hloop [] rfl

end

end LogMarkup.Checked
