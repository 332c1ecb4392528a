import LogMarkup.Text.Blank
import LogMarkup.Proofs.Text.Boundary

/-!
# `LogMarkup.Proofs.Text.Indentation` — the blanks at the head of a line

The indentation is counted in bytes, but it is read character by character. It takes whole characters,
and so it ends at the latest in front of the first ASCII character that is not blank, even on a line
that is not well-formed.

## Contents
- `Bytes.indentation_cases` — one blank character and the indentation behind it, or none.
- `Bytes.indentation_le_length` and `Bytes.indentation_le_of_getElem?`.
-/

namespace LogMarkup

open Utf8

namespace Bytes

/-- A line is indented by one blank character and the indentation behind it, or else not at all. -/
theorem indentation_cases (line : Bytes) :
    line.indentation = 0 ∨
    ∃ lead tail behind symbol, line = lead :: (tail ++ behind) ∧ IsCharacter lead tail symbol ∧
      isBlank symbol.char = true ∧ line.indentation = tail.length + 1 + indentation behind := by
  cases line with
  | nil => exact .inl rfl
  | cons lead rest =>
      cases hfirst : first? (lead :: rest) with
      | none =>
          refine .inl ?_
          rw [indentation, symbols, symbolsAfter, hfirst]
          rfl
      | some symbol =>
          obtain ⟨tail, behind, rfl, hchar⟩ := exists_isCharacter hfirst
          have hsymbols : symbols (lead :: (tail ++ behind)) = symbol :: symbols behind := by
            rw [symbols, symbolsAfter, hfirst]
            simp only [Option.getD_some, hchar.width_eq, Nat.add_sub_cancel, symbolsAfter_append]
          by_cases hblank : isBlank symbol.char = true
          · refine .inr ⟨lead, tail, behind, symbol, rfl, hchar, hblank, ?_⟩
            rw [indentation, hsymbols, List.takeWhile_cons, if_pos hblank, widthOf, hchar.width_eq]
            rfl
          · refine .inl ?_
            rw [indentation, hsymbols, List.takeWhile_cons, if_neg hblank]
            rfl

/-- The indentation is a part of the line. -/
theorem indentation_le_length (line : Bytes) : line.indentation ≤ line.length := by
  induction hlength : line.length using Nat.strongRecOn generalizing line with
  | ind n ih =>
      rcases indentation_cases line with hzero | ⟨lead, tail, behind, symbol, rfl, -, -, hwidth⟩
      · rw [hzero]
        exact Nat.zero_le n
      · simp only [List.length_cons, List.length_append] at hlength
        have hbehind := ih behind.length (by omega) behind rfl
        omega

/-- **The indentation ends in front of every ASCII character that is not blank.** -/
theorem indentation_le_of_getElem? {text : Bytes} {column : Nat} {b : UInt8}
    (hb : text[column]? = some b) (hascii : b < 0x80)
    (hblank : isBlank (Char.ofNat b.toNat) = false) : text.indentation ≤ column := by
  induction hlength : text.length using Nat.strongRecOn generalizing text column with
  | ind n ih =>
      rcases indentation_cases text with
        hzero | ⟨lead, tail, behind, symbol, rfl, hchar, hsymbol, hwidth⟩
      · rw [hzero]
        exact Nat.zero_le column
      · simp only [List.length_cons, List.length_append] at hlength
        cases column with
        | zero =>
            -- The byte would be the blank character itself.
            obtain rfl := Option.some.inj hb
            have hread := hchar.first?_append []
            rw [first?, if_pos hascii] at hread
            rw [← Option.some.inj hread, hblank] at hsymbol
            exact absurd hsymbol (by simp)
        | succ column =>
            rw [List.getElem?_cons_succ] at hb
            by_cases hin : column < tail.length
            · rw [List.getElem?_append_left hin] at hb
              have hcontinuation := hchar.isContinuation_of_mem b (List.mem_of_getElem? hb)
              have hle := (isContinuation_iff.mp hcontinuation).1
              exact absurd hascii (UInt8.not_lt.mpr hle)
            · rw [List.getElem?_append_right (Nat.le_of_not_lt hin)] at hb
              have hbehind := ih behind.length (by omega) hb rfl
              omega

end Bytes

end LogMarkup
