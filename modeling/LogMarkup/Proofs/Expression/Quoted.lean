import LogMarkup.Expression.Lexeme
import LogMarkup.Proofs.Text.Enclosed

/-!
# `LogMarkup.Proofs.Expression.Quoted` — quoted text of expressions

Quotes end at the first closing quote that no backslash takes along, or else at the end of the text.
Both are said here without the walk that finds it, by the grammar of what may stand between quotes.

## Contents
- `IsQuotable` and `IsUnclosed`, text without a closing quote, and `ne_backslash_of_isQuote`.
- `moveQuoted` read backwards: what a decision says about its byte.
- `isQuotable_of_closed` and `isUnclosed_of_open` — what a walk over quoted text has taken.
-/

namespace LogMarkup

open Ascii

/-- Text that quotes of the given sort can enclose: no closing quote in it, but behind a backslash. -/
def IsQuotable (closer : UInt8) : Bytes → Prop :=
  Escaped (fun b => b ≠ closer ∧ b ≠ backslash) (fun _ => True)

/-- Text without a closing quote, in which the last backslash may have nothing behind it. -/
def IsUnclosed (closer : UInt8) (text : Bytes) : Prop :=
  IsQuotable closer text ∨ ∃ body, text = body ++ [backslash] ∧ IsQuotable closer body

/-- A backslash can not close quoted text. -/
theorem ne_backslash_of_isQuote {b : UInt8} (h : isQuote b = true) : b ≠ backslash := by
  rintro rfl
  exact absurd h (by decide)

/-! ## Decisions -/

section

variable {closer b : UInt8} {state next : Unit} {rest : Bytes}

theorem eq_closer_of_moveQuoted (h : moveQuoted closer state b rest = .close) : b = closer := by
  unfold moveQuoted at h
  split at h
  · assumption
  · split at h <;> exact absurd h (by simp)

theorem plain_of_moveQuoted (h : moveQuoted closer state b rest = .single next) :
    b ≠ closer ∧ b ≠ backslash := by
  unfold moveQuoted at h
  split at h
  · exact absurd h (by simp)
  · split at h
    · exact absurd h (by simp)
    · exact ⟨by assumption, by assumption⟩

theorem eq_backslash_of_moveQuoted (h : moveQuoted closer state b rest = .pair next) :
    b = backslash := by
  unfold moveQuoted at h
  split at h
  · exact absurd h (by simp)
  · split at h
    · assumption
    · exact absurd h (by simp)

theorem neverStops_moveQuoted : Enclosed.NeverStops (moveQuoted closer) := by
  intro state b rest
  unfold moveQuoted
  split
  · simp
  · split <;> simp

end

/-! ## Walks -/

/-- The content of closed quotes has no closing quote in it. -/
theorem isQuotable_of_closed {closer : UInt8} {state : Unit} {text : Bytes}
    (h : (Enclosed.read (moveQuoted closer) state text).closed = true) :
    IsQuotable closer (Enclosed.read (moveQuoted closer) state text).content := by
  fun_induction Enclosed.read (moveQuoted closer) state text with
  | case1 => exact absurd h (by simp)
  | case2 => exact .nil
  | case3 => exact absurd h (by simp)
  | case4 => exact absurd h (by simp)
  | case5 _ b rest next hmove ih => exact .single (plain_of_moveQuoted hmove) (ih h)
  | case6 => exact absurd h (by simp)
  | case7 _ b next c rest hmove ih =>
      obtain rfl := eq_backslash_of_moveQuoted hmove
      exact .pair trivial (ih h)

/-- Nor has the text that goes on to its end without a closing quote. -/
theorem isUnclosed_of_open {closer : UInt8} {state : Unit} {text : Bytes}
    (h : (Enclosed.read (moveQuoted closer) state text).closed = false) :
    IsUnclosed closer text := by
  fun_induction Enclosed.read (moveQuoted closer) state text with
  | case1 => exact .inl .nil
  | case2 => exact absurd h (by simp)
  | case3 state b rest hmove => exact absurd hmove (neverStops_moveQuoted state b rest).1
  | case4 state b rest hmove => exact absurd hmove (neverStops_moveQuoted state b rest).2
  | case5 _ b rest next hmove ih =>
      rcases ih h with hall | ⟨body, rfl, hbody⟩
      · exact .inl (.single (plain_of_moveQuoted hmove) hall)
      · exact .inr ⟨b :: body, rfl, .single (plain_of_moveQuoted hmove) hbody⟩
  | case6 _ b next hmove =>
      obtain rfl := eq_backslash_of_moveQuoted hmove
      exact .inr ⟨[], rfl, .nil⟩
  | case7 _ b next c rest hmove ih =>
      obtain rfl := eq_backslash_of_moveQuoted hmove
      rcases ih h with hall | ⟨body, rfl, hbody⟩
      · exact .inl (.pair trivial hall)
      · exact .inr ⟨backslash :: c :: body, rfl, .pair trivial hbody⟩

end LogMarkup
