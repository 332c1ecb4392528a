import LogMarkup.Proofs.Expression.Quoted
import LogMarkup.Proofs.Text.Slice

/-!
# `LogMarkup.Proofs.Expression.Lexeme` — what stands at the head of an expression

Only ASCII characters have a meaning in an expression, outside of its quotes. So the text of every
lexeme but quoted text is ASCII throughout, whatever the characters around it are.

## Contents
- **Classes.** Every class of characters that lexemes are made of is ASCII: `Ascii.lt_of_isWord` and
  its like.
- **One lexeme.** `Bytes.IsAsciiHead`, `Lexeme.Fits`, and `Lexeme.fits_first`.
-/

namespace LogMarkup

open Ascii

/-! ## Classes -/

theorem Ascii.lt_of_isDigit {b : UInt8} (h : isDigit b = true) : b < 0x80 := by
  simp only [isDigit, Bool.and_eq_true, decide_eq_true_eq] at h
  exact UInt8.lt_of_le_of_lt h.2 (by decide)

theorem Ascii.lt_of_isLower {b : UInt8} (h : isLower b = true) : b < 0x80 := by
  simp only [isLower, Bool.and_eq_true, decide_eq_true_eq] at h
  exact UInt8.lt_of_le_of_lt h.2 (by decide)

theorem Ascii.lt_of_isLetter {b : UInt8} (h : isLetter b = true) : b < 0x80 := by
  rcases Bool.or_eq_true_iff.mp h with hupper | hlower
  · simp only [isUpper, Bool.and_eq_true, decide_eq_true_eq] at hupper
    exact UInt8.lt_of_le_of_lt hupper.2 (by decide)
  · exact lt_of_isLower hlower

theorem Ascii.lt_of_isWordStart {b : UInt8} (h : isWordStart b = true) : b < 0x80 := by
  rcases Bool.or_eq_true_iff.mp h with hletter | hunderscore
  · exact lt_of_isLetter hletter
  · rw [eq_of_beq hunderscore]
    decide

theorem Ascii.lt_of_isWord {b : UInt8} (h : isWord b = true) : b < 0x80 := by
  rcases Bool.or_eq_true_iff.mp h with hstart | hdigit
  · exact lt_of_isWordStart hstart
  · exact lt_of_isDigit hdigit

theorem lt_of_isQuote {b : UInt8} (h : isQuote b = true) : b < 0x80 := by
  rcases Bool.or_eq_true_iff.mp h with h | h <;> rw [eq_of_beq h] <;> decide

theorem Lexeme.lt_of_isOperator {b : UInt8} (h : isOperator b = true) : b < 0x80 := by
  simp only [isOperator, Bool.or_eq_true, beq_iff_eq, or_assoc] at h
  rcases h with rfl | rfl | rfl | rfl | rfl | rfl | rfl | rfl | rfl <;> decide

theorem Lexeme.lt_of_isPunctuation {b : UInt8} (h : isPunctuation b = true) : b < 0x80 := by
  simp only [isPunctuation, isBrace, Bool.or_eq_true, beq_iff_eq, or_assoc] at h
  rcases h with rfl | rfl | rfl | rfl | rfl | rfl | rfl | rfl | rfl | rfl <;> decide

/-! ## Heads of a text -/

/-- A piece of ASCII text, not empty, at the head of a text. -/
structure Bytes.IsAsciiHead (part text : Bytes) : Prop where
  isPrefix : part <+: text
  ne_nil : part ≠ []
  lt_of_mem : ∀ b ∈ part, b < 0x80

namespace Bytes

theorem isAsciiHead_singleton {b : UInt8} (rest : Bytes) (hb : b < 0x80) :
    IsAsciiHead [b] (b :: rest) :=
  ⟨List.prefix_append [b] rest, by simp, by simpa using hb⟩

theorem isAsciiHead_pair {b c : UInt8} (rest : Bytes) (hb : b < 0x80) (hc : c < 0x80) :
    IsAsciiHead [b, c] (b :: c :: rest) := by
  refine ⟨List.prefix_append [b, c] rest, by simp, ?_⟩
  intro d hd
  simp only [List.mem_cons, List.not_mem_nil, or_false] at hd
  rcases hd with rfl | rfl
  · exact hb
  · exact hc

/-- A byte together with all bytes of an ASCII class behind it. -/
theorem isAsciiHead_takeWhile {b : UInt8} {p : UInt8 → Bool} (rest : Bytes) (hb : b < 0x80)
    (hp : ∀ c, p c = true → c < 0x80) : IsAsciiHead (b :: rest.takeWhile p) (b :: rest) := by
  refine ⟨(List.prefix_cons_inj b).mpr (List.takeWhile_prefix p), by simp, ?_⟩
  intro c hc
  rcases List.mem_cons.mp hc with rfl | hc
  · exact hb
  · exact hp c (List.mem_takeWhile_imp hc)

theorem IsAsciiHead.append {part text : Bytes} (h : IsAsciiHead part text) (behind : Bytes) :
    IsAsciiHead part (text ++ behind) :=
  ⟨h.isPrefix.trans (List.prefix_append text behind), h.ne_nil, h.lt_of_mem⟩

end Bytes

/-! ## One lexeme -/

namespace Lexeme

/-- What a lexeme says about the text at whose head it stands. -/
def Fits (text : Bytes) : Lexeme → Prop
  | skip _ => True
  | shown kind part => kind ≠ .string ∧ Bytes.IsAsciiHead part text
  | quoted enclosed => ∃ closer rest, text = closer :: rest ∧ isQuote closer = true ∧
      enclosed = Enclosed.read (moveQuoted closer) () rest

theorem fits_word {part behind text : Bytes} (h : Bytes.IsAsciiHead part text) :
    Fits text (word part behind) := by
  unfold word
  split
  · exact ⟨by simp, h⟩
  · split <;> exact ⟨by simp, h⟩

theorem fits_builtIn (rest : Bytes) : Fits (atSign :: rest) (builtIn rest) := by
  simp only [builtIn]
  split
  · trivial
  · exact ⟨by simp, Bytes.isAsciiHead_takeWhile rest (by decide) fun _ => lt_of_isLower⟩

theorem operatorKind_ne_string (b : UInt8) : operatorKind b ≠ .string := by
  unfold operatorKind
  split
  · simp
  · split <;> simp

theorem lt_of_isOperatorPair {b c : UInt8} (h : isOperatorPair b c = true) : c < 0x80 := by
  simp only [isOperatorPair, Bool.or_eq_true, Bool.and_eq_true, beq_iff_eq] at h
  rcases h with ⟨rfl, -⟩ | ⟨-, rfl⟩ <;> decide

theorem fits_operator {b : UInt8} (rest : Bytes) (hb : b < 0x80) :
    Fits (b :: rest) (operator b rest) := by
  unfold operator
  split
  · exact ⟨operatorKind_ne_string b, Bytes.isAsciiHead_singleton [] hb⟩
  · next c rest =>
      split
      · next hpair =>
          exact ⟨by simp, Bytes.isAsciiHead_pair rest hb (lt_of_isOperatorPair hpair)⟩
      · exact ⟨operatorKind_ne_string b, Bytes.isAsciiHead_singleton (c :: rest) hb⟩

/-- **Every lexeme fits the text that it is found in.** -/
theorem fits_first (b : UInt8) (rest : Bytes) : Fits (b :: rest) (first b rest) := by
  unfold first
  split
  · trivial
  split
  · next hquote => exact ⟨b, rest, rfl, hquote, rfl⟩
  split
  · next hdigit =>
      refine ⟨by simp, Bytes.isAsciiHead_takeWhile rest (lt_of_isDigit hdigit) ?_⟩
      intro c hc
      rcases Bool.or_eq_true_iff.mp hc with hc | hc
      · exact lt_of_isDigit hc
      · rw [eq_of_beq hc]
        decide
  split
  · next hstart =>
      exact fits_word (Bytes.isAsciiHead_takeWhile rest (lt_of_isWordStart hstart)
        fun _ => lt_of_isWord)
  split
  · next hat =>
      subst hat
      exact fits_builtIn rest
  split
  · next hdollar =>
      rw [hdollar.1]
      exact ⟨by simp, Bytes.isAsciiHead_takeWhile rest (by decide) fun _ => lt_of_isWord⟩
  split
  · next hoperator => exact fits_operator rest (lt_of_isOperator hoperator)
  split
  · next hmark => exact ⟨by simp, Bytes.isAsciiHead_singleton rest (lt_of_isPunctuation hmark)⟩
  · trivial

end Lexeme

end LogMarkup
