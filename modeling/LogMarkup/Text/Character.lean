import LogMarkup.Text.Utf8

/-!
# `LogMarkup.Text.Character` — the bytes of a character

What is read as one character does not depend on what stands behind its bytes. So a text falls into
characters one behind the other, and these take exactly all of its bytes, whatever the bytes are.

## Contents
- **Characters.** `Utf8.IsCharacter`, what is read as one symbol whatever stands behind it;
  `Utf8.exists_isCharacter`, for the head of any text.
- **Widths.** `Utf8.widthOf_symbols` and `Utf8.widthOf_take_le`.
-/

namespace LogMarkup

namespace Utf8

/-! ## Characters -/

/-- A lead byte and the bytes that continue it, which are read as `symbol` whatever is behind them. -/
structure IsCharacter (lead : UInt8) (tail : Bytes) (symbol : Symbol) : Prop where
  width_eq : symbol.width = tail.length + 1
  first?_append : ∀ behind, first? (lead :: (tail ++ behind)) = some symbol
  isContinuation_of_mem : ∀ b ∈ tail, isContinuation b = true

theorem isContinuation_iff {b : UInt8} : isContinuation b = true ↔ 0x80 ≤ b ∧ b < 0xC0 := by
  have hall : ∀ n : Fin 256, isContinuation (UInt8.ofFin n) = true ↔
      0x80 ≤ UInt8.ofFin n ∧ UInt8.ofFin n < 0xC0 := by decide +kernel
  exact hall b.toFin

/-- The continuation bytes that were read stand at the head of the text, and only they matter. -/
theorem exists_tail_of_continued? {value more : Nat} {text : Bytes} {result : Nat}
    (h : continued? value more text = some result) :
    ∃ tail behind, text = tail ++ behind ∧ tail.length = more ∧
      (∀ b ∈ tail, isContinuation b = true) ∧
      ∀ other, continued? value more (tail ++ other) = some result := by
  fun_induction continued? value more text with
  | case1 value text => exact ⟨[], text, rfl, rfl, by simp, fun _ => h⟩
  | case2 => exact absurd h (by simp)
  | case3 value more b rest hb ih =>
      obtain ⟨tail, behind, rfl, hlength, hall, hread⟩ := ih h
      refine ⟨b :: tail, behind, rfl, congrArg (· + 1) hlength, ?_, ?_⟩
      · intro c hc
        rcases List.mem_cons.mp hc with rfl | hc
        · exact hb
        · exact hall c hc
      · intro other
        rw [List.cons_append, continued?, if_pos hb]
        exact hread other
  | case4 => exact absurd h (by simp)

/-- A lead byte makes a character together with the sequence that is read behind it. -/
theorem exists_isCharacter_of_sequence? {lead : UInt8} {rest : Bytes} {symbol : Symbol}
    {lowest value more : Nat}
    (hread : ∀ text, first? (lead :: text) = sequence? lowest value more text)
    (h : first? (lead :: rest) = some symbol) :
    ∃ tail behind, rest = tail ++ behind ∧ IsCharacter lead tail symbol := by
  rw [hread, sequence?] at h
  split at h
  · exact absurd h (by simp)
  · next value' hvalue =>
      split at h
      · next hscalar =>
          obtain ⟨tail, behind, hrest, hlength, hall, hother⟩ := exists_tail_of_continued? hvalue
          obtain rfl := Option.some.inj h
          refine ⟨tail, behind, hrest, congrArg (· + 1) hlength.symm, ?_, hall⟩
          intro other
          rw [hread, sequence?, hother]
          exact if_pos hscalar
      · exact absurd h (by simp)

/-- **What is read at the head of a text is a character.** -/
theorem exists_isCharacter {lead : UInt8} {rest : Bytes} {symbol : Symbol}
    (h : first? (lead :: rest) = some symbol) :
    ∃ tail behind, rest = tail ++ behind ∧ IsCharacter lead tail symbol := by
  by_cases h₁ : lead < 0x80
  · have hread : ∀ text, first? (lead :: text) = some ⟨Char.ofNat lead.toNat, 1⟩ := by
      intro text
      rw [first?, if_pos h₁]
    rw [hread] at h
    obtain rfl := Option.some.inj h
    exact ⟨[], rest, rfl, rfl, fun behind => hread behind, by simp⟩
  · by_cases h₂ : lead < 0xC0
    · rw [first?, if_neg h₁, if_pos h₂] at h
      exact absurd h (by simp)
    · by_cases h₃ : lead < 0xE0
      · have hread : ∀ text,
            first? (lead :: text) = sequence? 0x80 (lead &&& 0x1F).toNat 1 text := by
          intro text
          rw [first?, if_neg h₁, if_neg h₂, if_pos h₃]
        exact exists_isCharacter_of_sequence? hread h
      · by_cases h₄ : lead < 0xF0
        · have hread : ∀ text,
              first? (lead :: text) = sequence? 0x800 (lead &&& 0x0F).toNat 2 text := by
            intro text
            rw [first?, if_neg h₁, if_neg h₂, if_neg h₃, if_pos h₄]
          exact exists_isCharacter_of_sequence? hread h
        · by_cases h₅ : lead < 0xF8
          · have hread : ∀ text,
                first? (lead :: text) = sequence? 0x10000 (lead &&& 0x07).toNat 3 text := by
              intro text
              rw [first?, if_neg h₁, if_neg h₂, if_neg h₃, if_neg h₄, if_pos h₅]
            exact exists_isCharacter_of_sequence? hread h
          · rw [first?, if_neg h₁, if_neg h₂, if_neg h₃, if_neg h₄, if_neg h₅] at h
            exact absurd h (by simp)

/-- An ASCII byte is a character of its own. -/
theorem IsCharacter.tail_eq_nil {lead : UInt8} {tail : Bytes} {symbol : Symbol}
    (h : IsCharacter lead tail symbol) (hlead : lead < 0x80) : tail = [] := by
  have hfirst := h.first?_append []
  rw [first?, if_pos hlead] at hfirst
  have hwidth := h.width_eq
  rw [← Option.some.inj hfirst] at hwidth
  exact List.eq_nil_of_length_eq_zero (Nat.succ.inj hwidth).symm

/-- No character starts with a byte that continues one. -/
theorem IsCharacter.isContinuation_lead {lead : UInt8} {tail : Bytes} {symbol : Symbol}
    (h : IsCharacter lead tail symbol) : isContinuation lead = false := by
  rw [← Bool.not_eq_true, isContinuation_iff]
  rintro ⟨hlow, hhigh⟩
  have hfirst := h.first?_append []
  rw [first?, if_neg (UInt8.not_lt.mpr hlow), if_pos hhigh] at hfirst
  exact absurd hfirst (by simp)

/-! ## Widths -/

/-- The bytes that continue a character are passed over. -/
theorem symbolsAfter_append (first second : Bytes) :
    symbolsAfter first.length (first ++ second) = symbols second := by
  induction first with
  | nil =>
      cases second <;> rfl
  | cons b first ih => exact ih

/-- **The characters of a text take all of its bytes**, stray ones included. -/
theorem widthOf_symbols (text : Bytes) : widthOf (symbols text) = text.length := by
  induction hlength : text.length using Nat.strongRecOn generalizing text with
  | ind n ih =>
      cases text with
      | nil => exact hlength
      | cons lead rest =>
          rw [symbols, symbolsAfter]
          cases hfirst : first? (lead :: rest) with
          | none =>
              -- A stray byte is a character of its own.
              rw [List.length_cons] at hlength
              have hrest := ih rest.length (by omega) rest rfl
              show 1 + widthOf (symbols rest) = n
              omega
          | some symbol =>
              obtain ⟨tail, behind, rfl, hchar⟩ := exists_isCharacter hfirst
              simp only [List.length_cons, List.length_append] at hlength
              have hbehind := ih behind.length (by omega) behind rfl
              rw [Option.getD_some, hchar.width_eq, Nat.add_sub_cancel, symbolsAfter_append, widthOf,
                hchar.width_eq]
              omega

theorem widthOf_take_le (symbols : List Symbol) (n : Nat) :
    widthOf (symbols.take n) ≤ widthOf symbols := by
  induction symbols generalizing n with
  | nil => exact Nat.le_of_eq (congrArg widthOf List.take_nil)
  | cons symbol symbols ih =>
      cases n with
      | zero => exact Nat.zero_le _
      | succ n =>
          rw [List.take_succ_cons, widthOf, widthOf]
          exact Nat.add_le_add_left (ih n) _

end Utf8

end LogMarkup
