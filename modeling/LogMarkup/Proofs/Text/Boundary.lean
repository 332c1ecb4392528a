import LogMarkup.Text.Character
import LogMarkup.Proofs.Text.Slice
import Mathlib.Data.List.Forall2

/-!
# `LogMarkup.Proofs.Text.Boundary` — places between the characters of a text

The scanners cut a text at offsets that they find byte by byte. The pieces are texts again if the cuts
lie between two characters. In well-formed UTF-8 this can be read off a single byte: a character starts
at every byte that continues none, hence at every ASCII byte and right behind one.

## Contents
- **Texts.** `Utf8.IsText`, the sequences of characters, and `Utf8.isValid_iff`, which makes the test
  for well-formed bytes open to induction; `Utf8.isValid_of_forall₂`, for texts with ASCII bytes swapped.
- **Boundaries.** `Utf8.IsBoundary`, with `Utf8.isBoundary_of_ascii` and `Utf8.isBoundary_succ`.
-/

namespace LogMarkup

namespace Utf8

/-! ## Texts -/

/-- A sequence of characters. -/
inductive IsText : Bytes → Prop
  | nil : IsText []
  | cons {lead : UInt8} {tail behind : Bytes} {symbol : Symbol} :
      IsCharacter lead tail symbol → IsText behind → IsText (lead :: (tail ++ behind))

theorem IsText.exists_of_cons {lead : UInt8} {rest : Bytes} (h : IsText (lead :: rest)) :
    ∃ tail behind symbol, rest = tail ++ behind ∧ IsCharacter lead tail symbol ∧ IsText behind := by
  generalize htext : lead :: rest = text at h
  cases h with
  | nil => exact absurd htext (by simp)
  | @cons _ tail behind symbol hchar hbehind =>
      obtain ⟨rfl, rfl⟩ := List.cons.inj htext
      exact ⟨tail, behind, symbol, rfl, hchar, hbehind⟩

theorem isValidAfter_append (first second : Bytes) :
    isValidAfter first.length (first ++ second) = isValid second := by
  induction first with
  | nil => rfl
  | cons b first ih => exact ih

theorem isValid_character_append {lead : UInt8} {tail : Bytes} {symbol : Symbol}
    (h : IsCharacter lead tail symbol) (behind : Bytes) :
    isValid (lead :: (tail ++ behind)) = isValid behind := by
  rw [isValid, isValidAfter, h.first?_append]
  simp only [h.width_eq, Nat.add_sub_cancel]
  exact isValidAfter_append tail behind

theorem isText_of_isValid : ∀ {text : Bytes}, isValid text = true → IsText text
  | [], _ => .nil
  | lead :: rest, hvalid => by
      cases hfirst : first? (lead :: rest) with
      | none =>
          rw [isValid, isValidAfter, hfirst] at hvalid
          exact absurd hvalid (by simp)
      | some symbol =>
          obtain ⟨tail, behind, rfl, hchar⟩ := exists_isCharacter hfirst
          rw [isValid_character_append hchar] at hvalid
          exact .cons hchar (isText_of_isValid hvalid)
  termination_by text => text.length

/-- **Bytes are well-formed if they are a sequence of characters.** -/
theorem isValid_iff {text : Bytes} : isValid text = true ↔ IsText text := by
  refine ⟨isText_of_isValid, ?_⟩
  intro h
  induction h with
  | nil => rfl
  | cons hchar _ ih => rw [isValid_character_append hchar, ih]

/-- Whether a text is well-formed is decided behind any well-formed beginning of it. -/
theorem isValid_append_right {first : Bytes} (h : isValid first = true) (second : Bytes) :
    isValid (first ++ second) = isValid second := by
  rw [isValid_iff] at h
  induction h with
  | nil => rfl
  | cons hchar _ ih =>
      rw [List.cons_append, List.append_assoc, isValid_character_append hchar]
      exact ih

theorem isValid_append {first second : Bytes} (h₁ : isValid first = true)
    (h₂ : isValid second = true) : isValid (first ++ second) = true := by
  rw [isValid_append_right h₁]
  exact h₂

/-- Two bytes that are the same, or both ASCII. -/
def IsSwapped (b c : UInt8) : Prop := b = c ∨ (b < 0x80 ∧ c < 0x80)

theorem isCharacter_of_ascii {b : UInt8} (hb : b < 0x80) :
    IsCharacter b [] ⟨Char.ofNat b.toNat, 1⟩ := by
  refine ⟨rfl, ?_, by simp⟩
  intro behind
  rw [first?, if_pos hb]

/-- The bytes that continue a character are kept where only ASCII bytes are swapped. -/
theorem eq_of_forall₂_isSwapped {other tail : Bytes} (h : List.Forall₂ IsSwapped other tail)
    (htail : ∀ b ∈ tail, isContinuation b = true) : other = tail := by
  induction h with
  | nil => rfl
  | @cons b c other tail hswap _ ih =>
      have hc := (isContinuation_iff.mp (htail c List.mem_cons_self)).1
      rcases hswap with rfl | ⟨-, hascii⟩
      · rw [ih fun d hd => htail d (List.mem_cons_of_mem _ hd)]
      · exact absurd hascii (UInt8.not_lt.mpr hc)

/-- **A text stays one where ASCII bytes are swapped for others.** -/
theorem isValid_of_forall₂ {other text : Bytes} (h : List.Forall₂ IsSwapped other text)
    (hvalid : isValid text = true) : isValid other = true := by
  rw [isValid_iff] at hvalid ⊢
  induction hvalid generalizing other with
  | nil =>
      cases h
      exact .nil
  | @cons lead tail behind symbol hchar _ ih =>
      obtain ⟨b, more, hswap, hmore, rfl⟩ := List.forall₂_cons_right_iff.mp h
      have htail := eq_of_forall₂_isSwapped (List.forall₂_take_append more tail behind hmore)
        hchar.isContinuation_of_mem
      have hbehind := ih (List.forall₂_drop_append more tail behind hmore)
      rw [← List.take_append_drop tail.length more, htail]
      rcases hswap with rfl | ⟨hb, hlead⟩
      · exact .cons hchar hbehind
      · obtain rfl := hchar.tail_eq_nil hlead
        exact .cons (isCharacter_of_ascii hb) hbehind

/-! ## Boundaries -/

/-- A place of a text between two characters, or one of its ends: both sides of it are texts. -/
structure IsBoundary (text : Bytes) (offset : Nat) : Prop where
  le_length : offset ≤ text.length
  isValid_take : isValid (text.take offset) = true
  isValid_drop : isValid (text.drop offset) = true

theorem isBoundary_zero {text : Bytes} (h : isValid text = true) : IsBoundary text 0 :=
  ⟨Nat.zero_le _, rfl, h⟩

theorem isBoundary_length {text : Bytes} (h : isValid text = true) : IsBoundary text text.length :=
  ⟨Nat.le_refl _, by rwa [List.take_length], by rw [List.drop_length]; rfl⟩

/-- A boundary behind a character of the text. -/
theorem IsBoundary.cons {lead : UInt8} {tail behind : Bytes} {symbol : Symbol} {offset : Nat}
    (hchar : IsCharacter lead tail symbol) (h : IsBoundary behind offset) :
    IsBoundary (lead :: (tail ++ behind)) (tail.length + offset + 1) := by
  refine ⟨?_, ?_, ?_⟩
  · have hle := h.le_length
    simp only [List.length_cons, List.length_append]
    omega
  · rw [List.take_succ_cons, List.take_length_add_append, isValid_character_append hchar]
    exact h.isValid_take
  · rw [List.drop_succ_cons, List.drop_length_add_append]
    exact h.isValid_drop

/-- **A character starts at every byte that continues none.** -/
theorem isBoundary_of_lead {text : Bytes} (hvalid : isValid text = true) {offset : Nat}
    {b : UInt8} (hb : text[offset]? = some b) (hlead : isContinuation b = false) :
    IsBoundary text offset := by
  have htext := isValid_iff.mp hvalid
  induction htext generalizing offset with
  | nil => exact absurd hb (by simp)
  | @cons lead tail behind symbol hchar hbehind ih =>
      cases offset with
      | zero => exact isBoundary_zero hvalid
      | succ offset =>
          rw [List.getElem?_cons_succ] at hb
          -- Inside of the first character there are only bytes that continue it.
          by_cases hin : offset < tail.length
          · rw [List.getElem?_append_left hin] at hb
            have hcontinuation := hchar.isContinuation_of_mem b (List.mem_of_getElem? hb)
            exact absurd hcontinuation (by rw [hlead]; simp)
          · rw [List.getElem?_append_right (Nat.le_of_not_lt hin)] at hb
            have hbound := (ih (isValid_iff.mpr hbehind) hb).cons hchar
            rwa [Nat.add_sub_cancel' (Nat.le_of_not_lt hin)] at hbound

/-- A boundary of what stands behind a boundary. -/
theorem IsBoundary.of_drop {text : Bytes} {first second : Nat} (h₁ : IsBoundary text first)
    (h₂ : IsBoundary (text.drop first) second) : IsBoundary text (first + second) := by
  refine ⟨?_, ?_, ?_⟩
  · have hfirst := h₁.le_length
    have hsecond := h₂.le_length
    rw [List.length_drop] at hsecond
    omega
  · rw [List.take_add]
    exact isValid_append h₁.isValid_take h₂.isValid_take
  · rw [← List.drop_drop]
    exact h₂.isValid_drop

/-- A boundary of what stands in front of a boundary. -/
theorem IsBoundary.of_take {text : Bytes} {stop offset : Nat} (h₁ : IsBoundary text stop)
    (h₂ : IsBoundary (text.take stop) offset) : IsBoundary text offset := by
  have hle := h₂.le_length
  rw [List.length_take_of_le h₁.le_length] at hle
  refine ⟨hle.trans h₁.le_length, ?_, ?_⟩
  · have htake := h₂.isValid_take
    rwa [List.take_take, Nat.min_eq_left hle] at htake
  · have hdrop := isValid_append h₂.isValid_drop h₁.isValid_drop
    rw [List.drop_take] at hdrop
    rwa [← List.take_append_drop (stop - offset) (text.drop offset), List.drop_drop,
      Nat.add_sub_cancel' hle]

/-- **What stands between two boundaries is a text.** -/
theorem IsBoundary.isValid_extract {text : Bytes} {start stop : Nat} (h₁ : IsBoundary text start)
    (h₂ : IsBoundary text stop) (hle : start ≤ stop) :
    isValid (text.extract start stop) = true := by
  have hvalid := h₂.isValid_take
  have hsplit : text.take stop = text.take start ++ text.extract start stop := by
    rw [List.extract_eq_take_drop, ← List.take_add, Nat.add_sub_cancel' hle]
  rw [hsplit, isValid_append_right h₁.isValid_take] at hvalid
  exact hvalid

theorem isBoundary_of_ascii {text : Bytes} (hvalid : isValid text = true) {offset : Nat}
    {b : UInt8} (hb : text[offset]? = some b) (hascii : b < 0x80) : IsBoundary text offset := by
  refine isBoundary_of_lead hvalid hb ?_
  rw [← Bool.not_eq_true, isContinuation_iff]
  exact fun h => absurd h.1 (UInt8.not_le.mpr hascii)

/-- **A character starts behind every ASCII byte**, if the text goes on there. -/
theorem isBoundary_succ {text : Bytes} (hvalid : isValid text = true) {offset : Nat}
    {b : UInt8} (hb : text[offset]? = some b) (hascii : b < 0x80) :
    IsBoundary text (offset + 1) := by
  have hbound := isBoundary_of_ascii hvalid hb hascii
  refine hbound.of_drop ?_
  obtain ⟨hlt, hget⟩ := List.getElem?_eq_some_iff.mp hb
  have hdrop := isValid_iff.mp hbound.isValid_drop
  rw [List.drop_eq_getElem_cons hlt, hget] at hdrop ⊢
  obtain ⟨tail, behind, symbol, hrest, hchar, hbehind⟩ := hdrop.exists_of_cons
  obtain rfl := hchar.tail_eq_nil hascii
  rw [hrest]
  exact (isBoundary_zero (isValid_iff.mpr hbehind)).cons hchar

end Utf8

end LogMarkup
