import LogMarkup.BracePair
import LogMarkup.Proofs.Text.Slice

/-!
# `LogMarkup.Proofs.BracePair.Content` — pairs of braces in a content

Both searches for the other brace of a pair go away from the brace that they start at, and end at the
first brace that they meet or at the greatest distance. So it does not matter from which brace a pair is
looked for: one description, which does not search at all, is true of both.

## Contents
- **Pairs.** `IsBracePair`, two braces without another one between them, and `closingBehind?_eq_some_iff`
  and `openingBefore?_eq_some_iff`.
- **Cursors.** `IsAtBraces`, the cursors that show a pair, and `bracePairIn?_eq_some_iff`.
-/

namespace LogMarkup

open Ascii

/-! ## Pairs -/

/-- Two offsets of a content have the braces of one hole, at most `distance` bytes apart. -/
structure IsBracePair (content : Bytes) (distance opening closing : Nat) : Prop where
  opening_lt : opening < closing
  getElem?_opening : content[opening]? = some openBrace
  getElem?_closing : content[closing]? = some closeBrace
  isBrace_eq_false : ∀ offset, opening < offset → offset < closing →
    content[offset]?.any isBrace = false
  le_distance : closing - opening ≤ distance

section

variable {content : Bytes} {distance opening closing : Nat}

/-- A search meets its first brace where it leaves the bytes that are none. -/
theorem firstBrace_iff {reach : Bytes} {k : Nat} {b : UInt8} (hb : isBrace b = true) :
    reach[(reach.takeWhile fun c => !isBrace c).length]? = some b ∧
        (reach.takeWhile fun c => !isBrace c).length = k ↔
      reach[k]? = some b ∧ ∀ m < k, reach[m]?.any isBrace = false := by
  constructor
  · rintro ⟨hget, rfl⟩
    refine ⟨hget, ?_⟩
    intro m hm
    have hnone := (Bytes.length_takeWhile_eq_iff.mp rfl).1 m hm
    cases hm : reach[m]? with
    | none => rfl
    | some c => simpa [hm] using hnone
  · rintro ⟨hget, hnone⟩
    have hlength : (reach.takeWhile fun c => !isBrace c).length = k := by
      refine Bytes.length_takeWhile_eq_iff.mpr ⟨?_, by simpa [hget] using hb⟩
      intro m hm
      have hlt : m < reach.length := hm.trans (List.getElem?_eq_some_iff.mp hget).1
      have hbyte := hnone m hm
      rw [List.getElem?_eq_getElem hlt] at hbyte ⊢
      simpa using hbyte
    exact ⟨hlength.symm ▸ hget, hlength⟩

/-- **The search forwards finds the closing brace of a pair.** -/
theorem closingBehind?_eq_some_iff (hopen : content[opening]? = some openBrace) :
    closingBehind? content distance opening = some closing ↔
      IsBracePair content distance opening closing := by
  have hreach : ∀ m, m < distance → ((content.drop (opening + 1)).take distance)[m]?
      = content[opening + 1 + m]? := by
    intro m hm
    rw [List.getElem?_take_of_lt hm, List.getElem?_drop]
  unfold closingBehind?
  extract_lets reach between
  constructor
  · intro h
    split at h
    · next hget =>
        obtain rfl := Option.some.inj h
        obtain ⟨hclose, hnone⟩ := (firstBrace_iff (by decide)).mp ⟨hget, rfl⟩
        have hlt : between.length < distance :=
          (List.getElem?_eq_some_iff.mp hclose).1.trans_le (List.length_take_le _ _)
        refine ⟨by omega, hopen, (hreach _ hlt).symm.trans hclose, ?_, by omega⟩
        intro offset hlow hhigh
        obtain ⟨m, rfl⟩ := Nat.exists_eq_add_of_le hlow
        have hm : m < between.length := by omega
        rw [← hreach m (by omega)]
        exact hnone m hm
    · exact absurd h (by simp)
  · intro h
    obtain ⟨k, rfl⟩ := Nat.exists_eq_add_of_le h.opening_lt
    have hdistance := h.le_distance
    obtain ⟨hget, hlength⟩ : reach[between.length]? = some closeBrace ∧ between.length = k := by
      refine (firstBrace_iff (by decide)).mpr ⟨?_, ?_⟩
      · exact (hreach k (by omega)).trans h.getElem?_closing
      · intro m hm
        rw [hreach m (by omega)]
        exact h.isBrace_eq_false _ (by omega) (by omega)
    rw [if_pos hget, hlength]

/-- **The search backwards finds the opening brace of a pair.** -/
theorem openingBefore?_eq_some_iff (hclose : content[closing]? = some closeBrace) :
    openingBefore? content distance closing = some opening ↔
      IsBracePair content distance opening closing := by
  have hlt : closing < content.length := (List.getElem?_eq_some_iff.mp hclose).1
  have hlength : (((content.take closing).drop (closing - distance)).reverse).length
      = min closing distance := by
    rw [List.length_reverse, List.length_drop, List.length_take]
    omega
  -- The search counts the bytes away from the closing brace.
  have hreach : ∀ m, m < min closing distance →
      (((content.take closing).drop (closing - distance)).reverse)[m]?
        = content[closing - (m + 1)]? := by
    intro m hm
    rw [List.length_reverse] at hlength
    rw [List.getElem?_reverse (hlength ▸ hm), hlength, List.getElem?_drop,
      List.getElem?_take_of_lt (by omega)]
    congr 1
    omega
  unfold openingBefore?
  extract_lets reach between
  constructor
  · intro h
    split at h
    · next hget =>
        obtain rfl := Option.some.inj h
        obtain ⟨hopen, hnone⟩ := (firstBrace_iff (by decide)).mp ⟨hget, rfl⟩
        have hbetween : between.length < min closing distance :=
          hlength ▸ (List.getElem?_eq_some_iff.mp hopen).1
        refine ⟨by omega, (hreach _ hbetween).symm.trans hopen, hclose, ?_, by omega⟩
        intro offset hlow hhigh
        obtain ⟨m, hm, rfl⟩ : ∃ m, m < between.length ∧ offset = closing - (m + 1) :=
          ⟨closing - offset - 1, by omega, by omega⟩
        rw [← hreach m (by omega)]
        exact hnone m hm
    · exact absurd h (by simp)
  · intro h
    have hlow := h.opening_lt
    have hdistance := h.le_distance
    obtain ⟨k, hle, rfl⟩ : ∃ k, k + 1 ≤ closing ∧ opening = closing - (k + 1) :=
      ⟨closing - opening - 1, by omega, by omega⟩
    obtain ⟨hget, hk⟩ : reach[between.length]? = some openBrace ∧ between.length = k := by
      refine (firstBrace_iff (by decide)).mpr ⟨?_, ?_⟩
      · exact (hreach k (by omega)).trans h.getElem?_opening
      · intro m hm
        rw [hreach m (by omega)]
        exact h.isBrace_eq_false _ (by omega) (by omega)
    rw [if_pos hget, hk]

end

/-! ## Cursors -/

/-- The cursors that show a pair of braces: those at one of the two, and the one right behind the
    closing brace, if it is not at another brace. -/
def IsAtBraces (content : Bytes) (opening closing cursor : Nat) : Prop :=
  cursor = opening ∨ cursor = closing ∨
    (cursor = closing + 1 ∧ content[cursor]?.any isBrace = false)

section

variable {content : Bytes} {distance cursor opening closing : Nat}

/-- A pair is looked for from the brace at the cursor, or else from the closing one before it. -/
theorem braceAt?_eq_some_iff {brace : Nat} :
    braceAt? content cursor = some brace ↔
      (cursor = brace ∧ content[brace]?.any isBrace = true) ∨
      (cursor = brace + 1 ∧ content[brace]? = some closeBrace ∧
        content[cursor]?.any isBrace = false) := by
  unfold braceAt?
  constructor
  · intro h
    split at h
    · next hbrace =>
        obtain rfl := Option.some.inj h
        exact .inl ⟨rfl, hbrace⟩
    · next hnone =>
        split at h
        · next hclose =>
            obtain rfl := Option.some.inj h
            exact .inr ⟨by omega, hclose.2, Bool.not_eq_true _ ▸ hnone⟩
        · exact absurd h (by simp)
  · rintro (⟨rfl, hbrace⟩ | ⟨rfl, hclose, hnone⟩)
    · rw [if_pos hbrace]
    · rw [hnone, if_neg Bool.false_ne_true, if_pos ⟨Nat.succ_pos _, hclose⟩]
      rfl

theorem eq_closeBrace_of_isBrace {offset : Nat} (h : content[offset]?.any isBrace = true)
    (hne : content[offset]? ≠ some openBrace) : content[offset]? = some closeBrace := by
  cases hbyte : content[offset]? with
  | none =>
      rw [hbyte] at h
      exact absurd h (by simp)
  | some b =>
      rw [hbyte] at h hne
      rcases isBrace_iff.mp h with rfl | rfl
      · exact absurd rfl hne
      · rfl

/-- **The pair that is found at a cursor is the one that the cursor shows.** -/
theorem bracePairIn?_eq_some_iff :
    bracePairIn? content distance cursor = some (opening, closing) ↔
      IsBracePair content distance opening closing ∧
        IsAtBraces content opening closing cursor := by
  unfold bracePairIn?
  constructor
  · intro h
    split at h
    · exact absurd h (by simp)
    · next brace hbrace =>
        have hcursor := braceAt?_eq_some_iff.mp hbrace
        split at h
        · next hopen =>
            -- Only a closing brace is found from behind, so the cursor is at this one.
            obtain ⟨found, hfound, hpair⟩ := Option.map_eq_some_iff.mp h
            obtain ⟨rfl, rfl⟩ := Prod.mk.inj hpair
            refine ⟨(closingBehind?_eq_some_iff hopen).mp hfound, ?_⟩
            rcases hcursor with ⟨rfl, -⟩ | ⟨-, hclose, -⟩
            · exact .inl rfl
            · exact absurd (hopen.symm.trans hclose) (by decide)
        · next hopen =>
            obtain ⟨found, hfound, hpair⟩ := Option.map_eq_some_iff.mp h
            obtain ⟨rfl, rfl⟩ := Prod.mk.inj hpair
            rcases hcursor with ⟨rfl, hany⟩ | ⟨rfl, hclose, hnone⟩
            · have hclose := eq_closeBrace_of_isBrace hany hopen
              exact ⟨(openingBefore?_eq_some_iff hclose).mp hfound, .inr (.inl rfl)⟩
            · exact ⟨(openingBefore?_eq_some_iff hclose).mp hfound, .inr (.inr ⟨rfl, hnone⟩)⟩
  · rintro ⟨hpair, hcursor⟩
    have hopening := hpair.getElem?_opening
    have hclosing := hpair.getElem?_closing
    have hbehind := (closingBehind?_eq_some_iff hopening).mpr hpair
    have hbefore := (openingBefore?_eq_some_iff hclosing).mpr hpair
    have hne : content[closing]? ≠ some openBrace := by
      rw [hclosing]
      decide
    rcases hcursor with rfl | rfl | ⟨rfl, hnone⟩
    · rw [braceAt?_eq_some_iff.mpr (.inl ⟨rfl, by rw [hopening]; rfl⟩)]
      simp only [if_pos hopening, hbehind, Option.map_some]
    · rw [braceAt?_eq_some_iff.mpr (.inl ⟨rfl, by rw [hclosing]; rfl⟩)]
      simp only [if_neg hne, hbefore, Option.map_some]
    · rw [braceAt?_eq_some_iff.mpr (.inr ⟨rfl, hclosing, hnone⟩)]
      simp only [if_neg hne, hbefore, Option.map_some]

end

end LogMarkup
