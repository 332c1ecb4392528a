import LogMarkup.Message.Hole
import LogMarkup.Proofs.Text.Slice

/-!
# `LogMarkup.Proofs.Message.Hole` — holes stand where they are read

Each reader of a part takes a beginning of the text that is left to it and hands on the rest. So a hole
that is read stands written at the head of its text, from its `{` to its `}`, and no other `}` stands
between the two, since none of its parts may have one.

## Contents
- **Parts.** `Hole.eq_of_readSigil` and its like, one lemma per reader.
- **One hole.** `Hole.inside`, what stands between the braces, and `Hole.IsWritten`, what is known of a
  hole that was read, with `Hole.isWritten_of_read?`.
- **All holes.** `Hole.read?_of_mem_allFrom` and `Hole.pairwise_allFrom`.
-/

namespace LogMarkup

open Ascii

namespace Hole

/-! ## Parts -/

/-- What an optional part writes has a byte only from its announcer or from the part. -/
theorem mem_optionalText {announcer b : UInt8} {part : Option Bytes}
    (h : b ∈ optionalText announcer part) : b = announcer ∨ ∃ text, part = some text ∧ b ∈ text := by
  cases part with
  | none => exact absurd h (by simp [optionalText])
  | some text =>
      rcases List.mem_cons.mp h with hannouncer | hmem
      · exact .inl hannouncer
      · exact .inr ⟨text, rfl, hmem⟩

theorem eq_of_readSigil {text rest : Bytes} {sigil : Option Sigil}
    (h : readSigil text = (sigil, rest)) : text = (sigil.map Sigil.byte).toList ++ rest := by
  unfold readSigil at h
  split at h
  · obtain ⟨rfl, rfl⟩ := Prod.mk.inj h
    rfl
  · next b behind =>
      split at h
      · next hb =>
          obtain ⟨rfl, rfl⟩ := Prod.mk.inj h
          rw [hb]
          rfl
      split at h
      · next hb =>
          obtain ⟨rfl, rfl⟩ := Prod.mk.inj h
          rw [hb]
          rfl
      split at h
      · next hb =>
          obtain ⟨rfl, rfl⟩ := Prod.mk.inj h
          rw [hb]
          rfl
      · obtain ⟨rfl, rfl⟩ := Prod.mk.inj h
        rfl

theorem eq_of_readName? {text name rest : Bytes} (h : readName? text = some (name, rest)) :
    text = name ++ rest ∧ name ≠ [] ∧ ∀ b ∈ name, isWord b = true := by
  unfold readName? at h
  split at h
  · exact absurd h (by simp)
  · next b behind =>
      split at h
      · next hstart =>
          obtain ⟨rfl, rfl⟩ := Prod.mk.inj (Option.some.inj h)
          refine ⟨?_, by simp, ?_⟩
          · rw [List.cons_append, List.takeWhile_append_dropWhile]
          · intro c hc
            rcases List.mem_cons.mp hc with rfl | hc
            · rw [isWord, hstart, Bool.true_or]
            · exact List.mem_takeWhile_imp hc
      split at h
      · next hdigit =>
          obtain ⟨rfl, rfl⟩ := Prod.mk.inj (Option.some.inj h)
          refine ⟨?_, by simp, ?_⟩
          · rw [List.cons_append, List.takeWhile_append_dropWhile]
          · intro c hc
            rcases List.mem_cons.mp hc with rfl | hc
            · rw [isWord, hdigit, Bool.or_true]
            · rw [isWord, List.mem_takeWhile_imp hc, Bool.or_true]
      · exact absurd h (by simp)

theorem eq_of_readSign {text sign rest : Bytes} (h : readSign text = (sign, rest)) :
    text = sign ++ rest ∧ ∀ b ∈ sign, b = plus ∨ b = minus := by
  unfold readSign at h
  split at h
  · obtain ⟨rfl, rfl⟩ := Prod.mk.inj h
    exact ⟨rfl, by simp⟩
  · next b behind =>
      split at h
      · next hb =>
          obtain ⟨rfl, rfl⟩ := Prod.mk.inj h
          exact ⟨rfl, by simpa using hb⟩
      · obtain ⟨rfl, rfl⟩ := Prod.mk.inj h
        exact ⟨rfl, by simp⟩

theorem eq_of_readAlignment {text rest : Bytes} {alignment : Option Bytes}
    (h : readAlignment text = (alignment, rest)) :
    text = optionalText comma alignment ++ rest ∧
      ∀ part, alignment = some part → ∀ b ∈ part, b = plus ∨ b = minus ∨ isDigit b = true := by
  unfold readAlignment at h
  split at h
  · obtain ⟨rfl, rfl⟩ := Prod.mk.inj h
    exact ⟨rfl, by simp⟩
  · next b behind =>
      split at h
      · next hb =>
          split at h
          next sign unsigned hsigned =>
          obtain ⟨htext, hsign⟩ := eq_of_readSign hsigned
          by_cases hnone : unsigned.takeWhile isDigit = []
          · rw [if_pos hnone] at h
            obtain ⟨rfl, rfl⟩ := Prod.mk.inj h
            exact ⟨rfl, by simp⟩
          · rw [if_neg hnone] at h
            obtain ⟨rfl, rfl⟩ := Prod.mk.inj h
            refine ⟨?_, ?_⟩
            · rw [optionalText, List.cons_append, List.append_assoc,
                List.takeWhile_append_dropWhile, ← htext, hb]
            · intro part hpart c hc
              obtain rfl := Option.some.inj hpart
              rcases List.mem_append.mp hc with hc | hc
              · exact (hsign c hc).imp_right .inl
              · exact .inr (.inr (List.mem_takeWhile_imp hc))
      · obtain ⟨rfl, rfl⟩ := Prod.mk.inj h
        exact ⟨rfl, by simp⟩

theorem eq_of_readFormat {text rest : Bytes} {format : Option Bytes}
    (h : readFormat text = (format, rest)) :
    text = optionalText colon format ++ rest ∧
      ∀ part, format = some part → ∀ b ∈ part, b ≠ closeBrace := by
  unfold readFormat at h
  split at h
  · obtain ⟨rfl, rfl⟩ := Prod.mk.inj h
    exact ⟨rfl, by simp⟩
  · next b behind =>
      split at h
      · next hb =>
          obtain ⟨rfl, rfl⟩ := Prod.mk.inj h
          refine ⟨?_, ?_⟩
          · rw [optionalText, List.cons_append, List.takeWhile_append_dropWhile, hb]
          · intro part hpart c hc
            obtain rfl := Option.some.inj hpart
            have hbare := List.mem_takeWhile_imp hc
            exact bne_iff_ne.mp hbare
      · obtain ⟨rfl, rfl⟩ := Prod.mk.inj h
        exact ⟨rfl, by simp⟩

/-! ## One hole -/

/-- What a hole has between its braces. -/
def inside (hole : Hole) : Bytes :=
  (hole.sigil.map Sigil.byte).toList ++ hole.name ++ optionalText comma hole.alignment
    ++ optionalText colon hole.format

theorem text_eq (hole : Hole) : hole.text = openBrace :: (hole.inside ++ [closeBrace]) := rfl

/-- A hole as it is written at the head of a text. -/
structure IsWritten (text : Bytes) (hole : Hole) : Prop where
  text_isPrefix : hole.text <+: text
  name_ne_nil : hole.name ≠ []
  ne_closeBrace : ∀ b ∈ hole.inside, b ≠ closeBrace

theorem ne_closeBrace_of_isWord {b : UInt8} (h : isWord b = true) : b ≠ closeBrace := by
  rintro rfl
  exact absurd h (by decide)

theorem Sigil.byte_ne_closeBrace (sigil : Sigil) : sigil.byte ≠ closeBrace := by
  cases sigil <;> decide

/-- **A hole that is read stands written at the head of the text.** -/
theorem isWritten_of_read? {text : Bytes} {hole : Hole} (h : read? text = some hole) :
    IsWritten text hole := by
  unfold read? at h
  split at h
  · exact absurd h (by simp)
  · next b rest =>
      split at h
      · next hb =>
          unfold readInside? at h
          split at h
          next sigil afterSigil hsigil =>
          split at h
          · exact absurd h (by simp)
          next name afterName hname =>
          split at h
          next alignment afterAlignment halignment =>
          split at h
          next format afterFormat hformat =>
          split at h
          · next hclose =>
              obtain rfl := Option.some.inj h
              obtain ⟨behind, hbehind⟩ := List.head?_eq_some_iff.mp hclose
              obtain ⟨hwritten, hne, hword⟩ := eq_of_readName? hname
              obtain ⟨hwritten', hdigits⟩ := eq_of_readAlignment halignment
              obtain ⟨hwritten'', hbare⟩ := eq_of_readFormat hformat
              refine ⟨⟨behind, ?_⟩, hne, ?_⟩
              · rw [hb, eq_of_readSigil hsigil, hwritten, hwritten', hwritten'', hbehind, text_eq,
                  inside]
                simp only [List.cons_append, List.append_assoc, List.nil_append]
              · intro c hc
                simp only [inside, List.mem_append, or_assoc] at hc
                rcases hc with hc | hc | hc | hc
                · simp only [Option.mem_toList, Option.map_eq_some_iff] at hc
                  obtain ⟨sign, -, rfl⟩ := hc
                  exact Sigil.byte_ne_closeBrace sign
                · exact ne_closeBrace_of_isWord (hword c hc)
                · rcases mem_optionalText hc with rfl | ⟨part, hpart, hmem⟩
                  · decide
                  · rintro rfl
                    rcases hdigits part hpart closeBrace hmem with h | h | h <;>
                      exact absurd h (by decide)
                · rcases mem_optionalText hc with rfl | ⟨part, hpart, hmem⟩
                  · decide
                  · exact hbare part hpart c hmem
          · exact absurd h (by simp)
      · exact absurd h (by simp)

/-! ## All holes -/

/-- What the search finds was read at its own offset, and not in front of the place to search from. -/
theorem read?_of_mem_allFrom {text rest : Bytes} {start offset : Nat} {hole : Hole}
    (hrest : text.drop start = rest) (h : (offset, hole) ∈ allFrom start rest) :
    start ≤ offset ∧ read? (text.drop offset) = some hole := by
  fun_induction allFrom start rest with
  | case1 => exact absurd h (by simp)
  | case2 start b rest _ ih =>
      obtain ⟨hle, hread⟩ := ih (Bytes.drop_add_of_drop_eq_cons hrest Nat.zero_lt_one) h
      exact ⟨Nat.le_of_succ_le hle, hread⟩
  | case3 start b rest first hfirst ih =>
      rcases List.mem_cons.mp h with heq | hmem
      · obtain ⟨rfl, rfl⟩ := Prod.mk.inj heq
        rw [hrest]
        exact ⟨Nat.le_refl _, hfirst⟩
      · obtain ⟨hle, hread⟩ :=
          ih (Bytes.drop_add_of_drop_eq_cons hrest first.length_text_pos) hmem
        exact ⟨by omega, hread⟩

/-- The holes that the search finds follow one another without sharing a byte. -/
theorem pairwise_allFrom {text rest : Bytes} {start : Nat} (hrest : text.drop start = rest) :
    (allFrom start rest).Pairwise fun first second =>
      first.1 + first.2.text.length ≤ second.1 := by
  fun_induction allFrom start rest with
  | case1 => exact List.Pairwise.nil
  | case2 start b rest _ ih => exact ih (Bytes.drop_add_of_drop_eq_cons hrest Nat.zero_lt_one)
  | case3 start b rest first hfirst ih =>
      have hbehind := Bytes.drop_add_of_drop_eq_cons hrest first.length_text_pos
      refine List.Pairwise.cons ?_ (ih hbehind)
      intro second hsecond
      exact (read?_of_mem_allFrom hbehind hsecond).1

end Hole

end LogMarkup
