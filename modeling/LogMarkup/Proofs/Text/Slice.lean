import LogMarkup.Text.Ascii
import Mathlib.Data.List.Pairwise
import Mathlib.Data.List.TakeWhile

/-!
# `LogMarkup.Proofs.Text.Slice` — beginnings and slices of a text

A scanner takes a beginning of the text that is left to it, and what it found is later named by two
offsets in the whole text. The lemmas here lead from the one to the other.

## Contents
- **Beginnings.** `Bytes.append_isPrefix_iff`, `Bytes.replicate_isPrefix`, and
  `Bytes.drop_add_of_drop_eq_cons` for scanners that carry an offset and the text behind it.
- **Slices.** `Bytes.extract_of_isPrefix`, for `List.extract`, the text between two offsets, and
  `Bytes.extract_append_left` and its like for slices of a part of the text.
- **Searches.** `Bytes.length_takeWhile_eq_iff` and `Bytes.findIdx?_eq`, for the first byte that a class
  does not have, or has; `Bytes.takeWhile_append_of_head` and `Bytes.takeWhile_part`, for a class that stops
  at what is behind, and `Bytes.length_takeWhile_append`, for one that stops in front of it; `Bytes.run_replicate_append` and `Bytes.head?_drop_run`, for the end of a run.
- **Sequences of pieces.** `eq_or_of_pairwise`.
-/

namespace LogMarkup

namespace Bytes

/-! ## Beginnings -/

/-- Two parts begin a text if the first one does and the second one begins what is behind it. -/
theorem append_isPrefix_iff {first second text : Bytes} :
    first ++ second <+: text ↔ first <+: text ∧ second <+: text.drop first.length := by
  constructor
  · rintro ⟨behind, rfl⟩
    rw [List.append_assoc, List.drop_left]
    exact ⟨List.prefix_append _ _, List.prefix_append _ _⟩
  · rintro ⟨⟨behind, rfl⟩, h⟩
    rw [List.drop_left] at h
    exact (List.prefix_append_right_inj first).mpr h

/-- As many bytes as a run has stand at the head of its text. -/
theorem replicate_isPrefix {b : UInt8} {text : Bytes} {n : Nat} (h : n ≤ text.run b) :
    List.replicate n b <+: text := by
  have hall : ∀ c ∈ text.takeWhile (· == b), c = b := by
    intro c hc
    exact eq_of_beq (List.mem_takeWhile_imp (p := (· == b)) hc)
  have hrun : List.replicate (text.run b) b <+: text := by
    rw [run, ← List.eq_replicate_of_mem hall]
    exact List.takeWhile_prefix _
  refine List.IsPrefix.trans ⟨List.replicate (text.run b - n) b, ?_⟩ hrun
  rw [List.replicate_append_replicate, Nat.add_sub_cancel' h]

theorem getElem?_of_drop_eq {text rest : Bytes} {start : Nat} (h : text.drop start = rest) (n : Nat) :
    text[start + n]? = rest[n]? := by
  rw [← h, List.getElem?_drop]

theorem length_of_drop_eq_cons {text rest : Bytes} {b : UInt8} {start : Nat}
    (h : text.drop start = b :: rest) : start + rest.length + 1 = text.length := by
  have hlength := congrArg List.length h
  rw [List.length_drop, List.length_cons] at hlength
  omega

theorem lt_of_drop_eq_cons {text rest : Bytes} {b : UInt8} {start : Nat}
    (h : text.drop start = b :: rest) : start < text.length := by
  have hlength := length_of_drop_eq_cons h
  omega

theorem getElem?_of_drop_eq_cons {text rest : Bytes} {b : UInt8} {start : Nat}
    (h : text.drop start = b :: rest) : text[start]? = some b :=
  getElem?_of_drop_eq h 0

/-- The byte that a scanner sees when it looks ahead. -/
theorem getElem?_succ_of_drop_eq_cons {text rest : Bytes} {b : UInt8} {start : Nat}
    (h : text.drop start = b :: rest) : text[start + 1]? = rest.head? := by
  rw [getElem?_of_drop_eq h, List.getElem?_cons_succ, List.head?_eq_getElem?]

/-- Where a text goes on with a byte behind an offset, it goes on further behind with the rest. -/
theorem drop_add_of_drop_eq_cons {text rest : Bytes} {b : UInt8} {start n : Nat}
    (h : text.drop start = b :: rest) (hn : 0 < n) : text.drop (start + n) = rest.drop (n - 1) := by
  rw [← List.drop_drop, h, List.drop_cons hn]

/-- The bytes that a class takes at the head of a text are followed by those that it leaves. -/
theorem drop_length_takeWhile (p : UInt8 → Bool) (text : Bytes) :
    text.drop (text.takeWhile p).length = text.dropWhile p := by
  have h : (text.takeWhile p ++ text.dropWhile p).drop (text.takeWhile p).length
      = text.dropWhile p := List.drop_left
  rwa [List.takeWhile_append_dropWhile] at h

/-- What is behind a byte and all bytes of a class that follow it. -/
theorem drop_word {text rest : Bytes} {b : UInt8} {start : Nat} (p : UInt8 → Bool)
    (h : text.drop start = b :: rest) :
    text.drop (start + (b :: rest.takeWhile p).length) = rest.dropWhile p := by
  have hpos : 0 < (b :: rest.takeWhile p).length := Nat.succ_pos _
  rw [drop_add_of_drop_eq_cons h hpos]
  exact drop_length_takeWhile p rest

/-! ## Slices -/

/-- A beginning of the text behind an offset is the slice of its length there. -/
theorem extract_of_isPrefix {part text : Bytes} {start : Nat} (h : part <+: text.drop start) :
    text.extract start (start + part.length) = part := by
  obtain ⟨behind, htext⟩ := h
  rw [List.extract_eq_take_drop, Nat.add_sub_cancel_left, ← htext, List.take_left]

/-- The bytes of a slice stand in the text as far behind its start. -/
theorem getElem?_of_extract {text part : Bytes} {start stop n : Nat} {b : UInt8}
    (h : text.extract start stop = part) (hb : part[n]? = some b) : text[start + n]? = some b := by
  rw [← h, List.extract_eq_take_drop, List.getElem?_take] at hb
  split at hb
  · rwa [List.getElem?_drop] at hb
  · exact absurd hb (by simp)

/-- A slice does not depend on what is behind it. -/
theorem extract_append_left {text : Bytes} (behind : Bytes) {start stop : Nat}
    (h : stop ≤ text.length) : (text ++ behind).extract start stop = text.extract start stop := by
  simp only [List.extract_eq_take_drop]
  by_cases hstart : start ≤ text.length
  · rw [List.drop_append_of_le_length hstart, List.take_append_of_le_length]
    rw [List.length_drop]
    omega
  · rw [Nat.sub_eq_zero_of_le (by omega), List.take_zero, List.take_zero]

/-- A slice behind a beginning of the text is one of what follows the beginning. -/
theorem extract_append_right (before text : Bytes) (start stop : Nat) :
    (before ++ text).extract (before.length + start) (before.length + stop)
      = text.extract start stop := by
  rw [List.extract_eq_take_drop, List.extract_eq_take_drop, List.drop_length_add_append]
  congr 1
  omega

/-- A slice of a slice. -/
theorem extract_extract (text : Bytes) {start stop first last : Nat} (h : start + last ≤ stop) :
    (text.extract start stop).extract first last = text.extract (start + first) (start + last) := by
  simp only [List.extract_eq_take_drop]
  rw [List.drop_take, List.take_take, List.drop_drop]
  congr 1
  omega

/-! ## Searches -/

/-- The bytes of a class at the head of a text end where the class is left for the first time. -/
theorem length_takeWhile_eq_iff {p : UInt8 → Bool} {text : Bytes} {n : Nat} :
    (text.takeWhile p).length = n ↔
      (∀ m < n, text[m]?.any p = true) ∧ text[n]?.any p = false := by
  induction text generalizing n with
  | nil =>
      constructor
      · rintro rfl
        exact ⟨by simp, rfl⟩
      · rintro ⟨hall, -⟩
        cases n with
        | zero => rfl
        | succ n => exact absurd (hall 0 (Nat.succ_pos n)) (by simp)
  | cons b rest ih =>
      by_cases hb : p b = true
      · rw [List.takeWhile_cons_of_pos hb, List.length_cons]
        cases n with
        | zero => simp [hb]
        | succ n =>
            rw [Nat.add_right_cancel_iff, ih, List.getElem?_cons_succ]
            refine and_congr_left fun _ => ⟨?_, fun h m hm => h (m + 1) (Nat.succ_lt_succ hm)⟩
            intro h m hm
            cases m with
            | zero => simpa using hb
            | succ m => exact h m (Nat.lt_of_succ_lt_succ hm)
      · rw [List.takeWhile_cons_of_neg hb, List.length_nil]
        cases n with
        | zero => simpa using hb
        | succ n =>
            refine ⟨fun h => absurd h (by simp), fun h => ?_⟩
            have hhead := h.1 0 (Nat.succ_pos n)
            exact absurd (by simpa using hhead) hb

/-- A class that the text behind does not start with takes nothing of it. -/
theorem takeWhile_append_of_head {p : UInt8 → Bool} {behind : Bytes}
    (h : ∀ b, behind.head? = some b → p b = false) (text : Bytes) :
    (text ++ behind).takeWhile p = text.takeWhile p := by
  induction text with
  | nil =>
      cases behind with
      | nil => rfl
      | cons b behind => exact List.takeWhile_cons_of_neg (by simp [h b rfl])
  | cons b text ih =>
      rw [List.cons_append, List.takeWhile_cons, List.takeWhile_cons, ih]

theorem dropWhile_append_of_head {p : UInt8 → Bool} {behind : Bytes}
    (h : ∀ b, behind.head? = some b → p b = false) (text : Bytes) :
    (text ++ behind).dropWhile p = text.dropWhile p ++ behind := by
  induction text with
  | nil =>
      cases behind with
      | nil => rfl
      | cons b behind => exact List.dropWhile_cons_of_neg (by simp [h b rfl])
  | cons b text ih =>
      rw [List.cons_append, List.dropWhile_cons, List.dropWhile_cons, ih]
      split <;> rfl

/-- A part of a class in front of a byte that is not in the class is what the class takes. -/
theorem takeWhile_part {p : UInt8 → Bool} {part behind : Bytes} (hpart : ∀ b ∈ part, p b = true)
    (hbehind : ∀ b, behind.head? = some b → p b = false) :
    (part ++ behind).takeWhile p = part ∧ (part ++ behind).dropWhile p = behind := by
  rw [takeWhile_append_of_head hbehind, dropWhile_append_of_head hbehind,
    List.dropWhile_eq_nil_iff.mpr hpart, List.nil_append]
  exact ⟨List.takeWhile_eq_self_iff.mpr hpart, rfl⟩

/-- What a class takes at the head of a text does not depend on what is further behind than that. -/
theorem length_takeWhile_append {p : UInt8 → Bool} {rest behind : Bytes}
    (hle : ((rest ++ behind).takeWhile p).length ≤ rest.length) :
    ((rest ++ behind).takeWhile p).length = (rest.takeWhile p).length := by
  rw [List.takeWhile_append] at hle ⊢
  split
  · next hall =>
      rw [if_pos hall, List.length_append] at hle
      rw [List.length_append, hall]
      omega
  · rfl

/-- A run ends in front of another byte. -/
theorem run_replicate_append {b : UInt8} {behind : Bytes} (h : behind.head? ≠ some b) (n : Nat) :
    run b (List.replicate n b ++ behind) = n := by
  have hrun : ∀ c ∈ List.replicate n b, (c == b) = true := by
    intro c hc
    exact beq_iff_eq.mpr (List.eq_of_mem_replicate hc)
  have hstop : ∀ c, behind.head? = some c → (c == b) = false := by
    intro c hc
    refine beq_eq_false_iff_ne.mpr ?_
    rintro rfl
    exact h hc
  rw [run, (takeWhile_part hrun hstop).1, List.length_replicate]

/-- Behind a run there is another byte, or nothing. -/
theorem head?_drop_run (b : UInt8) (text : Bytes) : (text.drop (text.run b)).head? ≠ some b := by
  rw [run, drop_length_takeWhile]
  intro h
  have hstop := List.head?_dropWhile_not (· == b) text
  rw [h] at hstop
  exact absurd hstop (by simp)

/-- A search finds the first byte behind those that it passes over. -/
theorem findIdx?_eq (p : UInt8 → Bool) (text : Bytes) :
    text.findIdx? p = match text.dropWhile (fun b => !p b) with
      | [] => none
      | _ :: _ => some (text.takeWhile fun b => !p b).length := by
  induction text with
  | nil => rfl
  | cons b rest ih =>
      cases hb : p b with
      | true => simp [List.findIdx?_cons, hb]
      | false =>
          simp only [List.findIdx?_cons, hb, ih, List.dropWhile_cons, List.takeWhile_cons]
          cases hrest : rest.dropWhile fun b => !p b <;> simp

/-- A search finds nothing where it passes over all of a text, and otherwise the byte behind what it
    passes over. -/
theorem findIdx?_cases (p : UInt8 → Bool) (text : Bytes) :
    (text.findIdx? p = none ∧ text.takeWhile (fun b => !p b) = text) ∨
    ∃ b, text.findIdx? p = some (text.takeWhile fun b => !p b).length ∧
      text[(text.takeWhile fun b => !p b).length]? = some b := by
  rw [findIdx?_eq, ← List.head?_drop, drop_length_takeWhile]
  cases hbehind : text.dropWhile fun b => !p b with
  | nil =>
      have hall := List.takeWhile_append_dropWhile (p := fun b => !p b) (l := text)
      rw [hbehind, List.append_nil] at hall
      exact .inl ⟨rfl, hall⟩
  | cons b rest => exact .inr ⟨b, rfl, rfl⟩

end Bytes

/-! ## Sequences of pieces -/

/-- Two members of a sequence are the same, or one stands in front of the other one. -/
theorem eq_or_of_pairwise {α : Type} {r : α → α → Prop} {pieces : List α} (h : pieces.Pairwise r)
    {a b : α} (ha : a ∈ pieces) (hb : b ∈ pieces) : a = b ∨ r a b ∨ r b a := by
  have hsymm : Std.Symm fun x y => r x y ∨ r y x := ⟨fun _ _ => Or.symm⟩
  have hboth : pieces.Pairwise fun x y => r x y ∨ r y x := h.imp Or.inl
  by_cases heq : a = b
  · exact .inl heq
  · exact .inr (hboth.forall ha hb heq)

end LogMarkup
