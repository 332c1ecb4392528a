import LogMarkup.Proofs.Text.Enclosed

/-!
# `LogMarkup.Proofs.Text.Units` — texts made of units, and walks that pass over them

A grammar of enclosed text says what its units are: bytes that stand alone, and pairs of bytes that belong
together, such as an escape. A walk takes single bytes and pairs, too. Where it takes just the units of a
grammar, it passes over every text that is made of them, and what it has taken when it closes is made of
them. Several texts in a row are passed over one after the other, and the walk may be in another state
behind each of them.

## Contents
- **Units.** `Bytes.IsUnits`, with `Bytes.IsUnits.of_forall`, `Bytes.IsUnits.imp`,
  `Bytes.IsUnits.single_of_mem` and `Escaped.isUnits`.
- **Passing over.** `Enclosed.Passes`, one lemma per way to compose it, `Enclosed.Passes.read_eq` for the
  byte that closes, and `Enclosed.passes_of_isUnits`.
- **Grammars.** `Enclosed.TakesUnits`, and `Enclosed.TakesUnits.read_eq_iff` — the walk closes behind units,
  and only there.
-/

namespace LogMarkup

/-! ## Units -/

/-- A sequence of units: bytes that stand alone, and pairs of bytes that belong together. -/
inductive Bytes.IsUnits (single : UInt8 → Prop) (pair : UInt8 → UInt8 → Prop) : Bytes → Prop
  | nil : IsUnits single pair []
  | single {b : UInt8} {rest : Bytes} :
      single b → IsUnits single pair rest → IsUnits single pair (b :: rest)
  | pair {b c : UInt8} {rest : Bytes} :
      pair b c → IsUnits single pair rest → IsUnits single pair (b :: c :: rest)

/-- Bytes that stand alone, all of them. -/
theorem Bytes.IsUnits.of_forall {single : UInt8 → Prop} {pair : UInt8 → UInt8 → Prop} {text : Bytes}
    (h : ∀ b ∈ text, single b) : IsUnits single pair text := by
  induction text with
  | nil => exact .nil
  | cons b rest ih =>
      obtain ⟨hb, hrest⟩ := List.forall_mem_cons.mp h
      exact .single hb (ih hrest)

theorem Bytes.IsUnits.imp {single single' : UInt8 → Prop} {pair : UInt8 → UInt8 → Prop} {text : Bytes}
    (h : IsUnits single pair text) (hsingle : ∀ b, single b → single' b) :
    IsUnits single' pair text := by
  induction h with
  | nil => exact .nil
  | single hb _ ih => exact .single (hsingle _ hb) ih
  | pair hbc _ ih => exact .pair hbc ih

/-- A text without the first bytes of pairs has no pairs. -/
theorem Bytes.IsUnits.single_of_mem {single : UInt8 → Prop} {pair : UInt8 → UInt8 → Prop} {text : Bytes}
    (h : IsUnits single pair text) (hno : ∀ b c, b ∈ text → ¬ pair b c) : ∀ b ∈ text, single b := by
  induction h with
  | nil => exact fun b hb => absurd hb List.not_mem_nil
  | single hb _ ih =>
      refine List.forall_mem_cons.mpr ⟨hb, ih fun c d hc => hno c d (List.mem_cons_of_mem _ hc)⟩
  | pair hbc => exact absurd hbc (hno _ _ List.mem_cons_self)

/-- Where a backslash takes the byte behind it along, the two of them are one unit. -/
theorem Escaped.isUnits {plain escaped : UInt8 → Prop} {text : Bytes}
    (h : Escaped plain escaped text) :
    Bytes.IsUnits plain (fun b c => b = Ascii.backslash ∧ escaped c) text := by
  induction h with
  | nil => exact .nil
  | single hplain _ ih => exact .single hplain ih
  | pair hescaped _ ih => exact .pair ⟨rfl, hescaped⟩ ih

namespace Enclosed

/-! ## Passing over -/

/-- The same content with more text in front. -/
def prepend (front : Bytes) (enclosed : Enclosed) : Enclosed :=
  { enclosed with content := front ++ enclosed.content }

variable {σ : Type} {move : σ → UInt8 → Bytes → Move σ} {first mid last state : σ}
  {front text content : Bytes}

/-- A walk passes over a text if it takes all of it and goes on behind it in some state, whatever stands
    there. -/
def Passes (move : σ → UInt8 → Bytes → Move σ) (first : σ) (text : Bytes) (last : σ) : Prop :=
  ∀ behind, read move first (text ++ behind) = (read move last behind).prepend text

namespace Passes

theorem nil (state : σ) : Passes move state [] state := by
  intro behind
  rfl

theorem single_cons {b : UInt8} (hmove : ∀ behind, move first b (text ++ behind) = .single mid)
    (h : Passes move mid text last) : Passes move first (b :: text) last := by
  intro behind
  rw [List.cons_append, read, hmove]
  show (read move mid (text ++ behind)).push b = _
  rw [h]
  rfl

theorem pair_cons {b c : UInt8} (hmove : ∀ behind, move first b (c :: (text ++ behind)) = .pair mid)
    (h : Passes move mid text last) : Passes move first (b :: c :: text) last := by
  intro behind
  rw [List.cons_append, List.cons_append, read, hmove]
  show ((read move mid (text ++ behind)).push c).push b = _
  rw [h]
  rfl

theorem append (h₁ : Passes move first front mid) (h₂ : Passes move mid text last) :
    Passes move first (front ++ text) last := by
  intro behind
  rw [List.append_assoc, h₁, h₂]
  simp only [prepend, List.append_assoc]

/-- Behind a text that it has passed over, a walk may close at once. -/
theorem read_eq {b : UInt8} {rest : Bytes} (h : Passes move first text last)
    (hclose : move last b rest = .close) : read move first (text ++ b :: rest) = ⟨text, true⟩ := by
  rw [h, read, hclose]
  simp only [prepend, List.append_nil]

/-- A walk does not pass over a text that it closes in front of. -/
theorem ne_close {b : UInt8} (h : Passes move first (b :: text) last) (behind : Bytes) :
    move first b (text ++ behind) ≠ .close := by
  intro hclose
  have hread := congrArg content (h behind)
  rw [List.cons_append, read, hclose] at hread
  exact absurd hread (by simp [prepend])

end Passes

variable {single : UInt8 → Prop} {pair : UInt8 → UInt8 → Prop}

/-- A walk passes over units if it takes each of them for one. -/
theorem passes_of_isUnits (hsingle : ∀ b rest, single b → move state b rest = .single state)
    (hpair : ∀ b c rest, pair b c → move state b (c :: rest) = .pair state)
    (h : Bytes.IsUnits single pair text) : Passes move state text state := by
  induction h with
  | nil => exact .nil state
  | single hb _ ih => exact .single_cons (fun _ => hsingle _ _ hb) ih
  | pair hbc _ ih => exact .pair_cons (fun _ => hpair _ _ _ hbc) ih

/-! ## Grammars -/

/-- A walk that stays in its state, and takes just the units of a grammar. -/
structure TakesUnits (move : σ → UInt8 → Bytes → Move σ) (state : σ) (single : UInt8 → Prop)
    (pair : UInt8 → UInt8 → Prop) : Prop where
  single_iff : ∀ b rest next, move state b rest = .single next ↔ single b ∧ next = state
  pair_iff : ∀ b c rest next, move state b (c :: rest) = .pair next ↔ pair b c ∧ next = state

namespace TakesUnits

theorem closes_behind_units (hmove : TakesUnits move state single pair)
    (h : (read move state text).closed = true) :
    ∃ b rest, text = (read move state text).content ++ b :: rest ∧
      Bytes.IsUnits single pair (read move state text).content ∧ move state b rest = .close := by
  fun_induction read move state text with
  | case1 => exact absurd h (by simp)
  | case2 state b rest hclose => exact ⟨b, rest, rfl, .nil, hclose⟩
  | case3 => exact absurd h (by simp)
  | case4 => exact absurd h (by simp)
  | case5 state b rest next htake ih =>
      obtain ⟨hb, rfl⟩ := (hmove.single_iff b rest next).mp htake
      obtain ⟨d, behind, htext, hunits, hclose⟩ := ih hmove h
      exact ⟨d, behind, congrArg (b :: ·) htext, .single hb hunits, hclose⟩
  | case6 => exact absurd h (by simp)
  | case7 state b next c rest htake ih =>
      obtain ⟨hbc, rfl⟩ := (hmove.pair_iff b c rest next).mp htake
      obtain ⟨d, behind, htext, hunits, hclose⟩ := ih hmove h
      exact ⟨d, behind, congrArg (b :: c :: ·) htext, .pair hbc hunits, hclose⟩

/-- **A walk closes behind units, and only there.** -/
theorem read_eq_iff (hmove : TakesUnits move state single pair) :
    read move state text = ⟨content, true⟩ ↔
      ∃ b rest, text = content ++ b :: rest ∧ Bytes.IsUnits single pair content ∧
        move state b rest = .close := by
  constructor
  · intro h
    have hclosed := hmove.closes_behind_units (congrArg closed h)
    rwa [h] at hclosed
  · rintro ⟨b, rest, rfl, hunits, hclose⟩
    refine Passes.read_eq (passes_of_isUnits ?_ ?_ hunits) hclose
    · exact fun b rest hb => (hmove.single_iff b rest state).mpr ⟨hb, rfl⟩
    · exact fun b c rest hbc => (hmove.pair_iff b c rest state).mpr ⟨hbc, rfl⟩

end TakesUnits

end Enclosed

end LogMarkup
