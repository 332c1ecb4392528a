import LogMarkup.Text.Enclosed

/-!
# `LogMarkup.Proofs.Text.Enclosed` — where a walk over enclosed text ends

Whatever the decisions at the single bytes are, a walk takes a beginning of its text, and it is closed
only at a byte where a decision closed it. All that a client adds is what its own decisions do there.

## Contents
- **Every walk.** `Enclosed.content_isPrefix`, `Enclosed.closes_of_closed`, and for walks to a known
  closer `Enclosed.content_append_closer_isPrefix`.
- **Walks that stop early, or never.** `Enclosed.StopsAt`, `Enclosed.content_eq_or_of_open`;
  `Enclosed.NeverStops`, `Enclosed.content_eq_of_open`; `Enclosed.read_eq_of_closed`.
- **Escapes.** `Escaped`, the texts in which a backslash always has a byte behind it.
-/

namespace LogMarkup

namespace Enclosed

variable {σ : Type} {move : σ → UInt8 → Bytes → Move σ}

/-- The content of a walk is a beginning of the text. -/
theorem content_isPrefix (state : σ) (text : Bytes) : (read move state text).content <+: text := by
  fun_induction read move state text with
  | case1 => exact List.nil_prefix
  | case2 => exact List.nil_prefix
  | case3 => exact List.nil_prefix
  | case4 _ b rest => exact List.prefix_append [b] rest
  | case5 _ b rest _ _ ih => exact (List.prefix_cons_inj b).mpr ih
  | case6 => exact List.prefix_rfl
  | case7 _ b _ c rest _ ih => exact (List.prefix_cons_inj b).mpr ((List.prefix_cons_inj c).mpr ih)

/-- A closed walk ends in front of a byte at which some state of it decides to close. -/
theorem closes_of_closed {state : σ} {text : Bytes} (h : (read move state text).closed = true) :
    ∃ last b rest, text = (read move state text).content ++ b :: rest ∧ move last b rest = .close := by
  fun_induction read move state text with
  | case1 => exact absurd h (by simp)
  | case2 state b rest hmove => exact ⟨state, b, rest, rfl, hmove⟩
  | case3 => exact absurd h (by simp)
  | case4 => exact absurd h (by simp)
  | case5 _ b _ _ _ ih =>
      obtain ⟨last, c, rest', htext, hmove⟩ := ih h
      exact ⟨last, c, rest', congrArg (b :: ·) htext, hmove⟩
  | case6 => exact absurd h (by simp)
  | case7 _ b _ c _ _ ih =>
      obtain ⟨last, d, rest', htext, hmove⟩ := ih h
      exact ⟨last, d, rest', congrArg (b :: c :: ·) htext, hmove⟩

/-- Where every decision to close stands in front of the closer, the content and the closer of a
    closed walk are a beginning of the text. -/
theorem content_append_closer_isPrefix {closer : Bytes}
    (hclose : ∀ state b rest, move state b rest = .close → closer <+: b :: rest)
    (state : σ) (text : Bytes) :
    (read move state text).content ++ (if (read move state text).closed then closer else [])
      <+: text := by
  cases h : (read move state text).closed with
  | false =>
      rw [if_neg Bool.false_ne_true, List.append_nil]
      exact content_isPrefix state text
  | true =>
      obtain ⟨last, b, rest, htext, hmove⟩ := closes_of_closed h
      have hcloser := (List.prefix_append_right_inj (read move state text).content).mpr
        (hclose last b rest hmove)
      rw [← htext] at hcloser
      rw [if_pos rfl]
      exact hcloser

/-- The decisions of a walk that a byte `b` stops, whether it is met itself or seen ahead. -/
def StopsAt (move : σ → UInt8 → Bytes → Move σ) (b : UInt8) : Prop :=
  ∀ state c rest, (move state c rest = .stopBefore → c = b) ∧
    (move state c rest = .stopAfter → rest.head? = some b)

/-- A walk that is left open took the whole text, or stands in front of the byte that stops it. -/
theorem content_eq_or_of_open {stopper : UInt8} (hmove : StopsAt move stopper) {state : σ}
    {text : Bytes} (h : (read move state text).closed = false) :
    (read move state text).content = text ∨
      ∃ behind, text = (read move state text).content ++ stopper :: behind := by
  fun_induction read move state text with
  | case1 => exact .inl rfl
  | case2 => exact absurd h (by simp)
  | case3 state b rest hstop =>
      rw [(hmove state b rest).1 hstop]
      exact .inr ⟨rest, rfl⟩
  | case4 state b rest hstop =>
      obtain ⟨behind, rfl⟩ := List.head?_eq_some_iff.mp ((hmove state b rest).2 hstop)
      exact .inr ⟨behind, rfl⟩
  | case5 _ b _ _ _ ih =>
      rcases ih h with hall | ⟨behind, htext⟩
      · exact .inl (congrArg (b :: ·) hall)
      · exact .inr ⟨behind, congrArg (b :: ·) htext⟩
  | case6 => exact .inl rfl
  | case7 _ b _ c _ _ ih =>
      rcases ih h with hall | ⟨behind, htext⟩
      · exact .inl (congrArg (b :: c :: ·) hall)
      · exact .inr ⟨behind, congrArg (b :: c :: ·) htext⟩

/-- The decisions of a walk that only a closer or the end of the text ends. -/
def NeverStops (move : σ → UInt8 → Bytes → Move σ) : Prop :=
  ∀ state b rest, move state b rest ≠ .stopBefore ∧ move state b rest ≠ .stopAfter

/-- Where no decision stops a walk, one that is left open took the whole text. -/
theorem content_eq_of_open (hmove : NeverStops move) {state : σ} {text : Bytes}
    (h : (read move state text).closed = false) : (read move state text).content = text := by
  fun_induction read move state text with
  | case1 => rfl
  | case2 => exact absurd h (by simp)
  | case3 state b rest hstop => exact absurd hstop (hmove state b rest).1
  | case4 state b rest hstop => exact absurd hstop (hmove state b rest).2
  | case5 _ b _ _ _ ih => exact congrArg (b :: ·) (ih h)
  | case6 => rfl
  | case7 _ b _ c _ _ ih => exact congrArg (b :: c :: ·) (ih h)

/-- A closed walk is the same for decisions that differ only where it would stop. -/
theorem read_eq_of_closed {other : σ → UInt8 → Bytes → Move σ}
    (hmove : ∀ state b rest, move state b rest ≠ .stopBefore →
      other state b rest = move state b rest)
    {state : σ} {text : Bytes} (h : (read move state text).closed = true) :
    read other state text = read move state text := by
  fun_induction read move state text with
  | case1 => rfl
  | case2 state b rest hclose => rw [read, hmove _ _ _ (by simp [hclose]), hclose]
  | case3 => exact absurd h (by simp)
  | case4 => exact absurd h (by simp)
  | case5 state b rest next hsingle ih =>
      rw [read, hmove _ _ _ (by simp [hsingle]), hsingle]
      exact congrArg (push b) (ih h)
  | case6 => exact absurd h (by simp)
  | case7 state b next c rest hpair ih =>
      rw [read, hmove _ _ _ (by simp [hpair]), hpair]
      exact congrArg (fun enclosed => (push c enclosed).push b) (ih h)

end Enclosed

/-! ## Escapes -/

/-- A text of single bytes, and of pairs of a backslash and a byte behind it. -/
inductive Escaped (plain escaped : UInt8 → Prop) : Bytes → Prop
  | nil : Escaped plain escaped []
  | single {b : UInt8} {rest : Bytes} :
      plain b → Escaped plain escaped rest → Escaped plain escaped (b :: rest)
  | pair {b : UInt8} {rest : Bytes} :
      escaped b → Escaped plain escaped rest → Escaped plain escaped (Ascii.backslash :: b :: rest)

end LogMarkup
