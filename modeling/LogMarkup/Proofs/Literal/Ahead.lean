import LogMarkup.Proofs.Literal.Boundary
import LogMarkup.Proofs.Literal.Prefix

/-!
# `LogMarkup.Proofs.Literal.Ahead` — what a literal sees of the text behind it

A walk over a literal looks ahead, but not far: by one byte, or by a run of quotes. So two texts may be
exchanged for each other behind a literal if they start with the same byte and the same run of quotes. A
sign at their heads is left out, since with the bytes in front of it it might be an opener or none,
whatever comes further on.

## Contents
- **Texts.** `Bytes.LookAlike`, with `Bytes.lookAlike_cons` for texts with the same head, and
  `Bytes.LookAlike.run_append` and `Bytes.LookAlike.isPrefix_append` for the same beginning of both texts;
  `Bytes.replicate_isPrefix_iff`.
- **Decisions.** `Opener.read?_congr` and `Opener.move_congr`, and `Enclosed.read_congr` — two walks that
  decide alike part at the end of the common beginning at the earliest.
- **Literals.** `Literal.read?_congr`, for literals that end in the common beginning, and
  `Literal.read?_append_eq_none_of_stop`, for parts that do not start a literal, whatever follows.
-/

namespace LogMarkup

open Ascii

/-! ## Texts -/

namespace Bytes

/-- Two texts that no walk in front of them can tell apart. -/
structure LookAlike (first second : Bytes) : Prop where
  head?_eq : first.head? = second.head?
  run_eq : first.run quote = second.run quote
  head?_ne : ∀ b, first.head? = some b → b ≠ atSign ∧ b ≠ dollar

theorem run_cons (b c : UInt8) (text : Bytes) :
    run b (c :: text) = if c = b then text.run b + 1 else 0 := by
  unfold run
  by_cases h : c = b
  · rw [List.takeWhile_cons_of_pos (by simpa using h), if_pos h, List.length_cons]
  · rw [List.takeWhile_cons_of_neg (by simpa using h), if_neg h, List.length_nil]

/-- A run of a byte begins a text that has as many of it at its head. -/
theorem replicate_isPrefix_iff {b : UInt8} {text : Bytes} {n : Nat} :
    List.replicate n b <+: text ↔ n ≤ text.run b := by
  refine ⟨?_, replicate_isPrefix⟩
  intro h
  induction n generalizing text with
  | zero => exact Nat.zero_le _
  | succ n ih =>
      cases text with
      | nil => exact absurd (List.prefix_nil.mp h) (by simp)
      | cons c text =>
          obtain ⟨rfl, hrest⟩ := List.cons_prefix_cons.mp h
          rw [run_cons, if_pos rfl]
          exact Nat.succ_le_succ (ih hrest)

/-- Texts with the same head look alike, unless that is a quote or a sign. -/
theorem lookAlike_cons {b : UInt8} (h : ¬ (b = quote ∨ b = atSign ∨ b = dollar)) (first second : Bytes) :
    LookAlike (b :: first) (b :: second) := by
  obtain ⟨hquote, hat, hdollar⟩ : b ≠ quote ∧ b ≠ atSign ∧ b ≠ dollar := by
    rw [not_or, not_or] at h
    exact h
  refine ⟨rfl, ?_, ?_⟩
  · rw [run_cons, run_cons, if_neg hquote, if_neg hquote]
  · rintro c hc
    obtain rfl := Option.some.inj hc
    exact ⟨hat, hdollar⟩

namespace LookAlike

variable {first second : Bytes} (h : LookAlike first second)

include h

theorem symm : LookAlike second first := by
  refine ⟨h.head?_eq.symm, h.run_eq.symm, ?_⟩
  intro b hb
  exact h.head?_ne b (h.head?_eq.trans hb)

theorem head?_append (text : Bytes) : (text ++ first).head? = (text ++ second).head? := by
  cases text with
  | nil => exact h.head?_eq
  | cons b text => rfl

theorem run_append (text : Bytes) : (text ++ first).run quote = (text ++ second).run quote := by
  induction text with
  | nil => exact h.run_eq
  | cons b text ih =>
      rw [List.cons_append, List.cons_append, run_cons, run_cons, ih]

/-- Dollar signs in front of the texts end there. -/
theorem run_dollar (text : Bytes) : (text ++ first).run dollar = text.run dollar := by
  have hstop : ∀ b, first.head? = some b → (b == dollar) = false := by
    intro b hb
    exact beq_eq_false_iff_ne.mpr (h.head?_ne b hb).2
  rw [run, run, takeWhile_append_of_head hstop]

/-- The same signs with a quote behind them stand in front of both texts, or partly in them. -/
theorem isPrefix_append {signs : Bytes} (hsigns : ∀ b ∈ signs, b = atSign ∨ b = dollar)
    (text : Bytes) : signs ++ [quote] <+: text ++ first ↔ signs ++ [quote] <+: text ++ second := by
  induction text generalizing signs with
  | nil =>
      cases signs with
      | nil =>
          have hrun : ∀ text : Bytes, [quote] <+: text ↔ 1 ≤ text.run quote := fun text =>
            replicate_isPrefix_iff (n := 1)
          show [quote] <+: first ↔ [quote] <+: second
          rw [hrun, hrun, h.run_eq]
      | cons sign signs =>
          -- Neither of the two texts starts with a sign.
          have hnone : ∀ {text : Bytes}, (∀ b, text.head? = some b → b ≠ atSign ∧ b ≠ dollar) →
              ¬ sign :: (signs ++ [quote]) <+: text := by
            rintro text hne ⟨rest, rfl⟩
            have hsign := hne sign rfl
            rcases hsigns sign List.mem_cons_self with hat | hdollar
            · exact hsign.1 hat
            · exact hsign.2 hdollar
          exact iff_of_false (hnone h.head?_ne) (hnone h.symm.head?_ne)
  | cons b text ih =>
      cases signs with
      | nil =>
          show [quote] <+: b :: (text ++ first) ↔ [quote] <+: b :: (text ++ second)
          rw [List.cons_prefix_cons, List.cons_prefix_cons]
          exact and_congr_right fun _ => iff_of_true List.nil_prefix List.nil_prefix
      | cons sign signs =>
          show sign :: (signs ++ [quote]) <+: b :: (text ++ first) ↔
            sign :: (signs ++ [quote]) <+: b :: (text ++ second)
          rw [List.cons_prefix_cons, List.cons_prefix_cons,
            ih fun c hc => hsigns c (List.mem_cons_of_mem sign hc)]

end LookAlike

end Bytes

/-! ## Decisions -/

namespace Opener

variable {first second : Bytes} (h : first.LookAlike second)

include h

/-- The opener at the head of both texts is the same. -/
theorem read?_congr (text : Bytes) : read? (text ++ first) = read? (text ++ second) := by
  have hdrop : ∀ other : Bytes, (text ++ other).drop (text.run dollar)
      = text.drop (text.run dollar) ++ other := fun other =>
    List.drop_append_of_le_length (Bytes.run_le_length dollar text)
  have hsigns : ∀ (signs text : Bytes), (∀ b ∈ signs, b = atSign ∨ b = dollar) →
      (signs ++ [quote]).isPrefixOf (text ++ first)
        = (signs ++ [quote]).isPrefixOf (text ++ second) := by
    intro signs text hsigns
    rw [Bool.eq_iff_iff, List.isPrefixOf_iff_prefix, List.isPrefixOf_iff_prefix]
    exact h.isPrefix_append hsigns text
  have hat : ∀ text : Bytes, [atSign, quote].isPrefixOf (text ++ first)
      = [atSign, quote].isPrefixOf (text ++ second) := fun text => hsigns [atSign] text (by simp)
  have hboth : [atSign, dollar, quote].isPrefixOf (text ++ first)
      = [atSign, dollar, quote].isPrefixOf (text ++ second) :=
    hsigns [atSign, dollar] text (by simp)
  unfold read?
  simp only [h.run_dollar text, h.symm.run_dollar text, hdrop, h.run_append, hat, hboth]

/-- **The rules decide alike in front of both texts.** -/
theorem move_congr (opener : Opener) (depth : Nat) (b : UInt8) (rest : Bytes) :
    opener.move depth b (rest ++ first) = opener.move depth b (rest ++ second) := by
  have hhead := h.head?_append rest
  have hline (depth : Nat) : moveInLine depth b (rest ++ first)
      = moveInLine depth b (rest ++ second) := by
    unfold moveInLine
    rw [hhead]
  have hverbatim (depth : Nat) : moveVerbatim depth b (rest ++ first)
      = moveVerbatim depth b (rest ++ second) := by
    unfold moveVerbatim
    rw [hhead]
  have hbraces (depth : Nat) : moveBrace depth b (rest ++ first)
      = moveBrace depth b (rest ++ second) := by
    unfold moveBrace
    rw [hhead]
  cases opener with
  | regular => exact hline depth
  | verbatim => exact hverbatim depth
  | raw dollars extraQuotes =>
      have hcloser : (List.replicate (extraQuotes + 3) quote).isPrefixOf (b :: (rest ++ first))
          = (List.replicate (extraQuotes + 3) quote).isPrefixOf (b :: (rest ++ second)) := by
        rw [Bool.eq_iff_iff, List.isPrefixOf_iff_prefix, List.isPrefixOf_iff_prefix,
          Bytes.replicate_isPrefix_iff, Bytes.replicate_isPrefix_iff, ← List.cons_append,
          ← List.cons_append, h.run_append]
      simp only [move, moveRaw]
      rw [hcloser]
  | interpolated =>
      simp only [move, moveInterpolated]
      rw [hbraces, hline]
  | verbatimInterpolated dollarFirst =>
      simp only [move, moveVerbatimInterpolated]
      rw [hbraces, hverbatim]

end Opener

/-- A walk that starts with a pair takes the first byte of it, also where the other one is missing. -/
theorem Enclosed.head_isPrefix_of_pair {σ : Type} {move : σ → UInt8 → Bytes → Move σ} {state next : σ}
    {b : UInt8} {rest : Bytes} (h : move state b rest = .pair next) :
    [b] <+: (read move state (b :: rest)).content := by
  rw [read, h]
  cases rest with
  | nil => exact List.prefix_rfl
  | cons c rest => exact (List.prefix_cons_inj b).mpr List.nil_prefix

/-- **Two walks that decide alike in front of two texts** are the same, or they both get to the texts. -/
theorem Enclosed.read_congr {σ : Type} {move : σ → UInt8 → Bytes → Move σ} {first second : Bytes}
    (hmove : ∀ state b rest, move state b (rest ++ first) = move state b (rest ++ second)) :
    ∀ (state : σ) (text : Bytes),
      read move state (text ++ first) = read move state (text ++ second) ∨
        (text <+: (read move state (text ++ first)).content ∧
          text <+: (read move state (text ++ second)).content)
  | _, [] => .inr ⟨List.nil_prefix, List.nil_prefix⟩
  | state, b :: rest => by
      have hsame := hmove state b rest
      rw [List.cons_append, List.cons_append]
      cases hfirst : move state b (rest ++ first) with
      | close =>
          left
          rw [read, read, ← hsame, hfirst]
      | stopBefore =>
          left
          rw [read, read, ← hsame, hfirst]
      | stopAfter =>
          left
          rw [read, read, ← hsame, hfirst]
      | single next =>
          rw [read, read, ← hsame, hfirst]
          rcases read_congr hmove next rest with heq | ⟨hleft, hright⟩
          · exact .inl (congrArg (push b) heq)
          · exact .inr ⟨(List.prefix_cons_inj b).mpr hleft, (List.prefix_cons_inj b).mpr hright⟩
      | pair next =>
          cases rest with
          | nil =>
              -- The other byte of the pair, if there is one, is the first one of the texts.
              exact .inr ⟨head_isPrefix_of_pair hfirst, head_isPrefix_of_pair (hsame ▸ hfirst)⟩
          | cons c rest =>
              rw [read, read, ← hsame, hfirst]
              rcases read_congr hmove next rest with heq | ⟨hleft, hright⟩
              · exact .inl (congrArg (fun enclosed => (push c enclosed).push b) heq)
              · refine .inr ⟨?_, ?_⟩
                · exact (List.prefix_cons_inj b).mpr ((List.prefix_cons_inj c).mpr hleft)
                · exact (List.prefix_cons_inj b).mpr ((List.prefix_cons_inj c).mpr hright)
  termination_by _ text => text.length

/-! ## Literals -/

namespace Literal

/-- A literal that takes all of a text behind its opener, and no more, is left open there. -/
theorem eq_open_of_isPrefix {start : Nat} {text behind : Bytes} {literal : Literal}
    (h : read? start (text ++ behind) = some literal) (hwidth : literal.width ≤ text.length)
    (hbegin : text.drop literal.opener.text.length <+: literal.content) :
    literal = ⟨start, literal.opener, text.drop literal.opener.text.length, false⟩ := by
  have hstart := (read?_eq_some_iff.mp h).1
  have hparts : literal.width = literal.opener.text.length + literal.content.length
      + (if literal.closed then literal.opener.closer else []).length := by
    simp only [width, Literal.text, List.length_append]
  have hle := hbegin.length_le
  rw [List.length_drop] at hle
  have hcontent : literal.content = text.drop literal.opener.text.length := by
    apply (hbegin.eq_of_length_le ?_).symm
    rw [List.length_drop]
    omega
  have hclosed : literal.closed = false := by
    by_contra hclosed
    rw [Bool.not_eq_false] at hclosed
    obtain ⟨more, hcloser⟩ := literal.opener.exists_closer_eq
    rw [if_pos hclosed, hcloser, List.length_replicate] at hparts
    omega
  rw [← hstart, ← hcontent, ← hclosed]

/-- **A literal that ends in front of two texts is the same for both**, if they look alike. -/
theorem read?_congr {first second : Bytes} (h : first.LookAlike second) {start : Nat} {text : Bytes}
    (hfirst : ∀ literal, read? start (text ++ first) = some literal → literal.width ≤ text.length)
    (hsecond : ∀ literal, read? start (text ++ second) = some literal →
      literal.width ≤ text.length) :
    read? start (text ++ first) = read? start (text ++ second) := by
  have hopener := Opener.read?_congr h text
  cases hread : Opener.read? (text ++ first) with
  | none =>
      rw [hread] at hopener
      unfold read?
      rw [hread, ← hopener]
  | some opener =>
      rw [hread] at hopener
      let left := Enclosed.read opener.move 0 ((text ++ first).drop opener.text.length)
      let right := Enclosed.read opener.move 0 ((text ++ second).drop opener.text.length)
      have hleft : read? start (text ++ first) = some ⟨start, opener, left.content, left.closed⟩ :=
        read?_eq_some_iff.mpr ⟨rfl, hread, rfl⟩
      have hright : read? start (text ++ second)
          = some ⟨start, opener, right.content, right.closed⟩ :=
        read?_eq_some_iff.mpr ⟨rfl, hopener.symm, rfl⟩
      have hshort := hfirst _ hleft
      have hshort' := hsecond _ hright
      have hlength : opener.text.length ≤ text.length := by
        refine Nat.le_trans ?_ hshort
        simp only [width, Literal.text, List.length_append]
        omega
      have hwalks := Enclosed.read_congr (opener.move_congr h) 0 (text.drop opener.text.length)
      rw [← List.drop_append_of_le_length hlength, ← List.drop_append_of_le_length hlength] at hwalks
      rw [hleft, hright]
      rcases hwalks with heq | ⟨hbegin, hbegin'⟩
      · rw [show left = right from heq]
      · rw [eq_open_of_isPrefix hleft hshort hbegin, eq_open_of_isPrefix hright hshort' hbegin']

/-- Without a quote in front of a byte that is no sign there is no opener. -/
theorem read?_append_eq_none_of_stop {start : Nat} {part behind : Bytes} {b : UInt8}
    (hpart : quote ∉ part) (hb : ¬ (b = quote ∨ b = atSign ∨ b = dollar)) :
    read? start (part ++ b :: behind) = none := by
  cases hread : read? start (part ++ b :: behind) with
  | none => rfl
  | some literal =>
      have hbegin : literal.opener.text <+: part ++ b :: behind :=
        Opener.text_isPrefix (read?_eq_some_iff.mp hread).2.1
      rcases Nat.lt_or_ge part.length literal.opener.text.length with hlong | hshort
      · -- The opener reaches to the byte, which would be one of its signs.
        obtain ⟨more, hmore⟩ := hbegin
        have hget : literal.opener.text[part.length]? = some b := by
          calc literal.opener.text[part.length]?
              = (literal.opener.text ++ more)[part.length]? := (List.getElem?_append_left hlong).symm
            _ = some b := by rw [hmore]; simp
        exact absurd (Opener.mem_text (List.mem_of_getElem? hget)) hb
      · -- The opener ends in front of the byte, with a quote.
        obtain ⟨front, hfront⟩ := literal.opener.exists_text_eq_append_quote
        have hinside : literal.opener.text <+: part :=
          List.prefix_of_prefix_length_le hbegin (List.prefix_append part _) hshort
        have hquote : quote ∈ literal.opener.text := by
          rw [hfront]
          exact List.mem_append_right front List.mem_cons_self
        exact absurd (hinside.subset hquote) hpart

/-- A byte that is no sign opens no literal. -/
theorem read?_eq_none {start : Nat} {b : UInt8} {rest : Bytes}
    (h : ¬ (b = quote ∨ b = atSign ∨ b = dollar)) : read? start (b :: rest) = none := by
  show read? start ([] ++ b :: rest) = none
  exact read?_append_eq_none_of_stop List.not_mem_nil h

end Literal

end LogMarkup
