import LogMarkup.Expression.Mode
import LogMarkup.Proofs.Checked.Walk
import LogMarkup.Proofs.Expression.Quoted

/-!
# `LogMarkup.Proofs.Checked.Mode` — template or expression, offset by offset

The search for a hole looks back from each apostrophe to see whether an operand may stand there, and ahead
to see whether the quoted text is closed on its line. Only then is the quoted text passed over, by a walk
of its own that does not mind the ends of lines. It stops where the look ahead did.

## Contents
- **Looking back.** `Bytes.lastIdx?`, and `Checked.isOperandPosition` with its equation.
- **Quoted text.** `Checked.closesOnLine` and `Checked.skipQuoted`; `Mode.read_moveQuoted_of_closed`, by
  which they find the same end.
- **The mode.** `Checked.mode` and `Checked.mode_eq`.
-/

namespace LogMarkup

open Ascii

/-! ## Looking back -/

/-- The offset of the last byte of a class. -/
def Bytes.lastIdx? (p : UInt8 → Bool) (text : Bytes) : Option Nat :=
  (text.reverse.findIdx? p).map fun n => text.length - 1 - n

/-- Behind the last byte that is not of a class, there are as many bytes of the class as end the text. -/
theorem Bytes.lastIdx?_add_one (p : UInt8 → Bool) (text : Bytes) :
    ((lastIdx? (fun b => !p b) text).elim 0 fun n => n + 1)
      = text.length - (text.reverse.takeWhile p).length := by
  have hsplit := congrArg List.length (List.takeWhile_append_dropWhile (p := p) (l := text.reverse))
  rw [List.length_append, List.length_reverse] at hsplit
  simp only [lastIdx?, findIdx?_eq, Bool.not_not]
  cases hdrop : text.reverse.dropWhile p with
  | nil =>
      rw [hdrop, List.length_nil, Nat.add_zero] at hsplit
      simp [hsplit]
  | cons b rest =>
      rw [hdrop, List.length_cons] at hsplit
      show text.length - 1 - (text.reverse.takeWhile p).length + 1 = _
      omega

/-! ## Quoted text -/

/-- Quoted text that is closed on its line is closed there, too, where lines do not matter. -/
theorem Mode.read_moveQuoted_of_closed {closer : UInt8} (hclose : isQuote closer = true) {text : Bytes}
    (h : (Enclosed.read (moveQuotedOnLine closer) () text).closed = true) :
    Enclosed.read (moveQuoted closer) () text = Enclosed.read (moveQuotedOnLine closer) () text := by
  have hne : backslash ≠ closer := (ne_backslash_of_isQuote hclose).symm
  refine Enclosed.read_eq_of_closed ?_ h
  intro state b rest hstop
  unfold moveQuotedOnLine at hstop ⊢
  unfold moveQuoted
  by_cases hbackslash : b = backslash
  · subst hbackslash
    simp [hne]
  · by_cases hfeed : b = lineFeed
    · exact absurd (by rw [if_neg hbackslash, if_pos hfeed]) hstop
    · simp [hbackslash, hfeed]

namespace Checked

/-- Whether an operand may stand at an offset. -/
def isOperandPosition (text : Bytes) (offset : Nat) : Checked Bool := do
  let before ← slice text 0 offset
  let trimmed : Bytes := (before.reverse.dropWhile isSpace).reverse
  match trimmed.getLast? with
  | none => pure true
  | some b =>
    if isWord b then do
      let wordStart := (trimmed.lastIdx? fun c => !isWord c).elim 0 fun n => n + 1
      let word ← slice trimmed wordStart trimmed.length
      pure (isKeyword word)
    else pure (Mode.operandMarks.contains b)

theorem isOperandPosition_eq {text : Bytes} {offset : Nat} (h : offset ≤ text.length) :
    isOperandPosition text offset = .ok (Mode.isOperandPosition (text.take offset).reverse) := by
  have hbefore : text.extract 0 offset = text.take offset := by
    rw [List.extract_eq_take_drop, List.drop_zero, Nat.sub_zero]
  simp only [isOperandPosition, slice_eq (Nat.zero_le _) h, hbefore, ok_bind, Mode.isOperandPosition]
  cases (text.take offset).reverse.dropWhile isSpace with
  | nil => rfl
  | cons b rest =>
      simp only [List.getLast?_reverse, List.head?_cons]
      by_cases hb : isWord b = true
      · -- The word is the run of word characters that ends the text, read backwards in the list.
        have hword : (b :: rest).reverse.drop ((b :: rest).reverse.length
            - ((b :: rest).takeWhile isWord).length) = ((b :: rest).takeWhile isWord).reverse := by
          have hprefix : (b :: rest).takeWhile isWord <+: b :: rest := List.takeWhile_prefix isWord
          rw [List.drop_reverse, List.length_reverse, Nat.sub_sub_self hprefix.length_le,
            ← List.prefix_iff_eq_take.mp hprefix]
        rw [if_pos hb, if_pos hb, Bytes.lastIdx?_add_one, slice_length (Nat.sub_le _ _),
          List.reverse_reverse, hword]
        rfl
      · rw [if_neg hb, if_neg hb]
        rfl

/-- Whether the quoted text that opens at an offset is closed on its line. -/
def closesOnLine (text : Bytes) (opening : Nat) : Checked Bool := do
  let closer ← byteAt text opening
  let (_, closed) ← walk (fun state b rest => .ok (Mode.moveQuotedOnLine closer state b rest)) text
    text.length () (opening + 1)
  pure closed

/-- Whether an apostrophe opens quoted text. -/
def opensString (text : Bytes) (opening : Nat) : Checked Bool := do
  let operand ← isOperandPosition text opening
  if operand then closesOnLine text opening else pure false

/-- The offset behind the quoted text that opens at an offset, or the limit if it is not closed. -/
def skipQuoted (text : Bytes) (limit opening : Nat) : Checked Nat := do
  let closer ← byteAt text opening
  let (stop, closed) ← walk (fun state b rest => .ok (moveQuoted closer state b rest)) text limit ()
    (opening + 1)
  pure (if closed then stop + 1 else limit)

/-- Look for a hole, and otherwise go on behind what is not looked into. -/
def modeTurn (text : Bytes) (_ : Unit) (offset : Nat) : Checked (Turn Unit Mode) := do
  let b ← byteAt text offset
  if b = backslash then pure (.next () (offset + 2))
  else if b = openBrace ∧ text[offset + 1]?.any Mode.isHoleHead then pure (.done .template)
  else if b = openBrace ∧ text[offset + 1]? = some openBrace then pure (.next () (offset + 2))
  else if b = apostrophe then do
    let opens ← opensString text offset
    if opens then do
      let stop ← skipQuoted text text.length offset
      pure (.next () stop)
    else pure (.next () (offset + 1))
  else pure (.next () (offset + 1))

/-- The mode in which a content is read. -/
def mode (text : Bytes) : Checked Mode :=
  loop text.length (modeTurn text) (fun _ _ => .expression) () 0

section

variable {text rest : Bytes} {offset : Nat} {b : UInt8} (h : text.drop offset = b :: rest)

include h

theorem opensString_eq : opensString text offset =
    .ok (Mode.isOperandPosition (text.take offset).reverse
      && (Enclosed.read (Mode.moveQuotedOnLine b) () rest).closed) := by
  have hlt := Bytes.lt_of_drop_eq_cons h
  have hb := Bytes.getElem?_of_drop_eq_cons h
  have hrest : text.drop (offset + 1) = rest := Bytes.drop_add_of_drop_eq_cons h Nat.one_pos
  simp only [opensString, isOperandPosition_eq (Nat.le_of_lt hlt), closesOnLine, byteAt_eq hb,
    walk_ok_eq hrest hlt, ok_bind, pure_eq_ok]
  cases Mode.isOperandPosition (text.take offset).reverse <;> rfl

theorem skipQuoted_eq : skipQuoted text text.length offset =
    .ok (offset + (Lexeme.quoted (Enclosed.read (moveQuoted b) () rest)).width) := by
  have hlt := Bytes.lt_of_drop_eq_cons h
  have hb := Bytes.getElem?_of_drop_eq_cons h
  have hrest : text.drop (offset + 1) = rest := Bytes.drop_add_of_drop_eq_cons h Nat.one_pos
  simp only [skipQuoted, byteAt_eq hb, walk_ok_eq hrest hlt, ok_bind, pure_eq_ok, Lexeme.width]
  cases hclosed : (Enclosed.read (moveQuoted b) () rest).closed with
  | true =>
      simp only [if_true]
      congr 1
      omega
  | false =>
      -- The quoted text goes on to the end of the text, which is the limit.
      have hlength := Bytes.length_of_drop_eq_cons h
      rw [Enclosed.content_eq_of_open neverStops_moveQuoted hclosed, ← hlength]
      rfl

/-- Where no hole opens, the search goes on behind the bytes that are passed over together. -/
theorem modeTurn_eq (hhole : ¬ (b = openBrace ∧ rest.head?.any Mode.isHoleHead = true)) :
    modeTurn text () offset =
      .ok (.next () (offset + Mode.passWidth (text.take offset).reverse b rest)) := by
  have hb := Bytes.getElem?_of_drop_eq_cons h
  have hhead := Bytes.getElem?_succ_of_drop_eq_cons h
  simp only [modeTurn, byteAt_eq hb, ok_bind, hhead, if_neg hhole, Mode.passWidth]
  by_cases hbackslash : b = backslash
  · rw [if_pos hbackslash, if_pos hbackslash]
    rfl
  rw [if_neg hbackslash, if_neg hbackslash]
  by_cases hdoubled : b = openBrace ∧ rest.head? = some openBrace
  · rw [if_pos hdoubled, if_pos hdoubled]
    rfl
  rw [if_neg hdoubled, if_neg hdoubled]
  by_cases hapostrophe : b = apostrophe
  · subst hapostrophe
    simp only [if_true, opensString_eq h, ok_bind, true_and]
    cases hoperand : Mode.isOperandPosition (text.take offset).reverse with
    | false => rfl
    | true =>
        cases hclosed : (Enclosed.read (Mode.moveQuotedOnLine apostrophe) () rest).closed with
        | false => rfl
        | true =>
            have hread := Mode.read_moveQuoted_of_closed (by decide) hclosed
            simp only [Bool.and_self, if_true, skipQuoted_eq h, hread, Lexeme.width, hclosed, ok_bind,
              pure_eq_ok]
  · rw [if_neg hapostrophe, if_neg (fun hboth => hapostrophe hboth.1)]
    rfl

end

theorem Mode.passWidth_pos (before : Bytes) (b : UInt8) (rest : Bytes) :
    0 < Mode.passWidth before b rest := by
  unfold Mode.passWidth
  split
  · decide
  split
  · decide
  split
  · show 0 < if _ then _ else _
    split
    · exact Nat.succ_pos _
    · exact Nat.one_pos
  · exact Nat.one_pos

/-- **The mode of every content is found.** -/
theorem mode_eq (text : Bytes) : mode text = .ok (Mode.ofContent text) := by
  -- The list of the bytes in front of an offset is kept backwards.
  have hloop : ∀ before rest : Bytes, ∀ offset, (text.take offset).reverse = before →
      text.drop offset = rest →
      loop text.length (modeTurn text) (fun _ _ => .expression) () offset
        = .ok (Mode.decideFrom before rest) := by
    intro before rest
    fun_induction Mode.decideFrom before rest with
    | case1 before =>
        intro offset _ hrest
        exact loop_of_le (List.drop_eq_nil_iff.mp hrest)
    | case2 before b rest hhole =>
        intro offset _ hrest
        have hbackslash : b ≠ backslash := by
          rw [hhole.1]
          decide
        apply loop_of_done (Bytes.lt_of_drop_eq_cons hrest)
        simp only [modeTurn, byteAt_eq (Bytes.getElem?_of_drop_eq_cons hrest), ok_bind,
          Bytes.getElem?_succ_of_drop_eq_cons hrest, if_neg hbackslash, if_pos hhole, pure_eq_ok]
    | case3 before b rest hhole more ih =>
        intro offset hbefore hrest
        have hpos := Mode.passWidth_pos before b rest
        have hnext := modeTurn_eq hrest hhole
        rw [hbefore] at hnext
        rw [loop_of_next (Bytes.lt_of_drop_eq_cons hrest) hnext (Nat.lt_add_of_pos_right hpos)]
        apply ih
        · have hmore : Mode.passWidth before b rest = more + 1 := (Nat.sub_add_cancel hpos).symm
          rw [hmore, List.take_add, hrest, List.reverse_append, hbefore, List.take_succ_cons,
            List.reverse_cons, List.append_assoc]
          rfl
        · exact Bytes.drop_add_of_drop_eq_cons hrest hpos
  exact hloop [] text 0 rfl List.drop_zero

end Checked

end LogMarkup
