import LogMarkup.Proofs.Checked.Mode
import LogMarkup.Proofs.Text.Units

/-!
# `LogMarkup.Proofs.Checked.ClosingBrace` — where a hole ends, offset by offset

The closing brace of a hole is found by counting the braces that are open, the first one included, so that
the count is never zero where a brace closes. Quoted text is passed over as a whole, where the walk in a
list only keeps in mind that it is in quotes.

## Contents
- **Quoted text.** `passes_moveHole_of_isQuotable`, and from it `read_moveHole_of_isQuotable` and
  `read_moveHole_of_isUnclosed`: a hole goes on behind the quoted text in it.
- **The search.** `Checked.braceTurn_step`, all that a turn can do, and `Checked.matchingBrace`, with
  `Checked.matchingBrace_eq`.
-/

namespace LogMarkup

open Ascii

/-! ## Quoted text -/

/-- In quotes a walk over a hole passes over whatever the quotes can enclose. -/
theorem passes_moveHole_of_isQuotable {closer : UInt8} {body : Bytes} (h : IsQuotable closer body)
    (depth : Nat) : Enclosed.Passes moveHole ⟨depth, some closer⟩ body ⟨depth, some closer⟩ := by
  refine Enclosed.passes_of_isUnits ?_ ?_ h.isUnits
  · rintro b rest ⟨hcloser, hbackslash⟩
    simp [moveHole, hcloser, hbackslash]
  · rintro b c rest ⟨rfl, -⟩
    rfl

/-- A hole goes on behind the quoted text in it as if this was not there. -/
theorem read_moveHole_of_isQuotable {closer : UInt8} (hclose : isQuote closer = true) {body : Bytes}
    (h : IsQuotable closer body) (depth : Nat) (behind : Bytes) :
    Enclosed.read moveHole ⟨depth, some closer⟩ (body ++ closer :: behind) =
      (Enclosed.read moveHole ⟨depth, none⟩ behind).prepend (body ++ [closer]) := by
  have hquote : Enclosed.Passes moveHole ⟨depth, some closer⟩ [closer] ⟨depth, none⟩ := by
    refine .single_cons (fun rest => ?_) (.nil _)
    simp [moveHole, ne_backslash_of_isQuote hclose]
  have hread := (passes_moveHole_of_isQuotable h depth).append hquote behind
  rwa [List.append_assoc, List.singleton_append] at hread

/-- A hole does not end behind quoted text that is not closed. -/
theorem read_moveHole_of_isUnclosed {closer : UInt8} {text : Bytes} (h : IsUnclosed closer text)
    (depth : Nat) :
    Enclosed.read moveHole ⟨depth, some closer⟩ text = ⟨text, false⟩ := by
  rcases h with hall | ⟨body, rfl, hbody⟩
  · have hread := passes_moveHole_of_isQuotable hall depth []
    rw [List.append_nil] at hread
    rw [hread, Enclosed.read, Enclosed.prepend, List.append_nil]
  · -- The last backslash has nothing behind it to take along.
    exact passes_moveHole_of_isQuotable hbody depth [backslash]

namespace Checked

/-! ## The search -/

/-- Count a brace, or go on behind what is not looked into. -/
def braceTurn (text : Bytes) (depth offset : Nat) : Checked (Turn Nat (Option Nat)) := do
  let b ← byteAt text offset
  if b = backslash then pure (.next depth (offset + 2))
  else if isQuote b then do
    let stop ← skipQuoted text text.length offset
    pure (.next depth stop)
  else if b = openBrace then pure (.next (depth + 1) (offset + 1))
  else if b = closeBrace then do
    let depth ← sub depth 1
    pure (if depth = 0 then .done (some offset) else .next depth (offset + 1))
  else pure (.next depth (offset + 1))

/-- The offset of the brace that closes the hole that opens at an offset. -/
def matchingBrace (text : Bytes) (opening : Nat) : Checked (Option Nat) :=
  loop text.length (braceTurn text) (fun _ _ => none) 0 opening

/-- Where the closing brace of a hole is, when its body starts at an offset. -/
def closingOf (start : Nat) (body : Enclosed) : Option Nat :=
  if body.closed then some (start + body.content.length) else none

theorem closingOf_push (start : Nat) (b : UInt8) (body : Enclosed) :
    closingOf start (body.push b) = closingOf (start + 1) body := by
  simp only [closingOf, Enclosed.push, List.length_cons, Nat.add_assoc, Nat.add_comm 1]
  rfl

theorem closingOf_prepend (start : Nat) (front : Bytes) (body : Enclosed) :
    closingOf start (body.prepend front) = closingOf (start + front.length) body := by
  simp only [closingOf, Enclosed.prepend, List.length_append, Nat.add_assoc]

/-- What a decision about a byte of a hole means for the search. -/
def braceTurnOf (offset : Nat) : Move HoleState → Turn Nat (Option Nat)
  | .single next => .next (next.depth + 1) (offset + 1)
  | .pair next => .next (next.depth + 1) (offset + 2)
  | _ => .done (some offset)

/-- Outside of quotes a byte ends the hole, or the walk goes on outside of quotes. -/
theorem moveHole_cases (depth : Nat) {b : UInt8} (rest : Bytes) (hquote : ¬ isQuote b = true) :
    moveHole ⟨depth, none⟩ b rest = .close ∨
      (∃ next, moveHole ⟨depth, none⟩ b rest = .single ⟨next, none⟩) ∨
      ∃ next, moveHole ⟨depth, none⟩ b rest = .pair ⟨next, none⟩ := by
  unfold moveHole
  by_cases hbackslash : b = backslash
  · exact .inr (.inr ⟨depth, if_pos hbackslash⟩)
  simp only [if_neg hbackslash, if_neg hquote]
  by_cases hopen : b = openBrace
  · exact .inr (.inl ⟨depth + 1, if_pos hopen⟩)
  rw [if_neg hopen]
  by_cases hclose : b = closeBrace
  · rw [if_pos hclose]
    by_cases hdepth : depth = 0
    · exact .inl (if_pos hdepth)
    · exact .inr (.inl ⟨depth - 1, if_neg hdepth⟩)
  · exact .inr (.inl ⟨depth, if_neg hclose⟩)

/-- Inside of a hole one more brace is open than braces are nested in the hole. -/
theorem braceTurn_eq {text : Bytes} {offset : Nat} {b : UInt8} (hb : text[offset]? = some b)
    (depth : Nat) (rest : Bytes) (hquote : ¬ isQuote b = true) :
    braceTurn text (depth + 1) offset
      = .ok (braceTurnOf offset (moveHole ⟨depth, none⟩ b rest)) := by
  have hsub : sub (depth + 1) 1 = .ok depth := sub_eq (Nat.succ_pos depth)
  simp only [braceTurn, byteAt_eq hb, ok_bind, moveHole, if_neg hquote, hsub, pure_eq_ok]
  by_cases hbackslash : b = backslash
  · rw [if_pos hbackslash, if_pos hbackslash]
    rfl
  rw [if_neg hbackslash, if_neg hbackslash]
  by_cases hopen : b = openBrace
  · rw [if_pos hopen, if_pos hopen]
    rfl
  rw [if_neg hopen, if_neg hopen]
  by_cases hclose : b = closeBrace
  · rw [if_pos hclose, if_pos hclose]
    cases depth <;> rfl
  · rw [if_neg hclose, if_neg hclose]
    rfl

/-- The closing brace is found behind quoted text as if this was not there. -/
theorem closingOf_quoted {b : UInt8} (hquote : isQuote b = true) (depth offset : Nat) (rest : Bytes) :
    let width := (Lexeme.quoted (Enclosed.read (moveQuoted b) () rest)).width
    closingOf offset (Enclosed.read moveHole ⟨depth, none⟩ (b :: rest))
      = closingOf (offset + width) (Enclosed.read moveHole ⟨depth, none⟩ ((b :: rest).drop width)) := by
  intro width
  have hbackslash := ne_backslash_of_isQuote hquote
  have hopened : Enclosed.read moveHole ⟨depth, none⟩ (b :: rest)
      = (Enclosed.read moveHole ⟨depth, some b⟩ rest).push b := by
    simp only [Enclosed.read, moveHole, if_neg hbackslash, if_pos hquote]
  rw [hopened, closingOf_push]
  cases hclosed : (Enclosed.read (moveQuoted b) () rest).closed with
  | true =>
      have hquotable := isQuotable_of_closed hclosed
      obtain ⟨last, c, behind, hbehind, hmove⟩ := Enclosed.closes_of_closed hclosed
      obtain rfl := eq_closer_of_moveQuoted hmove
      have hwidth : width = (Enclosed.read (moveQuoted c) () rest).content.length + 2 := by
        simp only [width, Lexeme.width, hclosed, if_true]
      generalize (Enclosed.read (moveQuoted c) () rest).content = body at *
      have hdrop : (c :: rest).drop (body.length + 2) = behind := by
        rw [hbehind]
        simp
      rw [hwidth, hdrop, hbehind, read_moveHole_of_isQuotable hquote hquotable, closingOf_prepend,
        List.length_append, List.length_singleton]
      simp only [Nat.add_assoc, Nat.add_comm 1]
  | false =>
      have hunclosed := isUnclosed_of_open hclosed
      have hwidth : width = (b :: rest).length := by
        simp only [width, Lexeme.width, hclosed, Enclosed.content_eq_of_open neverStops_moveQuoted hclosed]
        rfl
      rw [hwidth, List.drop_length, read_moveHole_of_isUnclosed hunclosed]
      rfl

/-- The closing brace is looked for behind a byte, or a pair, over which the walk goes on. -/
theorem closingOf_single {state next : HoleState} {b : UInt8} {rest : Bytes}
    (h : moveHole state b rest = .single next) (offset : Nat) :
    closingOf offset (Enclosed.read moveHole state (b :: rest))
      = closingOf (offset + 1) (Enclosed.read moveHole next rest) := by
  rw [Enclosed.read, h]
  exact closingOf_push offset b _

theorem closingOf_pair {state next : HoleState} {b : UInt8} {rest : Bytes}
    (h : moveHole state b rest = .pair next) (offset : Nat) :
    closingOf offset (Enclosed.read moveHole state (b :: rest))
      = closingOf (offset + 2) (Enclosed.read moveHole next (rest.drop 1)) := by
  rw [Enclosed.read, h]
  cases rest with
  | nil => rfl
  | cons c rest => exact (closingOf_push offset b _).trans (closingOf_push (offset + 1) c _)

/-- **A turn finds the closing brace, or goes on to where this is still to be found.** -/
theorem braceTurn_step {text rest : Bytes} {offset : Nat} {b : UInt8}
    (h : text.drop offset = b :: rest) (depth : Nat) :
    (braceTurn text (depth + 1) offset = .ok (.done (some offset)) ∧
      closingOf offset (Enclosed.read moveHole ⟨depth, none⟩ (b :: rest)) = some offset) ∨
    ∃ next width, 0 < width ∧
      braceTurn text (depth + 1) offset = .ok (.next (next + 1) (offset + width)) ∧
      closingOf offset (Enclosed.read moveHole ⟨depth, none⟩ (b :: rest))
        = closingOf (offset + width)
            (Enclosed.read moveHole ⟨next, none⟩ ((b :: rest).drop width)) := by
  have hb := Bytes.getElem?_of_drop_eq_cons h
  by_cases hquote : isQuote b = true
  · have hbackslash := ne_backslash_of_isQuote hquote
    refine .inr ⟨depth, (Lexeme.quoted (Enclosed.read (moveQuoted b) () rest)).width, ?_, ?_,
      closingOf_quoted hquote depth offset rest⟩
    · exact Nat.lt_of_lt_of_le (by split <;> decide) (Nat.le_add_left _ _)
    · simp only [braceTurn, byteAt_eq hb, ok_bind, if_neg hbackslash, if_pos hquote, skipQuoted_eq h,
        pure_eq_ok]
  · have hturn := braceTurn_eq hb depth rest hquote
    rcases moveHole_cases depth rest hquote with hmove | ⟨next, hmove⟩ | ⟨next, hmove⟩
    · rw [hmove] at hturn
      refine .inl ⟨hturn, ?_⟩
      rw [Enclosed.read, hmove]
      rfl
    · rw [hmove] at hturn
      exact .inr ⟨next, 1, Nat.one_pos, hturn, closingOf_single hmove offset⟩
    · rw [hmove] at hturn
      exact .inr ⟨next, 2, Nat.two_pos, hturn, closingOf_pair hmove offset⟩

/-- **The search for the closing brace ends where the walk over the hole does.** -/
theorem loop_braceTurn_eq (text : Bytes) : ∀ {rest : Bytes} {offset : Nat} (depth : Nat),
    text.drop offset = rest →
    loop text.length (braceTurn text) (fun _ _ => none) (depth + 1) offset
      = .ok (closingOf offset (Enclosed.read moveHole ⟨depth, none⟩ rest))
  | [], offset, depth, h => loop_of_le (List.drop_eq_nil_iff.mp h)
  | b :: rest, offset, depth, h => by
      have hlt := Bytes.lt_of_drop_eq_cons h
      rcases braceTurn_step h depth with ⟨hturn, hclosing⟩ | ⟨next, width, hpos, hturn, hclosing⟩
      · rw [loop_of_done hlt hturn, hclosing]
      · have hbehind : text.drop (offset + width) = (b :: rest).drop width := by
          rw [← List.drop_drop, h]
        rw [loop_of_next hlt hturn (Nat.lt_add_of_pos_right hpos),
          loop_braceTurn_eq text next hbehind, hclosing]
  termination_by rest => rest.length
  decreasing_by
    simp only [List.length_drop, List.length_cons]
    omega

theorem matchingBrace_eq {text rest : Bytes} {opening : Nat}
    (h : text.drop opening = openBrace :: rest) :
    matchingBrace text opening = .ok (closingOf (opening + 1) (Expression.hole rest)) := by
  have hturn : braceTurn text 0 opening = .ok (.next 1 (opening + 1)) := by
    simp only [braceTurn, byteAt_eq (Bytes.getElem?_of_drop_eq_cons h), ok_bind]
    rfl
  rw [matchingBrace, loop_of_next (Bytes.lt_of_drop_eq_cons h) hturn (Nat.lt_succ_self _)]
  exact loop_braceTurn_eq text 0 (Bytes.drop_add_of_drop_eq_cons h Nat.one_pos)

end Checked

end LogMarkup
