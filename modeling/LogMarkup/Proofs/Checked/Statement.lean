import LogMarkup.Call.Extent
import LogMarkup.Proofs.Checked.Literal
import LogMarkup.Proofs.Source.Text

/-!
# `LogMarkup.Proofs.Checked.Statement` — where calls start, line by line

The last mark of a line is looked for from its start. All literals of the line are known by then, and the
next one of them is stepped over where it starts. Upwards the search goes line by line, and never above
the first line of the document.

## Contents
- **The last mark.** `Checked.markTurn` and `Checked.closesStatement`, with
  `Checked.closesStatement_eq`.
- **The first line.** `Checked.climb` and `Checked.callStart`, each with its equation.
-/

namespace LogMarkup

open Ascii

/-- Where no literal is read, the next one is not there yet. -/
theorem Literal.head?_allFrom_of_none {text rest : Bytes} {start : Nat} {b : UInt8}
    (hrest : text.drop start = b :: rest) (h : read? start (b :: rest) = none) :
    (allFrom start (b :: rest)).head?.filter (·.start == start) = none := by
  rw [allFrom, h]
  cases hhead : (allFrom (start + 1) rest).head? with
  | none => rfl
  | some literal =>
      have hle := (at?_of_mem_allFrom (Bytes.drop_add_of_drop_eq_cons hrest Nat.one_pos)
        (List.mem_of_head? hhead)).1
      exact Option.filter_some_neg (by simp; omega)

namespace Checked

/-! ## The last mark -/

/-- Look at a byte of a line, or step over the next literal if it starts there. The state is the last mark,
    and the literals that are still to come. -/
def markTurn (text : Bytes) (state : Option UInt8 × List Literal) (offset : Nat) :
    Checked (Turn (Option UInt8 × List Literal) (Option UInt8)) :=
  match state.2.head?.filter (·.start == offset) with
  | some literal => pure (.next (some quote, state.2.tail) literal.stop)
  | none => do
    let b ← byteAt text offset
    if b = slash ∧ text[offset + 1]? = some slash then pure (.done state.1)
    else pure (.next (if isSpace b then state.1 else some b, state.2) (offset + 1))

/-- Whether no statement goes on behind a line. -/
def closesStatement (line : Bytes) : Checked Bool :=
  if line.unindented = [] ∨ [slash, slash].isPrefixOf line.unindented then pure true
  else do
    let found ← literals line
    let mark ← loop line.length (markTurn line) (fun state _ => state.1) (none, found) 0
    pure (mark.any isStatementEnd)

/-- **Both searches step over the same literals.** -/
theorem loop_markTurn_eq {line rest : Bytes} {offset : Nat} (last : Option UInt8)
    (h : line.drop offset = rest) :
    loop line.length (markTurn line) (fun state _ => state.1) (last, Literal.allFrom offset rest) offset
      = .ok (lastMark last rest) := by
  fun_induction lastMark last rest generalizing offset with
  | case1 last => exact loop_of_le (List.drop_eq_nil_iff.mp h)
  | case2 last b rest literal hliteral ih =>
      have hread : Literal.read? offset (b :: rest) = some { literal with start := offset } := by
        rw [Literal.read?_eq_map, hliteral]
        rfl
      have hlt := Bytes.lt_of_drop_eq_cons h
      have hpos := literal.width_pos
      rw [Literal.allFrom, hread]
      have hturn : markTurn line (last, { literal with start := offset } :: Literal.allFrom
            (offset + literal.width) (rest.drop (literal.width - 1))) offset
          = .ok (.next (some quote, Literal.allFrom (offset + literal.width)
              (rest.drop (literal.width - 1))) (offset + literal.width)) := by
        simp only [markTurn, List.head?_cons, Option.filter, beq_self_eq_true, if_true]
        rfl
      exact (loop_of_next hlt hturn (by omega)).trans
        (ih (Bytes.drop_add_of_drop_eq_cons h hpos))
  | case3 last b rest hnone hcomment =>
      have hhead := Literal.head?_allFrom_of_none h (by rw [Literal.read?_eq_map, hnone]; rfl)
      apply loop_of_done (Bytes.lt_of_drop_eq_cons h)
      simp only [markTurn, hhead, byteAt_eq (Bytes.getElem?_of_drop_eq_cons h),
        Bytes.getElem?_succ_of_drop_eq_cons h, ok_bind, if_pos hcomment, pure_eq_ok]
  | case4 last b rest hnone hcomment ih =>
      have hread : Literal.read? offset (b :: rest) = none := by
        rw [Literal.read?_eq_map, hnone]
        rfl
      have hhead := Literal.head?_allFrom_of_none h hread
      have hturn : markTurn line (last, Literal.allFrom offset (b :: rest)) offset
          = .ok (.next (if isSpace b then last else some b, Literal.allFrom offset (b :: rest))
              (offset + 1)) := by
        simp only [markTurn, hhead, byteAt_eq (Bytes.getElem?_of_drop_eq_cons h),
          Bytes.getElem?_succ_of_drop_eq_cons h, ok_bind, if_neg hcomment, pure_eq_ok]
      rw [loop_of_next (Bytes.lt_of_drop_eq_cons h) hturn (Nat.lt_succ_self _), Literal.allFrom,
        hread]
      exact ih (Bytes.drop_add_of_drop_eq_cons h Nat.one_pos)

theorem closesStatement_eq {line : Bytes} (hvalid : Utf8.isValid line = true) :
    closesStatement line = .ok (LogMarkup.closesStatement line) := by
  have hloop : loop line.length (markTurn line) (fun state _ => state.1) (none, Literal.all line) 0
      = .ok (lastMark none line) := loop_markTurn_eq none rfl
  unfold closesStatement LogMarkup.closesStatement
  simp only [literals_eq hvalid, hloop, ok_bind, pure_eq_ok]
  by_cases hempty : line.unindented = []
  · simp [hempty]
  by_cases hcomment : [slash, slash].isPrefixOf line.unindented = true
  · simp [hcomment]
  · rw [if_neg (by simp [hempty, hcomment])]
    simp [hempty, hcomment]

/-! ## The first line -/

/-- The line where a statement starts that reaches down to a line, but none above `lowest`. -/
def climb (document : Document) (lowest : Nat) : Nat → Checked Nat
  | 0 => pure 0
  | line + 1 =>
    if lowest < line + 1 then do
      let above ← sub (line + 1) 1
      let closes ← closesStatement (document.line above)
      if closes then pure (line + 1) else climb document lowest line
    else pure (line + 1)

/-- The line where the call around the line `trigger` starts, not above the line `floor`. -/
def callStart (document : Document) (limits : Limits) (trigger floor : Nat) : Checked Nat :=
  climb document (max (trigger - limits.callLookback) floor) trigger

section

variable {document : Document} (hlines : ∀ line ∈ document.lines, Utf8.isValid line = true)

include hlines

theorem climb_eq (lowest line : Nat) :
    climb document lowest line = .ok (LogMarkup.climb document lowest line) := by
  induction line with
  | zero => rfl
  | succ line ih =>
      have hsub : sub (line + 1) 1 = .ok line := sub_eq (Nat.succ_pos line)
      rw [climb, LogMarkup.climb, hsub, ok_bind, closesStatement_eq (Document.isValid_line hlines line),
        ok_bind]
      by_cases hlowest : lowest < line + 1
      · rw [if_pos hlowest]
        cases hcloses : LogMarkup.closesStatement (document.line line) with
        | true => simp
        | false => rw [if_neg Bool.false_ne_true, if_pos ⟨Nat.le_of_lt_succ hlowest, rfl⟩, ih]
      · rw [if_neg hlowest, if_neg fun h => hlowest (Nat.lt_succ_of_le h.1)]
        rfl

theorem callStart_eq (limits : Limits) (trigger floor : Nat) :
    callStart document limits trigger floor
      = .ok (LogMarkup.callStart document limits trigger floor) :=
  climb_eq hlines _ _

end

end Checked

end LogMarkup
