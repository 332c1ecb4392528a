import LogMarkup.Proofs.Checked.Basic
import LogMarkup.Proofs.Text.Enclosed

/-!
# `LogMarkup.Proofs.Checked.Walk` — walks and runs, offset by offset

`Enclosed.read` goes over a text in single bytes and in pairs. By offsets the same walk reads a byte,
decides, and goes on one or two bytes further. A pair may carry it behind its limit, so that it is the
limit that counts as its end, not the offset that was reached.

## Contents
- `Move.map` and `Checked.walk`, with `Checked.walk_eq` for a walk whose states are told in another way,
  and `Checked.walk_ok_eq` for one whose decisions never fail.
- `Checked.runEnd`, the end of a run of bytes of a class, and `Checked.runEnd_eq`.
-/

namespace LogMarkup

/-- The same decision in a walk whose states are told in another way. -/
def Move.map {σ τ : Type} (f : σ → τ) : Move σ → Move τ
  | close => close
  | stopBefore => stopBefore
  | stopAfter => stopAfter
  | single next => single (f next)
  | pair next => pair (f next)

theorem Move.map_id {σ : Type} (move : Move σ) : move.map id = move := by
  cases move <;> rfl

namespace Checked

/-! ## Walks -/

/-- What a decision at an offset means for the loop. -/
def turnOf {τ : Type} (offset : Nat) : Move τ → Turn τ (Nat × Bool)
  | .close => .done (offset, true)
  | .stopBefore => .done (offset, false)
  | .stopAfter => .done (offset + 1, false)
  | .single next => .next next (offset + 1)
  | .pair next => .next next (offset + 2)

/-- Read a byte and decide what to do with it. -/
def walkTurn {τ : Type} (move : τ → UInt8 → Bytes → Checked (Move τ)) (text : Bytes) (state : τ)
    (offset : Nat) : Checked (Turn τ (Nat × Bool)) := do
  let b ← byteAt text offset
  let decision ← move state b (text.drop (offset + 1))
  pure (turnOf offset decision)

/-- The offset where a walk ends, and whether a closer stands there. -/
def walk {τ : Type} (move : τ → UInt8 → Bytes → Checked (Move τ)) (text : Bytes) (limit : Nat)
    (state : τ) (offset : Nat) : Checked (Nat × Bool) :=
  loop limit (walkTurn move text) (fun _ _ => (limit, false)) state offset

section

variable {σ τ : Type} {move : σ → UInt8 → Bytes → Move σ}
  {checked : τ → UInt8 → Bytes → Checked (Move τ)} {f : σ → τ} {text : Bytes} {limit : Nat}

/-- **By offsets a walk ends where it ends in the list.** -/
theorem walk_eq (hlimit : limit ≤ text.length)
    (hmove : ∀ state b offset, checked (f state) b (text.drop offset)
      = .ok ((move state b ((text.take limit).drop offset)).map f))
    {state : σ} {offset : Nat} {rest : Bytes} (h : (text.take limit).drop offset = rest)
    (hoffset : offset ≤ limit) :
    walk checked text limit (f state) offset =
      .ok (offset + (Enclosed.read move state rest).content.length,
        (Enclosed.read move state rest).closed) := by
  unfold walk
  -- What a turn does at a byte of the text is what the decision in the list says.
  have hturn : ∀ state {offset b rest}, (text.take limit).drop offset = b :: rest →
      walkTurn checked text (f state) offset = .ok (turnOf offset ((move state b rest).map f)) := by
    intro state offset b rest h
    have hrest : (text.take limit).drop (offset + 1) = rest :=
      Bytes.drop_add_of_drop_eq_cons h Nat.one_pos
    simp only [walkTurn, byteAt_eq (Bytes.getElem?_of_take_drop h), hmove, hrest, ok_bind, pure_eq_ok]
  fun_induction Enclosed.read move state rest generalizing offset with
  | case1 state =>
      obtain rfl := Nat.le_antisymm (Bytes.le_of_take_drop hlimit h) hoffset
      exact loop_of_le (Nat.le_refl _)
  | case2 state b rest hclose =>
      apply loop_of_done (Bytes.lt_of_take_drop h)
      rw [hturn state h, hclose]
      rfl
  | case3 state b rest hstop =>
      apply loop_of_done (Bytes.lt_of_take_drop h)
      rw [hturn state h, hstop]
      rfl
  | case4 state b rest hstop =>
      apply loop_of_done (Bytes.lt_of_take_drop h)
      rw [hturn state h, hstop]
      rfl
  | case5 state b rest next hsingle ih =>
      have hlt := Bytes.lt_of_take_drop h
      have hnext := hturn state h
      rw [hsingle] at hnext
      rw [loop_of_next hlt hnext (Nat.lt_succ_self _),
        ih (Bytes.drop_add_of_drop_eq_cons h Nat.one_pos) hlt]
      simp only [Enclosed.push, List.length_cons, Nat.add_assoc, Nat.add_comm 1]
  | case6 state b next hpair =>
      -- The pair has lost its second byte, and the walk is behind its limit.
      have hlt := Bytes.lt_of_take_drop h
      have hnext := hturn state h
      have hlength := Bytes.length_of_drop_eq_cons h
      rw [List.length_take_of_le hlimit, List.length_nil] at hlength
      rw [hpair] at hnext
      rw [loop_of_next hlt hnext (by omega), loop_of_le (by omega), ← hlength]
      rfl
  | case7 state b next c rest hpair ih =>
      have hlt := Bytes.lt_of_take_drop h
      have hnext := hturn state h
      have hrest : (text.take limit).drop (offset + 1) = c :: rest :=
        Bytes.drop_add_of_drop_eq_cons h Nat.one_pos
      rw [hpair] at hnext
      rw [loop_of_next hlt hnext (by omega),
        ih (Bytes.drop_add_of_drop_eq_cons h Nat.two_pos) (Bytes.lt_of_take_drop hrest)]
      simp only [Enclosed.push, List.length_cons, Nat.add_assoc, Nat.add_comm 2]

/-- A walk to the end of the text whose decisions are those of the list. -/
theorem walk_ok_eq {state : σ} {offset : Nat} {rest : Bytes} (h : text.drop offset = rest)
    (hoffset : offset ≤ text.length) :
    walk (fun state b rest => .ok (move state b rest)) text text.length state offset =
      .ok (offset + (Enclosed.read move state rest).content.length,
        (Enclosed.read move state rest).closed) := by
  refine walk_eq (f := id) (Nat.le_refl _) ?_ ?_ hoffset
  · intro state b offset
    rw [List.take_length, Move.map_id]
    rfl
  · rw [List.take_length, h]

end

/-! ## Runs -/

/-- Read a byte, and go on behind it if it is of the class. -/
def runTurn (p : UInt8 → Bool) (text : Bytes) (_ : Unit) (offset : Nat) :
    Checked (Turn Unit Nat) := do
  let b ← byteAt text offset
  pure (if p b then .next () (offset + 1) else .done offset)

/-- The offset behind the bytes of a class, which must not be behind a limit. -/
def runEnd (p : UInt8 → Bool) (text : Bytes) (limit offset : Nat) : Checked Nat :=
  loop limit (runTurn p text) (fun _ offset => offset) () offset

theorem runEnd_eq {p : UInt8 → Bool} {text rest : Bytes} {limit offset : Nat}
    (hlimit : limit ≤ text.length) (h : (text.take limit).drop offset = rest) :
    runEnd p text limit offset = .ok (offset + (rest.takeWhile p).length) := by
  unfold runEnd
  induction rest generalizing offset with
  | nil => exact loop_of_le (Bytes.le_of_take_drop hlimit h)
  | cons b rest ih =>
      have hlt := Bytes.lt_of_take_drop h
      have hbyte := byteAt_eq (Bytes.getElem?_of_take_drop h)
      by_cases hb : p b = true
      · have hnext : runTurn p text () offset = .ok (.next () (offset + 1)) := by
          simp only [runTurn, hbyte, ok_bind, hb]
          rfl
        rw [loop_of_next hlt hnext (Nat.lt_succ_self _),
          ih (Bytes.drop_add_of_drop_eq_cons h Nat.one_pos), List.takeWhile_cons_of_pos hb]
        simp only [List.length_cons, Nat.add_assoc, Nat.add_comm 1]
      · have hdone : runTurn p text () offset = .ok (.done offset) := by
          simp only [runTurn, hbyte, ok_bind, hb]
          rfl
        rw [loop_of_done hlt hdone, List.takeWhile_cons_of_neg hb]
        rfl

end Checked

end LogMarkup
