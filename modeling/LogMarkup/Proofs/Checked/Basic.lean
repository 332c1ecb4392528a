import LogMarkup.Proofs.Text.Boundary

/-!
# `LogMarkup.Proofs.Checked.Basic` — reads that may fail, and loops of them

The definitions of this library take a text apart as a list, and no read of a list can fail. A scanner
that keeps offsets into one block of bytes can fail in many ways: it may read behind the end, cut the
text inside of a character, or take a greater offset from a smaller one.

Here every such step is a computation that ends with a value or with a fault. In the modules of this
directory the scanners are written down once more with these steps, offset by offset. They leave the
decisions at a byte to the definitions that they stand for, and each of them is shown to end with the
value of its definition, so that none of its steps ever fails.

## Contents
- **Steps.** `Fault` and `Checked`; `Checked.sub`, `Checked.clamp`, `Checked.byteAt`, `Checked.slice`
  and `Checked.cut`, each with its condition.
- **Loops.** `Checked.Turn` and `Checked.loop`, with one equation for each way in which a turn ends.
- **Texts with a limit.** `Bytes.getElem?_of_take_drop` and its like, for a scanner that has reached an
  offset and must not go on behind another one.
-/

namespace LogMarkup

/-! ## Steps -/

/-- What can go wrong. -/
inductive Fault
  /-- A byte behind the end of a text was read. -/
  | index
  /-- The ends of a piece are in the wrong order, or behind the end of the text. -/
  | slice
  /-- A piece was cut out inside of a character. -/
  | boundary
  /-- A greater number was taken from a smaller one. -/
  | underflow
  /-- A number was to be brought between two bounds in the wrong order. -/
  | bounds
  /-- A loop did not get any further. -/
  | stuck
deriving Repr, DecidableEq

/-- A computation that ends with a value or a fault. -/
abbrev Checked (α : Type) := Except Fault α

namespace Checked

@[simp] theorem ok_bind {α β : Type} (a : α) (f : α → Checked β) :
    ((Except.ok a : Checked α) >>= f) = f a := rfl

@[simp] theorem pure_eq_ok {α : Type} (a : α) : (pure a : Checked α) = .ok a := rfl

/-- Where no member of a list gives a fault, the list does not give one. -/
theorem mapM_eq_ok {α β : Type} {f : α → Checked β} {g : α → β} {members : List α}
    (h : ∀ a ∈ members, f a = .ok (g a)) : members.mapM f = .ok (members.map g) := by
  induction members with
  | nil => rfl
  | cons a members ih =>
      rw [List.mapM_cons, h a List.mem_cons_self, ih fun b hb => h b (List.mem_cons_of_mem _ hb)]
      rfl

/-- The difference of two numbers, of which the second one must not be greater. -/
def sub (a b : Nat) : Checked Nat := if b ≤ a then .ok (a - b) else .error .underflow

/-- The number between two bounds that is next to a given one. -/
def clamp (a low high : Nat) : Checked Nat :=
  if low ≤ high then .ok (min (max a low) high) else .error .bounds

/-- The byte at an offset. -/
def byteAt (text : Bytes) (offset : Nat) : Checked UInt8 :=
  match text[offset]? with
  | none => .error .index
  | some b => .ok b

/-- The bytes from one offset up to another. -/
def slice (text : Bytes) (start stop : Nat) : Checked Bytes :=
  if start ≤ stop ∧ stop ≤ text.length then .ok (text.extract start stop) else .error .slice

/-- Whether a text may be cut at an offset: at its ends, and in front of each byte that continues no
    character. -/
def isCut (text : Bytes) (offset : Nat) : Bool :=
  offset == 0 || offset == text.length || text[offset]?.any fun b => !Utf8.isContinuation b

/-- The text from one offset up to another, both of which have to lie between characters. -/
def cut (text : Bytes) (start stop : Nat) : Checked Bytes := do
  let piece ← slice text start stop
  if isCut text start ∧ isCut text stop then .ok piece else .error .boundary

theorem sub_eq {a b : Nat} (h : b ≤ a) : sub a b = .ok (a - b) := if_pos h

theorem clamp_eq {a low high : Nat} (hlow : low ≤ a) (hhigh : a ≤ high) :
    clamp a low high = .ok a := by
  rw [clamp, if_pos (hlow.trans hhigh), max_eq_left hlow, min_eq_left hhigh]

theorem byteAt_eq {text : Bytes} {offset : Nat} {b : UInt8} (h : text[offset]? = some b) :
    byteAt text offset = .ok b := by
  rw [byteAt, h]

theorem slice_eq {text : Bytes} {start stop : Nat} (hle : start ≤ stop)
    (hlength : stop ≤ text.length) : slice text start stop = .ok (text.extract start stop) :=
  if_pos ⟨hle, hlength⟩

theorem slice_length {text : Bytes} {start : Nat} (h : start ≤ text.length) :
    slice text start text.length = .ok (text.drop start) := by
  rw [slice_eq h (Nat.le_refl _), List.extract_eq_take_drop, ← List.length_drop, List.take_length]

/-- Where a text is well-formed on both sides, it may be cut. -/
theorem isCut_of_isBoundary {text : Bytes} {offset : Nat} (h : Utf8.IsBoundary text offset) :
    isCut text offset = true := by
  by_cases hlength : offset = text.length
  · simp [isCut, hlength]
  have hlt : offset < text.length := Nat.lt_of_le_of_ne h.le_length hlength
  have hdrop := h.isValid_drop
  rw [List.drop_eq_getElem_cons hlt] at hdrop
  obtain ⟨tail, behind, symbol, -, hchar, -⟩ := (Utf8.isValid_iff.mp hdrop).exists_of_cons
  simp [isCut, List.getElem?_eq_getElem hlt, hchar.isContinuation_lead]

theorem cut_eq {text : Bytes} {start stop : Nat} (hstart : Utf8.IsBoundary text start)
    (hstop : Utf8.IsBoundary text stop) (hle : start ≤ stop) :
    cut text start stop = .ok (text.extract start stop) := by
  rw [cut, slice_eq hle hstop.le_length, ok_bind]
  exact if_pos ⟨isCut_of_isBoundary hstart, isCut_of_isBoundary hstop⟩

/-! ## Loops -/

/-- How a turn of a loop ends: the loop goes on at another offset, or it is done. -/
inductive Turn (σ α : Type)
  | next (state : σ) (offset : Nat)
  | done (result : α)

/-- Take turns while the offset is in front of a limit; `behind` gives the result at the limit. A turn
    from which the loop would not go on behind its offset is a fault. -/
def loop {σ α : Type} (limit : Nat) (turn : σ → Nat → Checked (Turn σ α)) (behind : σ → Nat → α)
    (state : σ) (offset : Nat) : Checked α :=
  if offset < limit then
    match turn state offset with
    | .error fault => .error fault
    | .ok (.done result) => .ok result
    | .ok (.next state further) =>
      if offset < further then loop limit turn behind state further else .error .stuck
  else .ok (behind state offset)
termination_by limit - offset

section

variable {σ α : Type} {limit offset further : Nat} {turn : σ → Nat → Checked (Turn σ α)}
  {behind : σ → Nat → α} {state next : σ} {result : α}

theorem loop_of_le (h : limit ≤ offset) :
    loop limit turn behind state offset = .ok (behind state offset) := by
  rw [loop, if_neg (Nat.not_lt.mpr h)]

theorem loop_of_done (hlt : offset < limit) (h : turn state offset = .ok (.done result)) :
    loop limit turn behind state offset = .ok result := by
  rw [loop, if_pos hlt, h]

theorem loop_of_next (hlt : offset < limit) (h : turn state offset = .ok (.next next further))
    (hfurther : offset < further) :
    loop limit turn behind state offset = loop limit turn behind next further := by
  rw [loop, if_pos hlt, h]
  exact if_pos hfurther

end

end Checked

/-! ## Texts with a limit -/

namespace Bytes

variable {text rest : Bytes} {b : UInt8} {limit offset : Nat}

/-- Where the text in front of a limit goes on with a byte, the text has this byte. -/
theorem getElem?_of_take_drop (h : (text.take limit).drop offset = b :: rest) :
    text[offset]? = some b := by
  have hget := getElem?_of_drop_eq h 0
  rw [Nat.add_zero, List.getElem?_take] at hget
  split at hget
  · exact hget
  · exact absurd hget (by simp)

theorem lt_of_take_drop (h : (text.take limit).drop offset = b :: rest) : offset < limit := by
  have hlt := lt_of_drop_eq_cons h
  rw [List.length_take] at hlt
  exact (Nat.lt_min.mp hlt).1

theorem le_of_take_drop (hlimit : limit ≤ text.length) (h : (text.take limit).drop offset = []) :
    limit ≤ offset := by
  rwa [List.drop_eq_nil_iff, List.length_take_of_le hlimit] at h

theorem add_length_of_take_drop (hlimit : limit ≤ text.length)
    (h : (text.take limit).drop offset = rest) (hoffset : offset ≤ limit) :
    offset + rest.length = limit := by
  rw [← h, List.length_drop, List.length_take_of_le hlimit, Nat.add_sub_cancel' hoffset]

end Bytes

end LogMarkup
