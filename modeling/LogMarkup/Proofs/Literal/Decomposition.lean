import LogMarkup.Proofs.Literal.Layout

/-!
# `LogMarkup.Proofs.Literal.Decomposition` — the literals of a text, from left to right

The search for literals goes on behind each literal that it finds, and by one byte where there is
none. So whatever it passes over is either part of a literal or no place where one starts. Each
induction here is on the search, with the whole text fixed and the place of the search moving.

## Contents
- `Literal.at?_of_mem_allFrom`, `Literal.pairwise_allFrom`, `Literal.at?_eq_none_of_forall_allFrom` —
  what one search finds, in which order, and what it leaves out.
- `Literal.all_isDecomposition` — the three together, for a whole text.
- `Literal.allFrom_eq_append` — a search is one search behind the other where no literal crosses — and
  `Literal.extract_eq_text`, `Literal.stop_le_length`.
-/

namespace LogMarkup

namespace Literal

theorem start_of_read? {start : Nat} {text : Bytes} {literal : Literal}
    (h : read? start text = some literal) : literal.start = start := (read?_eq_some_iff.mp h).1

theorem at?_eq_none_of_length_le {text : Bytes} {offset : Nat} (h : text.length ≤ offset) :
    at? text offset = none := by
  rw [at?, List.drop_eq_nil_of_le h]
  rfl

/-- The search goes on behind the literal that it has found. -/
theorem drop_stop_of_read? {text rest : Bytes} {start : Nat} {b : UInt8} {literal : Literal}
    (hrest : text.drop start = b :: rest) (h : read? start (b :: rest) = some literal) :
    text.drop literal.stop = rest.drop (literal.width - 1) := by
  rw [stop, start_of_read? h]
  exact Bytes.drop_add_of_drop_eq_cons hrest literal.width_pos

/-- What the search finds was read at its own offset, and not in front of the place to search from. -/
theorem at?_of_mem_allFrom {text rest : Bytes} {start : Nat} {literal : Literal}
    (hrest : text.drop start = rest) (h : literal ∈ allFrom start rest) :
    start ≤ literal.start ∧ at? text literal.start = some literal := by
  fun_induction allFrom start rest with
  | case1 => exact absurd h (by simp)
  | case2 start b rest _ ih =>
      obtain ⟨hle, hat⟩ := ih (Bytes.drop_add_of_drop_eq_cons hrest Nat.zero_lt_one) h
      exact ⟨by omega, hat⟩
  | case3 start b rest first hfirst ih =>
      have hstart := start_of_read? hfirst
      rcases List.mem_cons.mp h with rfl | hmem
      · rw [hstart, at?, hrest]
        exact ⟨Nat.le_refl _, hfirst⟩
      · obtain ⟨hle, hat⟩ := ih (drop_stop_of_read? hrest hfirst) hmem
        have hlast := first.last_add_one
        have hstop : first.start ≤ first.stop := Nat.le_add_right _ _
        exact ⟨by omega, hat⟩

/-- Where no literal is read, the search finds only what starts behind. -/
theorem lt_start_of_mem_allFrom {text rest : Bytes} {start : Nat} {b : UInt8} {literal : Literal}
    (hrest : text.drop start = b :: rest) (hnone : read? start (b :: rest) = none)
    (h : literal ∈ allFrom start (b :: rest)) : start < literal.start := by
  rw [allFrom, hnone] at h
  exact (at?_of_mem_allFrom (Bytes.drop_add_of_drop_eq_cons hrest Nat.zero_lt_one) h).1

/-- The literals that the search finds follow one another without sharing a byte. -/
theorem pairwise_allFrom {text rest : Bytes} {start : Nat} (hrest : text.drop start = rest) :
    (allFrom start rest).Pairwise fun first second => first.last < second.start := by
  fun_induction allFrom start rest with
  | case1 => exact List.Pairwise.nil
  | case2 start b rest _ ih => exact ih (Bytes.drop_add_of_drop_eq_cons hrest Nat.zero_lt_one)
  | case3 start b rest first hfirst ih =>
      have hbehind := drop_stop_of_read? hrest hfirst
      refine List.Pairwise.cons ?_ (ih hbehind)
      intro second hsecond
      have hle := (at?_of_mem_allFrom hbehind hsecond).1
      have hlast := first.last_add_one
      omega

/-- The search passes over an offset only in a literal or where no literal starts. -/
theorem at?_eq_none_of_forall_allFrom {text rest : Bytes} {start offset : Nat}
    (hrest : text.drop start = rest) (hle : start ≤ offset)
    (h : ∀ literal ∈ allFrom start rest, ¬ (literal.start ≤ offset ∧ offset ≤ literal.last)) :
    at? text offset = none := by
  fun_induction allFrom start rest with
  | case1 start => exact at?_eq_none_of_length_le ((List.drop_eq_nil_iff.mp hrest).trans hle)
  | case2 start b rest hnone ih =>
      rcases Nat.eq_or_lt_of_le hle with rfl | hlt
      · rw [at?, hrest]
        exact hnone
      · exact ih (Bytes.drop_add_of_drop_eq_cons hrest Nat.zero_lt_one) hlt h
  | case3 start b rest first hfirst ih =>
      have hstart := start_of_read? hfirst
      -- The offset is not in the literal, so it is behind it, where the search goes on.
      have hlast := first.last_add_one
      have hout := h first List.mem_cons_self
      apply ih (drop_stop_of_read? hrest hfirst) (by omega)
      intro literal hmem
      exact h literal (List.mem_cons_of_mem _ hmem)

/-- **The search can be split where no literal crosses.** Either a literal that is found in front of a place
    goes on behind it, or the search from the place on finds the rest. -/
theorem allFrom_eq_append (start k : Nat) (text : Bytes) :
    (∃ literal ∈ allFrom start text, literal.start < start + k ∧ start + k < literal.stop) ∨
    ∃ front, allFrom start text = front ++ allFrom (start + k) (text.drop k) ∧
      ∀ literal ∈ front, literal.stop ≤ start + k := by
  fun_induction allFrom start text generalizing k with
  | case1 start => exact .inr ⟨[], by rw [List.drop_nil, allFrom, List.append_nil], by simp⟩
  | case2 start b rest hnone ih =>
      cases k with
      | zero =>
          have hsame : allFrom start (b :: rest) = allFrom (start + 1) rest := by
            rw [allFrom, hnone]
          exact .inr ⟨[], hsame.symm, by simp⟩
      | succ k =>
          rw [Nat.add_comm k 1, ← Nat.add_assoc, Nat.add_comm 1 k, List.drop_succ_cons]
          exact ih k
  | case3 start b rest first hfirst ih =>
      have hstart := start_of_read? hfirst
      have hwidth := first.width_pos
      cases k with
      | zero =>
          have hsame : allFrom start (b :: rest)
              = first :: allFrom first.stop (rest.drop (first.width - 1)) := by
            rw [allFrom, hfirst]
          exact .inr ⟨[], hsame.symm, by simp⟩
      | succ k =>
          by_cases hcross : start + (k + 1) < first.stop
          · exact .inl ⟨first, List.mem_cons_self, by omega, hcross⟩
          · -- The literal ends in front of the place, and the search behind it is split there.
            obtain ⟨more, hmore⟩ := Nat.exists_eq_add_of_le (Nat.le_of_not_lt hcross)
            have hk : first.width - 1 + more = k := by
              rw [stop] at hmore
              omega
            have hdrop : (rest.drop (first.width - 1)).drop more = (b :: rest).drop (k + 1) := by
              rw [List.drop_drop, hk, List.drop_succ_cons]
            rw [hmore, ← hdrop]
            rcases ih more with ⟨other, hother, hcross'⟩ | ⟨front, heq, hfront⟩
            · exact .inl ⟨other, List.mem_cons_of_mem _ hother, hcross'⟩
            · refine .inr ⟨first :: front, by rw [heq, List.cons_append], ?_⟩
              intro literal hmem
              rcases List.mem_cons.mp hmem with rfl | hmem
              · exact Nat.le_add_right _ _
              · exact hfront literal hmem

theorem delimits_of_mem_all {text : Bytes} {literal : Literal} (h : literal ∈ all text) :
    Delimits text literal := delimits_of_at? (at?_of_mem_allFrom rfl h).2

theorem stop_le_length {text : Bytes} {literal : Literal} (h : literal ∈ all text) :
    literal.stop ≤ text.length := by
  rw [← literal.last_add_one]
  exact (delimits_of_mem_all h).last_lt

theorem contentStop_le_stop (literal : Literal) : literal.contentStop ≤ literal.stop := by
  rw [stop_eq]
  exact Nat.le_add_right _ _

theorem contentStop_le_length {text : Bytes} {literal : Literal} (h : literal ∈ all text) :
    literal.contentStop ≤ text.length :=
  literal.contentStop_le_stop.trans (stop_le_length h)

/-- A literal is the slice of the text between its offsets. -/
theorem extract_eq_text {text : Bytes} {literal : Literal} (h : literal ∈ all text) :
    text.extract literal.start literal.stop = literal.text :=
  Bytes.extract_of_isPrefix (text_isPrefix (at?_of_mem_allFrom rfl h).2)

/-- **The literals of a text are its greedy decomposition from left to right.** Each is the one that is
    read at its own offset, they follow one another without sharing a byte, no literal starts outside
    of them, and their offsets delimit their parts in the text. -/
theorem all_isDecomposition (text : Bytes) :
    (∀ literal ∈ all text, at? text literal.start = some literal) ∧
    (all text).Pairwise (fun first second => first.last < second.start) ∧
    (∀ offset, (∀ literal ∈ all text, ¬ (literal.start ≤ offset ∧ offset ≤ literal.last)) →
      at? text offset = none) ∧
    (∀ literal ∈ all text, Delimits text literal) := by
  have hat : ∀ literal ∈ all text, at? text literal.start = some literal :=
    fun _ hmem => (at?_of_mem_allFrom List.drop_zero hmem).2
  refine ⟨hat, pairwise_allFrom List.drop_zero, ?_, ?_⟩
  · intro offset hout
    exact at?_eq_none_of_forall_allFrom List.drop_zero (Nat.zero_le offset) hout
  · intro literal hmem
    exact delimits_of_at? (hat literal hmem)

end Literal

end LogMarkup
