import LogMarkup.Config.Basic

/-!
# `LogMarkup.Proofs.Config.Limits` — bounds that pass the check

## Contents
- `Limits.check_eq_ok_iff` — the check accepts bounds as they are, and exactly those that are all
  positive.
-/

namespace LogMarkup

theorem Limit.mem_all (limit : Limit) : limit ∈ Limit.all := by
  cases limit <;> decide

/-- **The check of bounds accepts those that are all positive**, and does not change them. -/
theorem Limits.check_eq_ok_iff {limits checked : Limits} :
    limits.check = .ok checked ↔ checked = limits ∧ ∀ limit, 0 < limits.get limit := by
  unfold check
  cases hzero : limits.firstZero? with
  | some limit =>
      -- Some bound is zero, so neither side holds.
      have hget : limits.get limit = 0 := by simpa using List.find?_some hzero
      constructor
      · intro h
        exact absurd h (by simp)
      · rintro ⟨-, hpos⟩
        exact absurd hget (Nat.pos_iff_ne_zero.mp (hpos limit))
  | none =>
      constructor
      · intro h
        refine ⟨(Except.ok.inj h).symm, fun limit => ?_⟩
        have hne := List.find?_eq_none.mp hzero limit limit.mem_all
        rw [beq_iff_eq] at hne
        exact Nat.pos_of_ne_zero hne
      · rintro ⟨rfl, -⟩
        rfl

end LogMarkup
