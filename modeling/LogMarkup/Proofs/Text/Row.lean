import LogMarkup.Region
import LogMarkup.Proofs.Text.Slice

/-!
# `LogMarkup.Proofs.Text.Row` — pieces of a text in a row

Properties, their segments, tokens and regions are all pieces of a content, each given by two offsets.
What is said about them is always the same: they are not empty, they lie between two offsets, and none
starts in front of the end of the one before it.

## Contents
- `IsRow`, with `IsRow.append` and `IsRow.mono`.
- `IsRow.flatMap`, for pieces that are themselves taken apart.
- `Region.offsets`, by which regions are pieces.
-/

namespace LogMarkup

/-- Half-open pieces, none of them empty, that follow one another between two offsets. -/
structure IsRow (low high : Nat) (pieces : List (Nat × Nat)) : Prop where
  lt : ∀ piece ∈ pieces, piece.1 < piece.2
  low_le : ∀ piece ∈ pieces, low ≤ piece.1
  le_high : ∀ piece ∈ pieces, piece.2 ≤ high
  pairwise : pieces.Pairwise fun first second => first.2 ≤ second.1

namespace IsRow

variable {low mid high : Nat} {first second : List (Nat × Nat)}

theorem nil : IsRow low high [] :=
  ⟨by simp, by simp, by simp, .nil⟩

theorem singleton {piece : Nat × Nat} (hlow : low ≤ piece.1) (hlt : piece.1 < piece.2)
    (hhigh : piece.2 ≤ high) : IsRow low high [piece] :=
  ⟨by simpa using hlt, by simpa using hlow, by simpa using hhigh, List.pairwise_singleton _ _⟩

/-- A row may be said to lie in a larger piece. -/
theorem mono {low' high' : Nat} (h : IsRow low high first) (hlow : low' ≤ low)
    (hhigh : high ≤ high') : IsRow low' high' first := by
  refine ⟨h.lt, ?_, ?_, h.pairwise⟩
  · intro piece hmem
    exact hlow.trans (h.low_le piece hmem)
  · intro piece hmem
    exact (h.le_high piece hmem).trans hhigh

/-- Two rows that meet at an offset make one. -/
theorem append (h₁ : IsRow low mid first) (h₂ : IsRow mid high second) (hlow : low ≤ mid)
    (hhigh : mid ≤ high) : IsRow low high (first ++ second) := by
  refine ⟨?_, ?_, ?_, List.pairwise_append.mpr ⟨h₁.pairwise, h₂.pairwise, ?_⟩⟩
  · intro piece hmem
    exact (List.mem_append.mp hmem).elim (h₁.lt piece) (h₂.lt piece)
  · intro piece hmem
    exact (List.mem_append.mp hmem).elim (h₁.low_le piece) ((h₂.mono hlow le_rfl).low_le piece)
  · intro piece hmem
    exact (List.mem_append.mp hmem).elim ((h₁.mono le_rfl hhigh).le_high piece) (h₂.le_high piece)
  · intro piece hmem other hother
    exact (h₁.le_high piece hmem).trans (h₂.low_le other hother)

/-- Pieces that follow one another, each with a row inside of it, make one row. -/
theorem flatMap {α : Type} {start stop : α → Nat} {inner : α → List (Nat × Nat)} {pieces : List α}
    (hrow : ∀ piece ∈ pieces, IsRow (start piece) (stop piece) (inner piece))
    (hlow : ∀ piece ∈ pieces, low ≤ start piece) (hhigh : ∀ piece ∈ pieces, stop piece ≤ high)
    (hpairwise : pieces.Pairwise fun one other => stop one ≤ start other) :
    IsRow low high (pieces.flatMap inner) := by
  refine ⟨?_, ?_, ?_, List.pairwise_flatMap.mpr ⟨fun piece hmem => (hrow piece hmem).pairwise, ?_⟩⟩
  · intro span hspan
    obtain ⟨piece, hmem, hin⟩ := List.mem_flatMap.mp hspan
    exact (hrow piece hmem).lt span hin
  · intro span hspan
    obtain ⟨piece, hmem, hin⟩ := List.mem_flatMap.mp hspan
    exact (hlow piece hmem).trans ((hrow piece hmem).low_le span hin)
  · intro span hspan
    obtain ⟨piece, hmem, hin⟩ := List.mem_flatMap.mp hspan
    exact ((hrow piece hmem).le_high span hin).trans (hhigh piece hmem)
  · refine hpairwise.imp_of_mem ?_
    intro one other hone hother hle span hspan span' hspan'
    exact ((hrow one hone).le_high span hspan).trans
      (hle.trans ((hrow other hother).low_le span' hspan'))

end IsRow

/-- The two offsets of a region. -/
def Region.offsets (region : Region) : Nat × Nat := (region.start, region.stop)

end LogMarkup
