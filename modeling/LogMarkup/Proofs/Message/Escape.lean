import LogMarkup.Message.Escape
import LogMarkup.Proofs.Text.Boundary

/-!
# `LogMarkup.Proofs.Message.Escape` — what is covered and what is kept

## Contents
- **Steps.** `coverEscapesFrom_doubled` and its like, for what is read first, and
  `coverEscapesFrom_inside`, for a hole with all that is written in it.
- **Offsets.** `IsCovered` and `forall₂_coverEscapes` — every byte of a template is kept or covered by
  a space — with `length_coverEscapes`; `isValid_coverEscapes`, since all that is covered is ASCII;
  `getElem?_of_coverEscapes` — what is not a space in the covered template stands there in the
  template, too.
- **Parts.** `IsCovered.exists_eq_append`, for parts without spaces, `exists_drop_coverEscapesFrom`, for
  the rest of a template behind an offset, and `inside_isPrefix_iff`, for what a hole has kept.
-/

namespace LogMarkup

open Ascii

/-! ## Steps -/

theorem coverEscapesFrom_doubled {b : UInt8} (hb : isBrace b = true) (rest : Bytes) :
    coverEscapesFrom false (b :: b :: rest) = space :: space :: coverEscapesFrom false rest := by
  rcases isBrace_iff.mp hb with rfl | rfl
  · rfl
  · rfl

theorem coverEscapesFrom_opening {inHole : Bool} {rest : Bytes} (h : rest.head? ≠ some openBrace) :
    coverEscapesFrom inHole (openBrace :: rest) = openBrace :: coverEscapesFrom true rest := by
  cases rest with
  | nil => rfl
  | cons c rest =>
      have hc : c ≠ openBrace := fun heq => h (congrArg some heq)
      simp [coverEscapesFrom, hc]

theorem coverEscapesFrom_plain {b : UInt8} {rest : Bytes} (hb : b ≠ openBrace)
    (h : ¬ (isBrace b = true ∧ rest.head? = some b)) :
    coverEscapesFrom false (b :: rest) = b :: coverEscapesFrom false rest := by
  cases rest with
  | nil => rfl
  | cons c rest =>
      by_cases hclose : b = closeBrace
      · subst hclose
        have hc : c ≠ closeBrace := fun heq => h ⟨by decide, congrArg some heq⟩
        simp [coverEscapesFrom, hb, hc]
      · simp [coverEscapesFrom, hb, hclose]

/-- A brace that closes a hole is kept, whatever stands behind it. -/
theorem coverEscapesFrom_closing (rest : Bytes) :
    coverEscapesFrom true (closeBrace :: rest) = closeBrace :: coverEscapesFrom false rest := by
  cases rest with
  | nil => rfl
  | cons c rest => simp [coverEscapesFrom, show closeBrace ≠ openBrace by decide]

/-- In a hole a byte is kept if it neither closes the hole nor is the first one of two opening braces. -/
theorem coverEscapesFrom_kept {b : UInt8} {rest : Bytes} (hb : b ≠ closeBrace)
    (h : ¬ (b = openBrace ∧ rest.head? = some openBrace)) :
    coverEscapesFrom true (b :: rest) = b :: coverEscapesFrom true rest := by
  cases rest with
  | nil => rfl
  | cons c rest =>
      by_cases hopen : b = openBrace
      · have hc : c ≠ openBrace := fun heq => h ⟨hopen, congrArg some heq⟩
        simp [coverEscapesFrom, hopen, hc]
      · simp [coverEscapesFrom, hopen, hb]

/-- Two opening braces in a row do not start with another byte. -/
theorem doubled_infix_cons {b : UInt8} {text : Bytes} (hb : openBrace ≠ b)
    (h : [openBrace, openBrace] <:+: b :: text) : [openBrace, openBrace] <:+: text := by
  rcases List.infix_cons_iff.mp h with hhead | htail
  · exact absurd (List.cons_prefix_cons.mp hhead).1 hb
  · exact htail

theorem doubled_infix_append {front part : Bytes} (hfront : openBrace ∉ front)
    (h : [openBrace, openBrace] <:+: front ++ part) : [openBrace, openBrace] <:+: part := by
  induction front with
  | nil => exact h
  | cons b front ih =>
      have hb : openBrace ≠ b := fun heq => hfront (heq ▸ List.mem_cons_self)
      exact ih (fun hmem => hfront (List.mem_cons_of_mem b hmem)) (doubled_infix_cons hb h)

/-- **A hole is kept as it is written** up to its closing brace, if no two opening braces stand in it. -/
theorem coverEscapesFrom_inside {inside : Bytes} (hbare : closeBrace ∉ inside)
    (hsingle : ¬ [openBrace, openBrace] <:+: inside) (behind : Bytes) :
    coverEscapesFrom true (inside ++ closeBrace :: behind)
      = inside ++ closeBrace :: coverEscapesFrom false behind := by
  induction inside with
  | nil => exact coverEscapesFrom_closing behind
  | cons b inside ih =>
      have hb : b ≠ closeBrace := fun heq => hbare (heq ▸ List.mem_cons_self)
      have hfirst : ¬ (b = openBrace ∧ (inside ++ closeBrace :: behind).head? = some openBrace) := by
        rintro ⟨rfl, hnext⟩
        cases inside with
        | nil => exact absurd (Option.some.inj hnext) (by decide)
        | cons c inside =>
            obtain rfl := Option.some.inj hnext
            exact hsingle ⟨[], inside, rfl⟩
      rw [List.cons_append, List.cons_append, coverEscapesFrom_kept hb hfirst]
      rw [ih (fun hmem => hbare (List.mem_cons_of_mem b hmem))
        (fun hinfix => hsingle (List.infix_cons hinfix))]

/-! ## Offsets -/

/-- Two bytes of a covered template and of the template itself: nothing but a brace is covered. -/
def IsCovered (covered b : UInt8) : Prop := covered = b ∨ (covered = space ∧ isBrace b = true)

theorem forall₂_coverEscapesFrom (inHole : Bool) (content : Bytes) :
    List.Forall₂ IsCovered (coverEscapesFrom inHole content) content := by
  have hopen : isBrace openBrace = true := by decide
  have hclose : isBrace closeBrace = true := by decide
  fun_induction coverEscapesFrom inHole content with
  | case1 => exact .nil
  | case2 _ b => exact .cons (.inl rfl) .nil
  | case3 inHole rest ih => exact .cons (.inr ⟨rfl, hopen⟩) (.cons (.inr ⟨rfl, hopen⟩) ih)
  | case4 inHole c rest _ ih => exact .cons (.inl rfl) ih
  | case5 inHole c rest h h' ih =>
      rw [h.1]
      exact .cons (.inr ⟨rfl, hclose⟩) (.cons (.inr ⟨rfl, hclose⟩) ih)
  | case6 inHole c rest h h' ih => exact .cons (.inl rfl) ih
  | case7 inHole b c rest h h' ih => exact .cons (.inl rfl) ih

/-- **Every byte of a template is kept or covered by a space.** -/
theorem forall₂_coverEscapes (content : Bytes) :
    List.Forall₂ IsCovered (coverEscapes content) content :=
  forall₂_coverEscapesFrom false content

theorem length_coverEscapes (content : Bytes) : (coverEscapes content).length = content.length :=
  (forall₂_coverEscapes content).length_eq

/-- A covered template is a text again. -/
theorem isValid_coverEscapes {content : Bytes} (hvalid : Utf8.isValid content = true) :
    Utf8.isValid (coverEscapes content) = true := by
  refine Utf8.isValid_of_forall₂ ((forall₂_coverEscapes content).imp ?_) hvalid
  rintro covered b (hkept | ⟨hspace, hbrace⟩)
  · exact .inl hkept
  · refine .inr ⟨hspace ▸ by decide, ?_⟩
    rcases isBrace_iff.mp hbrace with rfl | rfl
    · decide
    · decide

/-- What is left uncovered stands at the same offset of the template. -/
theorem getElem?_of_coverEscapes {content : Bytes} {offset : Nat} {b : UInt8}
    (h : (coverEscapes content)[offset]? = some b) (hne : b ≠ space) : content[offset]? = some b := by
  have hcover := forall₂_coverEscapes content
  obtain ⟨hlt, hget⟩ := List.getElem?_eq_some_iff.mp h
  have hlt' := hcover.length_eq ▸ hlt
  rcases hcover.get hlt hlt' with hkept | ⟨hcovered, -⟩
  · rw [List.getElem?_eq_some_iff]
    exact ⟨hlt', hkept.symm.trans hget⟩
  · exact absurd (hget.symm.trans hcovered) hne

/-! ## Parts -/

namespace IsCovered

variable {front back text : Bytes}

/-- A first part without spaces stands in the template as it is. -/
theorem exists_eq_append (h : List.Forall₂ IsCovered (front ++ back) text) (hfront : space ∉ front) :
    ∃ rest, text = front ++ rest ∧ List.Forall₂ IsCovered back rest := by
  induction front generalizing text with
  | nil => exact ⟨text, rfl, h⟩
  | cons b front ih =>
      obtain ⟨c, rest, hc, hrest, rfl⟩ := List.forall₂_cons_left_iff.mp h
      rcases hc with rfl | ⟨hspace, -⟩
      · obtain ⟨rest, rfl, hback⟩ := ih hrest fun hmem => hfront (List.mem_cons_of_mem _ hmem)
        exact ⟨rest, rfl, hback⟩
      · exact absurd (hspace ▸ List.mem_cons_self) hfront

/-- A last part without spaces stands in the template as it is. -/
theorem exists_append_eq (h : List.Forall₂ IsCovered (front ++ back) text) (hback : space ∉ back) :
    ∃ rest, text = rest ++ back ∧ List.Forall₂ IsCovered front rest := by
  induction front generalizing text with
  | nil =>
      rw [List.nil_append, ← List.append_nil back] at h
      obtain ⟨rest, rfl, hrest⟩ := exists_eq_append h hback
      rw [List.forall₂_nil_left_iff.mp hrest, List.append_nil]
      exact ⟨[], rfl, .nil⟩
  | cons b front ih =>
      obtain ⟨c, rest, hc, hrest, rfl⟩ := List.forall₂_cons_left_iff.mp h
      obtain ⟨rest, rfl, hfront⟩ := ih hrest
      exact ⟨c :: rest, rfl, .cons hc hfront⟩

end IsCovered

/-- What is kept first stands first in the template. -/
theorem eq_of_coverEscapesFrom {inHole : Bool} {content covered : Bytes} {b : UInt8}
    (h : coverEscapesFrom inHole content = b :: covered) (hne : b ≠ space) :
    ∃ rest, content = b :: rest := by
  have hall := forall₂_coverEscapesFrom inHole content
  rw [h] at hall
  obtain ⟨c, rest, hc, -, rfl⟩ := List.forall₂_cons_left_iff.mp hall
  rcases hc with rfl | ⟨hspace, -⟩
  · exact ⟨rest, rfl⟩
  · exact absurd hspace hne

/-- **No two opening braces in a row are left uncovered.** -/
theorem doubled_not_infix_coverEscapesFrom (inHole : Bool) (content : Bytes) :
    ¬ [openBrace, openBrace] <:+: coverEscapesFrom inHole content := by
  have hspace : openBrace ≠ space := by decide
  have hclosing : openBrace ≠ closeBrace := by decide
  fun_induction coverEscapesFrom inHole content with
  | case1 => simp
  | case2 _ b =>
      intro h
      exact absurd h.length_le (by simp)
  | case3 inHole rest ih =>
      intro h
      exact ih (doubled_infix_cons hspace (doubled_infix_cons hspace h))
  | case4 inHole c rest hc ih =>
      intro h
      rcases List.infix_cons_iff.mp h with ⟨more, hhead⟩ | htail
      · have hnext : coverEscapesFrom true (c :: rest) = openBrace :: more :=
          (List.cons.inj hhead).2.symm
        obtain ⟨rest, hrest⟩ := eq_of_coverEscapesFrom hnext hspace
        exact hc (List.cons.inj hrest).1
      · exact ih htail
  | case5 inHole c rest _ _ ih =>
      intro h
      exact ih (doubled_infix_cons hspace (doubled_infix_cons hspace h))
  | case6 inHole c rest _ _ ih =>
      intro h
      exact ih (doubled_infix_cons hclosing h)
  | case7 inHole b c rest hb _ ih =>
      intro h
      exact ih (doubled_infix_cons (Ne.symm hb) h)

/-- Where something is kept, the rest of a template is covered as a template of its own. -/
theorem exists_drop_coverEscapesFrom {inHole : Bool} {content : Bytes} {offset : Nat} {b : UInt8}
    (h : (coverEscapesFrom inHole content)[offset]? = some b) (hne : b ≠ space) :
    ∃ state, (coverEscapesFrom inHole content).drop offset
      = coverEscapesFrom state (content.drop offset) := by
  fun_induction coverEscapesFrom inHole content generalizing offset with
  | case1 inHole => exact absurd h (by simp)
  | case2 inHole c =>
      cases offset with
      | zero => exact ⟨inHole, rfl⟩
      | succ offset => exact absurd h (by simp)
  | case3 inHole rest ih =>
      match offset with
      | 0 => exact absurd (Option.some.inj h).symm hne
      | 1 => exact absurd (Option.some.inj h).symm hne
      | offset + 2 => exact ih h
  | case4 inHole c rest hc ih =>
      cases offset with
      | zero => exact ⟨inHole, by rw [List.drop_zero, List.drop_zero, coverEscapesFrom, if_pos rfl,
          if_neg hc]⟩
      | succ offset => exact ih h
  | case5 inHole c rest _ _ ih =>
      match offset with
      | 0 => exact absurd (Option.some.inj h).symm hne
      | 1 => exact absurd (Option.some.inj h).symm hne
      | offset + 2 => exact ih h
  | case6 inHole c rest hc hopen ih =>
      cases offset with
      | zero => exact ⟨inHole, by rw [List.drop_zero, List.drop_zero, coverEscapesFrom, if_neg hopen,
          if_pos rfl, if_neg hc]⟩
      | succ offset => exact ih h
  | case7 inHole c d rest hopen hclose ih =>
      cases offset with
      | zero => exact ⟨inHole, by rw [List.drop_zero, List.drop_zero, coverEscapesFrom, if_neg hopen,
          if_neg hclose]⟩
      | succ offset => exact ih h

/-- **What a hole has kept is what is written in it**, unless two opening braces stand there in a row. -/
theorem inside_isPrefix_iff {inside rest : Bytes} (hbare : closeBrace ∉ inside)
    (h : inside ++ [closeBrace] <+: coverEscapesFrom true rest) :
    inside ++ [closeBrace] <+: rest ↔
      ¬ [openBrace, openBrace] <:+: rest.take (inside.length + 1) := by
  constructor
  · rintro ⟨behind, rfl⟩ hdoubled
    have htake : (inside ++ [closeBrace] ++ behind).take (inside.length + 1)
        = inside ++ [closeBrace] := List.take_left' (by simp)
    rw [htake] at hdoubled
    exact doubled_not_infix_coverEscapesFrom true _ (hdoubled.trans h.isInfix)
  · intro hsingle
    induction inside generalizing rest with
    | nil =>
        obtain ⟨covered, hcovered⟩ := h
        obtain ⟨rest, rfl⟩ := eq_of_coverEscapesFrom hcovered.symm (by decide)
        exact ⟨rest, rfl⟩
    | cons b inside ih =>
        obtain ⟨covered, hcovered⟩ := h
        cases rest with
        | nil => exact absurd hcovered (by simp [coverEscapesFrom])
        | cons c rest =>
            have hc : c ≠ closeBrace := by
              rintro rfl
              rw [coverEscapesFrom_closing] at hcovered
              exact hbare ((List.cons.inj hcovered).1 ▸ List.mem_cons_self)
            have hfirst : ¬ (c = openBrace ∧ rest.head? = some openBrace) := by
              rintro ⟨rfl, hnext⟩
              obtain ⟨rest, rfl⟩ := List.head?_eq_some_iff.mp hnext
              exact hsingle ⟨[], rest.take inside.length, rfl⟩
            rw [coverEscapesFrom_kept hc hfirst] at hcovered
            obtain ⟨rfl, hrest⟩ := List.cons.inj hcovered
            refine (List.prefix_cons_inj b).mpr (ih ?_ ⟨covered, hrest⟩ ?_)
            · exact fun hmem => hbare (List.mem_cons_of_mem b hmem)
            · exact fun hinfix => hsingle (List.infix_cons hinfix)

end LogMarkup
