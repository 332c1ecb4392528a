import LogMarkup.Proofs.Literal.Grammar

/-!
# `LogMarkup.Proofs.Literal.Interpolation` — interpolated literals close behind their last part

The content of an interpolated literal is text with holes in it. In the text a brace is doubled, and a single
one opens a hole; in a hole braces nest, and a quote does not close the literal. Where parts meet, a run of
braces is read from the left, by the number of holes that are open: the same two braces are one character
of the text, or a hole in a hole.

The walk over the content passes over one part after the other. In text it stays outside of holes. In a hole
every byte is taken alone, and the depth is the number of braces that are open. Since the braces of a hole are
balanced, the walk is outside of holes again behind it. So no part is read differently because of the ones
around it, and the first quote that can close the literal is the one behind the last part.

## Contents
- **Parts.** `Bytes.IsBalanced`, `Interpolation`, and `Interpolation.IsPart`, what a part of the content is in
  either form.
- **Single bytes.** One lemma for each decision of the walk, and `Interpolation.exists_move_inside` for all of
  those in a hole.
- **Passing over.** `Interpolation.passes_inside`, by induction over the body of a hole, and
  `Interpolation.passes_flatten` for all parts.
- **Literals.** `Literal.isClosedAt_interpolated`.
-/

namespace LogMarkup

open Ascii

/-! ## Parts -/

/-- As many braces are closed as are opened, and none before it is opened. -/
structure Bytes.IsBalanced (text : Bytes) : Prop where
  count_eq : text.count openBrace = text.count closeBrace
  count_le : ∀ n, (text.take n).count closeBrace ≤ (text.take n).count openBrace

instance (text : Bytes) : Decidable text.IsBalanced :=
  decidable_of_iff (text.count openBrace = text.count closeBrace ∧
      ∀ n < text.length, (text.take n).count closeBrace ≤ (text.take n).count openBrace) <| by
    refine ⟨fun h => ⟨h.1, fun n => ?_⟩, fun h => ⟨h.count_eq, fun n _ => h.count_le n⟩⟩
    rcases Nat.lt_or_ge n text.length with hlt | hge
    · exact h.2 n hlt
    · rw [List.take_of_length_le hge]
      exact Nat.le_of_eq h.1.symm

/-- The forms of literals with holes. -/
inductive Interpolation
  /-- On one line, with backslash escapes. -/
  | inLine
  /-- On any number of lines. The dollar sign stands in front of the at sign or behind it. -/
  | verbatim (dollarFirst : Bool)

namespace Interpolation

/-- What opens a literal of the form. -/
def opener : Interpolation → Opener
  | inLine => .interpolated
  | verbatim dollarFirst => .verbatimInterpolated dollarFirst

/-- The bytes that stand for themselves in the text between holes. -/
def IsPlain : Interpolation → UInt8 → Prop
  | inLine, b => b ≠ quote ∧ b ≠ backslash ∧ isBrace b = false ∧ b ≠ lineFeed
  | verbatim _, b => b ≠ quote ∧ isBrace b = false

/-- The escapes in the text between holes: a doubled brace, and a backslash with what is behind it or a doubled
    quote. Of a character of several bytes the backslash takes the first one along, and the others stand for
    themselves. -/
def IsEscape : Interpolation → UInt8 → UInt8 → Prop
  | inLine, b, c => (isBrace b = true ∧ c = b) ∨ (b = backslash ∧ c ≠ lineFeed)
  | verbatim _, b, c => (isBrace b = true ∧ c = b) ∨ (b = quote ∧ c = quote)

/-- What may stand between the braces of a hole. Behind a second opening brace there would be no hole. -/
structure IsHoleBody (form : Interpolation) (body : Bytes) : Prop where
  isBalanced : body.IsBalanced
  head?_ne : body.head? ≠ some openBrace
  backslash_notMem : form = inLine → backslash ∉ body

/-- A part of the content: some text, or a hole. -/
inductive IsPart (form : Interpolation) : Bytes → Prop
  | text {part : Bytes} : Bytes.IsUnits form.IsPlain form.IsEscape part → IsPart form part
  | hole {body : Bytes} : form.IsHoleBody body → IsPart form (openBrace :: (body ++ [closeBrace]))

variable {form : Interpolation} {part body : Bytes}

/-! ## Single bytes -/

theorem move_plain {b : UInt8} (h : form.IsPlain b) (rest : Bytes) :
    form.opener.move 0 b rest = .single 0 := by
  cases form with
  | inLine =>
      obtain ⟨hquote, hbackslash, hbrace, hfeed⟩ := h
      show Opener.moveInterpolated 0 b rest = _
      simp [Opener.moveInterpolated, Opener.moveInLine, hquote, hbackslash, hbrace, hfeed]
  | verbatim dollarFirst =>
      obtain ⟨hquote, hbrace⟩ := h
      show Opener.moveVerbatimInterpolated 0 b rest = _
      simp [Opener.moveVerbatimInterpolated, Opener.moveVerbatim, hquote, hbrace]

theorem move_escape {b c : UInt8} (h : form.IsEscape b c) (rest : Bytes) :
    form.opener.move 0 b (c :: rest) = .pair 0 := by
  cases form with
  | inLine =>
      rcases h with ⟨hbrace, rfl⟩ | ⟨rfl, hfeed⟩
      · show Opener.moveInterpolated 0 c (c :: rest) = _
        simp [Opener.moveInterpolated, Opener.moveBrace, hbrace]
      · show Opener.moveInLine 0 backslash (c :: rest) = _
        simp [Opener.moveInLine, hfeed]
  | verbatim dollarFirst =>
      rcases h with ⟨hbrace, rfl⟩ | ⟨rfl, rfl⟩
      · show Opener.moveVerbatimInterpolated 0 c (c :: rest) = _
        simp [Opener.moveVerbatimInterpolated, Opener.moveBrace, hbrace]
      · rfl

/-- Outside of holes a quote closes the literal, if it is not doubled. -/
theorem move_quote {rest : Bytes} (h : rest.head? ≠ some quote) :
    form.opener.move 0 quote rest = .close := by
  cases form with
  | inLine => rfl
  | verbatim dollarFirst =>
      show Opener.moveVerbatim 0 quote rest = _
      exact Opener.moveVerbatim_eq_close_iff.mpr ⟨rfl, h⟩

theorem move_brace {b : UInt8} (hbrace : isBrace b = true) (depth : Nat) (rest : Bytes) :
    form.opener.move depth b rest = Opener.moveBrace depth b rest := by
  cases form with
  | inLine => exact if_pos hbrace
  | verbatim dollarFirst => exact if_pos hbrace

/-- An opening brace opens a hole, if it is not doubled outside of holes. -/
theorem move_openBrace {depth : Nat} {rest : Bytes} (h : depth = 0 → rest.head? ≠ some openBrace) :
    form.opener.move depth openBrace rest = .single (depth + 1) := by
  rw [move_brace rfl, Opener.moveBrace, if_neg fun hdouble => h hdouble.1 hdouble.2]
  rfl

/-- In a hole a closing brace closes one, whatever is behind it. -/
theorem move_closeBrace (depth : Nat) (rest : Bytes) :
    form.opener.move (depth + 1) closeBrace rest = .single depth := by
  rw [move_brace rfl, Opener.moveBrace, if_neg fun hdouble => Nat.succ_ne_zero depth hdouble.1]
  rfl

/-- In a hole all other bytes stand for themselves, but for a backslash on one line. -/
theorem move_other {depth : Nat} {b : UInt8} (hbrace : isBrace b = false)
    (hbackslash : form = inLine → b ≠ backslash) (rest : Bytes) :
    form.opener.move (depth + 1) b rest = .single (depth + 1) := by
  cases form with
  | inLine =>
      show Opener.moveInterpolated (depth + 1) b rest = _
      simp [Opener.moveInterpolated, hbrace, hbackslash rfl]
  | verbatim dollarFirst =>
      show Opener.moveVerbatimInterpolated (depth + 1) b rest = _
      simp [Opener.moveVerbatimInterpolated, hbrace]

/-- **In a hole every byte is taken alone**, and the depth goes by the braces. The body of a hole has the depth
    zero here, and the walk counts the brace in front of it, too. -/
theorem exists_move_inside {depth : Nat} {b : UInt8}
    (hlevel : [b].count closeBrace ≤ [b].count openBrace + depth)
    (hbackslash : form = inLine → b ≠ backslash) :
    ∃ next, next + [b].count closeBrace = depth + [b].count openBrace ∧
      ∀ rest, form.opener.move (depth + 1) b rest = .single (next + 1) := by
  by_cases hopen : b = openBrace
  · subst hopen
    exact ⟨depth + 1, rfl, fun rest => move_openBrace (by simp)⟩
  by_cases hclose : b = closeBrace
  · subst hclose
    cases depth with
    | zero => exact absurd hlevel (by decide)
    | succ depth => exact ⟨depth, rfl, move_closeBrace (depth + 1)⟩
  · have hbrace : isBrace b = false := isBrace_eq_false_iff.mpr ⟨hopen, hclose⟩
    refine ⟨depth, ?_, move_other hbrace hbackslash⟩
    rw [List.count_singleton, List.count_singleton, if_neg (by simpa using hclose),
      if_neg (by simpa using hopen)]

/-! ## Passing over -/

/-- A walk passes over text in a hole, as long as the hole is not closed in it. -/
theorem passes_inside {depth : Nat}
    (hlevel : ∀ n, (body.take n).count closeBrace ≤ (body.take n).count openBrace + depth)
    (hbackslash : form = inLine → backslash ∉ body) :
    ∃ last, last + body.count closeBrace = depth + body.count openBrace ∧
      Enclosed.Passes form.opener.move (depth + 1) body (last + 1) := by
  induction body generalizing depth with
  | nil => exact ⟨depth, rfl, .nil _⟩
  | cons b rest ih =>
      have hcount (c : UInt8) (text : Bytes) :
          (b :: text).count c = [b].count c + text.count c := by
        rw [← List.singleton_append, List.count_append]
      have hfirst : form = inLine → b ≠ backslash := by
        rintro hform rfl
        exact hbackslash hform List.mem_cons_self
      obtain ⟨next, hnext, hmove⟩ := exists_move_inside (hlevel 1) hfirst
      have hrest : ∀ n, (rest.take n).count closeBrace ≤ (rest.take n).count openBrace + next := by
        intro n
        have h := hlevel (n + 1)
        rw [List.take_succ_cons, hcount closeBrace, hcount openBrace] at h
        omega
      obtain ⟨last, hlast, hpasses⟩ := ih hrest fun hform hmem =>
        hbackslash hform (List.mem_cons_of_mem b hmem)
      refine ⟨last, ?_, .single_cons (fun behind => hmove _) hpasses⟩
      rw [hcount closeBrace, hcount openBrace]
      omega

/-- Behind a hole the walk is outside of holes again. -/
theorem passes_hole (h : form.IsHoleBody body) :
    Enclosed.Passes form.opener.move 0 (openBrace :: (body ++ [closeBrace])) 0 := by
  have hlevel : ∀ n, (body.take n).count closeBrace ≤ (body.take n).count openBrace + 0 :=
    h.isBalanced.count_le
  obtain ⟨last, hlast, hbody⟩ := passes_inside hlevel h.backslash_notMem
  obtain rfl : last = 0 := by
    have hcount := h.isBalanced.count_eq
    omega
  have hclose : Enclosed.Passes form.opener.move 1 [closeBrace] 0 :=
    .single_cons (fun behind => move_closeBrace 0 _) (.nil 0)
  refine .single_cons (fun behind => move_openBrace fun _ => ?_) (hbody.append hclose)
  cases body with
  | nil =>
      show some closeBrace ≠ some openBrace
      decide
  | cons b rest => exact h.head?_ne

theorem passes_part (h : form.IsPart part) : Enclosed.Passes form.opener.move 0 part 0 := by
  cases h with
  | text hunits =>
      exact Enclosed.passes_of_isUnits (fun b rest hb => move_plain hb rest)
        (fun b c rest hbc => move_escape hbc rest) hunits
  | hole hbody => exact passes_hole hbody

/-- **A walk passes over all parts of a content**, and is outside of holes behind each of them. -/
theorem passes_flatten {parts : List Bytes} (h : ∀ part ∈ parts, form.IsPart part) :
    Enclosed.Passes form.opener.move 0 parts.flatten 0 := by
  induction parts with
  | nil => exact .nil 0
  | cons part parts ih =>
      rw [List.flatten_cons]
      refine (passes_part (h part List.mem_cons_self)).append (ih ?_)
      intro other hmem
      exact h other (List.mem_cons_of_mem part hmem)

/-! ## Literals -/

/-- The quote of an opener on one line is not the first one of three. -/
theorem run_quote_le (hpasses : Enclosed.Passes (opener inLine).move 0 part 0) {suffix : Bytes}
    (hsuffix : suffix.head? ≠ some quote) : Bytes.run quote (part ++ quote :: suffix) ≤ 1 := by
  cases part with
  | nil => exact Nat.le_of_eq (Bytes.run_replicate_append hsuffix 1)
  | cons b rest =>
      have hb : b ≠ quote := by
        rintro rfl
        exact hpasses.ne_close [] rfl
      rw [List.cons_append, Bytes.run, List.takeWhile_cons_of_neg (by simpa using hb)]
      exact Nat.zero_le 1

theorem read?_opener_append {behind : Bytes} (h : form = inLine → Bytes.run quote behind ≤ 1) :
    Opener.read? (form.opener.text ++ behind) = some form.opener := by
  cases form with
  | inLine =>
      have hdollars : Bytes.run dollar ([dollar, quote] ++ behind) = 1 := rfl
      have hquotes : Bytes.run quote (([dollar, quote] ++ behind).drop 1)
          = Bytes.run quote behind + 1 := rfl
      have hfew := h rfl
      show Opener.read? ([dollar, quote] ++ behind) = _
      simp only [Opener.read?, hdollars, hquotes]
      rw [if_neg (by omega), if_neg Nat.one_ne_zero]
      simp only [Nat.le_add_left, if_true]
      rfl
  | verbatim dollarFirst => cases dollarFirst <;> rfl

end Interpolation

/-- **An interpolated literal closes exactly behind its last part.** Whatever the parts are, and however their
    braces and quotes meet, the literal that starts at the opener is closed, its content is all of the parts,
    and its last byte is the quote behind them. -/
theorem Literal.isClosedAt_interpolated (form : Interpolation) (front : Bytes) {parts : List Bytes}
    (hparts : ∀ part ∈ parts, form.IsPart part) {suffix : Bytes}
    (hsuffix : suffix.head? ≠ some quote) :
    IsClosedAt (front ++ (form.opener.text ++ (parts.flatten ++ quote :: suffix))) front.length
      .interpolated parts.flatten
      (front.length + form.opener.text.length + parts.flatten.length) := by
  have hpasses := Interpolation.passes_flatten hparts
  have hdrop : (front ++ (form.opener.text ++ (parts.flatten ++ quote :: suffix))).drop front.length
      = form.opener.text ++ (parts.flatten ++ quote :: suffix) := List.drop_left
  rw [isClosedAt_iff_exists_opener, hdrop]
  refine ⟨form.opener, ?_, ?_, ?_, ?_⟩
  · cases form <;> rfl
  · apply Interpolation.read?_opener_append
    rintro rfl
    exact Interpolation.run_quote_le hpasses hsuffix
  · rw [List.drop_left]
    exact hpasses.read_eq (Interpolation.move_quote hsuffix)
  · have hcloser : form.opener.closer.length = 1 := by cases form <;> rfl
    rw [hcloser]

/-- A hole with quotes in it between two doubled braces. -/
theorem Literal.isClosedAt_interpolated_braces :
    (∀ part ∈ [Bytes.ofString "\x7b\x7b", Bytes.ofString "\x7bd[\"k\"]\x7d",
        Bytes.ofString "\x7d\x7d"], Interpolation.inLine.IsPart part) ∧
    [semicolon].head? ≠ some quote ∧
    IsClosedAt (Bytes.ofString "f($\"\x7b\x7b\x7bd[\"k\"]\x7d\x7d\x7d\";") 2 .interpolated
      (Bytes.ofString "\x7b\x7b\x7bd[\"k\"]\x7d\x7d\x7d") 16 := by
  have hbody : Interpolation.inLine.IsHoleBody (Bytes.ofString "d[\"k\"]") :=
    ⟨by decide, by decide, fun _ => by decide⟩
  have hparts : ∀ part ∈ [Bytes.ofString "\x7b\x7b", Bytes.ofString "\x7bd[\"k\"]\x7d",
      Bytes.ofString "\x7d\x7d"], Interpolation.inLine.IsPart part := by
    refine List.forall_mem_cons.mpr ⟨.text (.pair (.inl ⟨rfl, rfl⟩) .nil), ?_⟩
    refine List.forall_mem_cons.mpr ⟨.hole hbody, ?_⟩
    exact List.forall_mem_singleton.mpr (.text (.pair (.inl ⟨rfl, rfl⟩) .nil))
  have hsuffix : [semicolon].head? ≠ some quote := by decide
  exact ⟨hparts, hsuffix, isClosedAt_interpolated .inLine (Bytes.ofString "f(") hparts hsuffix⟩

end LogMarkup
