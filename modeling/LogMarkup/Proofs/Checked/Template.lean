import LogMarkup.Proofs.Checked.Hole

/-!
# `LogMarkup.Proofs.Checked.Template` — expression templates, offset by offset

Outside of holes only brackets are looked at. Whether a bracket indexes something is seen from the byte in
front of it, and brackets that do not are passed over by a walk that counts them, the first one included:
the count is never zero where a bracket closes.

## Contents
- **Brackets.** `Checked.followsIndex` and `Checked.bracketStop`, each with its equation.
- **Templates.** `Checked.template` and `Checked.template_eq`.
- **Contents.** `Checked.tokens` and `Checked.regions`, in a mode and in the mode that suits the content.
-/

namespace LogMarkup

open Ascii

/-! ## Brackets -/

/-- The last byte of a beginning of the text, seen from an offset in front of it. -/
theorem Bytes.getLast?_take_add {text rest : Bytes} {b : UInt8} {start : Nat}
    (h : text.drop start = b :: rest) (n : Nat) :
    (text.take (start + 1 + n)).getLast? = (rest.take n).getLast?.or (some b) := by
  rw [Nat.add_assoc, Nat.add_comm 1, List.take_add, h, List.take_succ_cons, List.getLast?_append,
    List.getLast?_cons]
  cases (rest.take n).getLast? <;> rfl

theorem Expression.plainWidth_pos (b : UInt8) (rest : Bytes) : 0 < plainWidth b rest := by
  unfold plainWidth
  dsimp only
  split_ifs <;> omega

namespace Checked

/-- Whether a bracket at an offset would index something. -/
def followsIndex (text : Bytes) (offset : Nat) : Checked Bool :=
  if 0 < offset then do
    let before ← sub offset 1
    let b ← byteAt text before
    pure (isWord b || b == closeBracket)
  else pure false

theorem followsIndex_eq {text : Bytes} {offset : Nat} (h : offset ≤ text.length) :
    followsIndex text offset = .ok (Expression.isIndexed (text.take offset).getLast?) := by
  unfold followsIndex
  cases offset with
  | zero => rfl
  | succ offset =>
      have hbyte : byteAt text offset = .ok text[offset] :=
        byteAt_eq (List.getElem?_eq_getElem h)
      have hsub : sub (offset + 1) 1 = .ok offset := sub_eq (Nat.succ_pos offset)
      have hlast : (text.take (offset + 1)).getLast? = some text[offset] := by
        rw [List.take_succ_eq_append_getElem h, List.getLast?_concat]
      rw [if_pos (Nat.succ_pos offset), hsub, ok_bind, hbyte, hlast]
      rfl

/-- The walk over brackets, of which one more is open than brackets are nested. -/
def moveBrackets (depth : Nat) (b : UInt8) (rest : Bytes) : Checked (Move Nat) :=
  if b = backslash then pure (.pair depth)
  else if b = openBrace then
    pure (if rest.head? = some openBrace then .pair depth else .stopBefore)
  else if b = openBracket then pure (.single (depth + 1))
  else if b = closeBracket then do
    let depth ← sub depth 1
    pure (if depth = 0 then .close else .single depth)
  else pure (.single depth)

/-- The offset behind the plain text in brackets that opens at an offset, or that of a hole in it. -/
def bracketStop (text : Bytes) (opening : Nat) : Checked Nat := do
  let (stop, closed) ← walk moveBrackets text text.length 0 opening
  pure (if closed then stop + 1 else stop)

theorem moveBrackets_eq (depth : Nat) (b : UInt8) (rest : Bytes) :
    moveBrackets (depth + 1) b rest = .ok ((moveBracketed depth b rest).map (· + 1)) := by
  have hsub : sub (depth + 1) 1 = .ok depth := sub_eq (Nat.succ_pos depth)
  unfold moveBrackets moveBracketed
  by_cases hbackslash : b = backslash
  · rw [if_pos hbackslash, if_pos hbackslash]
    rfl
  rw [if_neg hbackslash, if_neg hbackslash]
  by_cases hopen : b = openBrace
  · rw [if_pos hopen, if_pos hopen]
    split <;> rfl
  rw [if_neg hopen, if_neg hopen]
  by_cases hbracket : b = openBracket
  · rw [if_pos hbracket, if_pos hbracket]
    rfl
  rw [if_neg hbracket, if_neg hbracket]
  by_cases hclose : b = closeBracket
  · rw [if_pos hclose, if_pos hclose, hsub, ok_bind]
    cases depth <;> rfl
  · rw [if_neg hclose, if_neg hclose]
    rfl

theorem bracketStop_eq {text rest : Bytes} {opening : Nat}
    (h : text.drop opening = openBracket :: rest) (hlook : ¬ rest.head? = some openBrace) :
    bracketStop text opening = .ok (opening + Expression.plainWidth openBracket rest) := by
  have hlt := Bytes.lt_of_drop_eq_cons h
  have hrest : (text.take text.length).drop (opening + 1) = rest := by
    rw [List.take_length]
    exact Bytes.drop_add_of_drop_eq_cons h Nat.one_pos
  have hturn : walkTurn moveBrackets text 0 opening = .ok (.next 1 (opening + 1)) := by
    rw [walkTurn, byteAt_eq (Bytes.getElem?_of_drop_eq_cons h)]
    rfl
  have hwalk : walk moveBrackets text text.length 0 opening
      = .ok (opening + 1 + (Enclosed.read moveBracketed 0 rest).content.length,
        (Enclosed.read moveBracketed 0 rest).closed) := by
    rw [walk, loop_of_next hlt hturn (Nat.lt_succ_self _)]
    refine walk_eq (f := (· + 1)) (Nat.le_refl _) ?_ hrest hlt
    intro depth b offset
    rw [List.take_length]
    exact moveBrackets_eq depth b _
  have hwidth : Expression.plainWidth openBracket rest
      = (Enclosed.read moveBracketed 0 rest).content.length
        + if (Enclosed.read moveBracketed 0 rest).closed then 2 else 1 := by
    rw [Expression.plainWidth, if_neg (by decide), if_neg fun hbrace => absurd hbrace.1 (by decide)]
    exact if_pos ⟨rfl, hlook⟩
  rw [bracketStop, hwalk, hwidth]
  simp only [ok_bind, pure_eq_ok]
  cases (Enclosed.read moveBracketed 0 rest).closed with
  | true => exact congrArg Except.ok (by simp only [if_true]; omega)
  | false => exact congrArg Except.ok (by simp only [Bool.false_eq_true, if_false]; omega)

/-! ## Templates -/

/-- Take a bracket that indexes something. -/
def indexMark (text : Bytes) (tokens : List Token) (offset : Nat) :
    Checked (Turn (List Token) (List Token)) := do
  let mark ← tokenOf text .punctuation offset (offset + 1)
  pure (.next (tokens ++ [mark]) (offset + 1))

/-- Take a hole or a bracket, or go on behind plain text. -/
def templateTurn (text : Bytes) (tokens : List Token) (offset : Nat) :
    Checked (Turn (List Token) (List Token)) := do
  let b ← byteAt text offset
  let ahead := text[offset + 1]?
  if b = backslash then pure (.next tokens (offset + 2))
  else if isBrace b ∧ ahead = some b then pure (.next tokens (offset + 2))
  else if b = openBrace then do
    let (more, next) ← hole text offset
    pure (.next (tokens ++ more) next)
  else if b = openBracket then do
    let indexed ← followsIndex text offset
    if indexed then indexMark text tokens offset
    else if ahead = some openBrace then pure (.next tokens (offset + 1))
    else do
      let stop ← bracketStop text offset
      pure (.next tokens stop)
  else if b = closeBracket then do
    let indexed ← followsIndex text offset
    if indexed then indexMark text tokens offset else pure (.next tokens (offset + 1))
  else pure (.next tokens (offset + 1))

/-- The tokens of a template. -/
def template (text : Bytes) : Checked (List Token) :=
  loop text.length (templateTurn text) (fun tokens _ => tokens) [] 0

section

variable {text : Bytes} (hvalid : Utf8.isValid text = true)

include hvalid

theorem indexMark_eq (tokens : List Token) {rest : Bytes} {offset : Nat} {b : UInt8}
    (h : text.drop offset = b :: rest) (hb : b < 0x80) :
    indexMark text tokens offset
      = .ok (.next (tokens ++ [Token.mark offset b]) (offset + 1)) := by
  rw [indexMark, tokenOf_brace hvalid h hb]
  rfl

/-- A turn at a hole takes all of it. -/
theorem templateTurn_of_isHoleStart (tokens : List Token) {rest : Bytes} {offset : Nat}
    (h : text.drop offset = openBrace :: rest) (hlook : ¬ rest.head? = some openBrace) :
    templateTurn text tokens offset =
      let body := Expression.hole rest
      let stop := offset + 1 + body.content.length
      .ok (.next
        (tokens ++ Token.mark offset openBrace :: (Expression.bodyTokens (offset + 1) body.content
          ++ if body.closed then [Token.mark stop closeBrace] else []))
        (if body.closed then stop + 1 else text.length)) := by
  have hslash : ¬ openBrace = backslash := by decide
  have hdouble : ¬ (isBrace openBrace = true ∧ rest.head? = some openBrace) :=
    fun hboth => hlook hboth.2
  simp only [templateTurn, byteAt_eq (Bytes.getElem?_of_drop_eq_cons h),
    Bytes.getElem?_succ_of_drop_eq_cons h, hole_eq hvalid h, ok_bind]
  rw [if_neg hslash, if_neg hdouble, if_pos trivial]
  rfl

/-- A turn at anything else takes a bracket that indexes something, or passes over plain text. -/
theorem templateTurn_of_not_isHoleStart (tokens : List Token) {rest : Bytes} {offset : Nat} {b : UInt8}
    (h : text.drop offset = b :: rest) (hhole : ¬ Expression.isHoleStart b rest = true) :
    templateTurn text tokens offset =
      if (b = openBracket ∨ b = closeBracket) ∧ Expression.isIndexed (text.take offset).getLast? then
        .ok (.next (tokens ++ [Token.mark offset b]) (offset + 1))
      else .ok (.next tokens (offset + Expression.plainWidth b rest)) := by
  have hindexed := followsIndex_eq (Nat.le_of_lt (Bytes.lt_of_drop_eq_cons h))
  simp only [templateTurn, byteAt_eq (Bytes.getElem?_of_drop_eq_cons h),
    Bytes.getElem?_succ_of_drop_eq_cons h, ok_bind, hindexed, pure_eq_ok]
  by_cases hslash : b = backslash
  · subst hslash
    rw [if_pos rfl, if_neg fun hboth => absurd hboth.1 (by decide), Expression.plainWidth, if_pos rfl]
  rw [if_neg hslash]
  by_cases hdouble : isBrace b = true ∧ rest.head? = some b
  · have hbracket : ¬ (b = openBracket ∨ b = closeBracket) := by
      rintro (rfl | rfl)
      · exact absurd hdouble.1 (by decide)
      · exact absurd hdouble.1 (by decide)
    rw [if_pos hdouble, if_neg fun hboth => hbracket hboth.1, Expression.plainWidth, if_neg hslash,
      if_pos hdouble]
  rw [if_neg hdouble]
  have hopen : ¬ b = openBrace := by
    rintro rfl
    exact hhole (by simpa [Expression.isHoleStart, isBrace] using hdouble)
  rw [if_neg hopen]
  by_cases hbracket : b = openBracket
  · subst hbracket
    rw [if_pos rfl]
    by_cases hindex : Expression.isIndexed (text.take offset).getLast? = true
    · rw [if_pos hindex, if_pos ⟨.inl rfl, hindex⟩, indexMark_eq hvalid tokens h (by decide)]
    rw [if_neg hindex, if_neg (c := _ ∧ _) fun hboth => hindex hboth.2]
    by_cases hlook : rest.head? = some openBrace
    · rw [if_pos hlook, Expression.plainWidth, if_neg hslash, if_neg hdouble,
        if_neg fun hboth => hboth.2 hlook]
    · rw [if_neg hlook, bracketStop_eq h hlook]
      rfl
  rw [if_neg hbracket]
  have hwidth : Expression.plainWidth b rest = 1 := by
    rw [Expression.plainWidth, if_neg hslash, if_neg hdouble, if_neg fun hboth => hbracket hboth.1]
  by_cases hclose : b = closeBracket
  · subst hclose
    rw [if_pos rfl, hwidth]
    by_cases hindex : Expression.isIndexed (text.take offset).getLast? = true
    · rw [if_pos hindex, if_pos ⟨.inr rfl, hindex⟩, indexMark_eq hvalid tokens h (by decide)]
    · rw [if_neg hindex, if_neg fun hboth => hindex hboth.2]
  · rw [if_neg hclose, if_neg fun hboth => hboth.1.elim hbracket hclose, hwidth]

/-- **A template is read to its end.** -/
theorem template_eq : template text = .ok (Expression.templateTokens text) := by
  -- What stands behind an offset decides whether a bracket there indexes something.
  have hloop : ∀ before rest {start : Nat} (tokens : List Token), text.drop start = rest →
      (text.take start).getLast? = before →
      loop text.length (templateTurn text) (fun tokens _ => tokens) tokens start
        = .ok (tokens ++ Expression.templateTokensFrom before start rest) := by
    intro before rest start
    fun_induction Expression.templateTokensFrom before start rest with
    | case1 before start =>
        intro tokens h _
        rw [List.append_nil]
        exact loop_of_le (List.drop_eq_nil_iff.mp h)
    | case2 before start b rest hhole body stop ih =>
        intro tokens h hbefore
        obtain ⟨rfl, hlook⟩ : b = openBrace ∧ ¬ rest.head? = some openBrace := by
          simpa [Expression.isHoleStart] using hhole
        have hturn := templateTurn_of_isHoleStart hvalid tokens h hlook
        have hlt := Bytes.lt_of_drop_eq_cons h
        have hrest : text.drop (start + 1) = rest := Bytes.drop_add_of_drop_eq_cons h Nat.one_pos
        simp only [body, stop] at ih ⊢
        cases hclosed : (Expression.hole rest).closed with
        | true =>
            obtain ⟨behind, hdrop⟩ := exists_drop_of_closed hrest hclosed
            have hbehind : text.drop (start + 1 + (Expression.hole rest).content.length + 1)
                = rest.drop ((Expression.hole rest).content.length + 1) := by
              rw [← hrest, List.drop_drop]
              rfl
            simp only [hclosed, if_true] at hturn ⊢
            rw [loop_of_next hlt hturn (by omega), ih _ hbehind (Bytes.getLast?_take_add hdrop 0)]
            simp only [List.append_assoc, List.cons_append, List.nil_append]
        | false =>
            simp only [hclosed, Bool.false_eq_true, if_false, List.append_nil] at hturn ⊢
            rw [loop_of_next hlt hturn hlt, loop_of_le (Nat.le_refl _)]
    | case3 before start b rest hhole hindex ih =>
        intro tokens h hbefore
        have hturn := templateTurn_of_not_isHoleStart hvalid tokens h hhole
        rw [hbefore, if_pos hindex] at hturn
        rw [loop_of_next (Bytes.lt_of_drop_eq_cons h) hturn (Nat.lt_succ_self _),
          ih _ (Bytes.drop_add_of_drop_eq_cons h Nat.one_pos) (Bytes.getLast?_take_add h 0),
          List.append_assoc]
        rfl
    | case4 before start b rest hhole hindex more ih =>
        intro tokens h hbefore
        have hturn := templateTurn_of_not_isHoleStart hvalid tokens h hhole
        have hwidth : start + Expression.plainWidth b rest = start + 1 + more := by
          have hpos := Expression.plainWidth_pos b rest
          omega
        rw [hbefore, if_neg hindex, hwidth] at hturn
        have hrest : text.drop (start + 1 + more) = rest.drop more := by
          rw [Nat.add_assoc, Nat.add_comm 1]
          exact Bytes.drop_add_of_drop_eq_cons h (Nat.succ_pos more)
        rw [loop_of_next (Bytes.lt_of_drop_eq_cons h) hturn (by omega)]
        exact ih tokens hrest (Bytes.getLast?_take_add h more)
  exact hloop none text [] rfl rfl

end

/-! ## Contents -/

/-- The tokens of a text in a mode. -/
def tokens (text : Bytes) : Mode → Checked (List Token)
  | .template => template text
  | .expression => expression text text.length 0

/-- The classified regions of a text, read in the mode that suits it. -/
def regions (text : Bytes) : Checked (List Region) := do
  let suited ← mode text
  let found ← tokens text suited
  pure (Region.ofTokens found)

section

variable {text : Bytes} (hvalid : Utf8.isValid text = true)

include hvalid

theorem tokens_eq (mode : Mode) : tokens text mode = .ok (mode.tokens text) := by
  cases mode with
  | template => exact template_eq hvalid
  | expression => exact expression_eq hvalid (IsEnd.length hvalid) (List.take_length ..)

theorem regions_eq : regions text = .ok (Expression.regions text) := by
  simp only [regions, mode_eq, tokens_eq hvalid, ok_bind, pure_eq_ok]
  rfl

end

end Checked

end LogMarkup
