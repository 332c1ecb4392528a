import LogMarkup.Proofs.Checked.Walk
import LogMarkup.Proofs.Expression.Scanner

/-!
# `LogMarkup.Proofs.Checked.Expression` — expressions, offset by offset

An expression in a hole ends in front of the closing brace, and this is where its scanner has to stop.
Names and the look ahead for a call go by the whole text instead. They stop in time nonetheless, since no
name goes on over a brace, and no call starts with one.

## Contents
- `Checked.IsEnd`, the places where an expression may end.
- **Lexemes.** One definition for each sort of lexeme, with its equation, and `Checked.lexeme`.
- **Expressions.** `Checked.expression` and `Checked.expression_eq`.
-/

namespace LogMarkup.Checked

open Ascii

/-! ## Where an expression ends -/

/-- A place where an expression may end: the end of the text, or a closing brace. -/
structure IsEnd (text : Bytes) (limit : Nat) : Prop where
  isBoundary : Utf8.IsBoundary text limit
  eq_closeBrace : ∀ b, (text.drop limit).head? = some b → b = closeBrace

theorem IsEnd.length {text : Bytes} (hvalid : Utf8.isValid text = true) : IsEnd text text.length := by
  refine ⟨Utf8.isBoundary_length hvalid, ?_⟩
  intro b h
  rw [List.drop_length] at h
  exact absurd h (by simp)

namespace IsEnd

variable {text rest : Bytes} {limit offset : Nat} (hend : IsEnd text limit)

include hend

theorem le_length : limit ≤ text.length := hend.isBoundary.le_length

/-- A class without the closing brace stops at the end. -/
theorem eq_false_of_head {p : UInt8 → Bool} (hp : p closeBrace = false) :
    ∀ b, (text.drop limit).head? = some b → p b = false := by
  intro b hb
  rw [hend.eq_closeBrace b hb]
  exact hp

/-- The whole text behind an offset, in front of the end and behind it. -/
theorem drop_eq (h : (text.take limit).drop offset = rest) (hoffset : offset ≤ limit) :
    text.drop offset = rest ++ text.drop limit := by
  have hlength : offset ≤ (text.take limit).length := by
    rwa [List.length_take_of_le hend.le_length]
  rw [← h, ← List.drop_append_of_le_length hlength, List.take_append_drop]

/-- A run of a class without the closing brace may be followed in the whole text. -/
theorem runEnd_eq {p : UInt8 → Bool} (hp : p closeBrace = false)
    (h : (text.take limit).drop offset = rest) (hoffset : offset ≤ limit) :
    runEnd p text text.length offset = .ok (offset + (rest.takeWhile p).length) := by
  have hdrop := hend.drop_eq h hoffset
  rw [Checked.runEnd_eq (Nat.le_refl _) (by rw [List.take_length, hdrop]),
    Bytes.takeWhile_append_of_head (hend.eq_false_of_head hp)]

/-- What is behind such a run in the whole text. -/
theorem drop_run {p : UInt8 → Bool} {b : UInt8} (hp : p closeBrace = false)
    (h : (text.take limit).drop offset = b :: rest) :
    text.drop (offset + (b :: rest.takeWhile p).length) = rest.dropWhile p ++ text.drop limit := by
  have hdrop : text.drop offset = b :: (rest ++ text.drop limit) :=
    hend.drop_eq h (Nat.le_of_lt (Bytes.lt_of_take_drop h))
  have hclass := hend.eq_false_of_head hp
  have hword := Bytes.drop_word p hdrop
  rwa [Bytes.takeWhile_append_of_head hclass, Bytes.dropWhile_append_of_head hclass] at hword

/-- What stands in front of the end stands there in the whole text, too. -/
theorem isAsciiHead {part : Bytes} (h : (text.take limit).drop offset = rest)
    (hpart : part.IsAsciiHead rest) : part.IsAsciiHead (text.drop offset) := by
  cases rest with
  | nil => exact absurd (List.prefix_nil.mp hpart.isPrefix) hpart.ne_nil
  | cons b rest =>
      rw [hend.drop_eq h (Nat.le_of_lt (Bytes.lt_of_take_drop h))]
      exact hpart.append _

/-- The look ahead for a class without the closing brace does not get behind the end. -/
theorem any_ahead {p : UInt8 → Bool} {b : UInt8} (hp : p closeBrace = false)
    (h : (text.take limit).drop offset = b :: rest) :
    text[offset + 1]?.any p = rest.head?.any p := by
  have hdrop : text.drop offset = b :: (rest ++ text.drop limit) :=
    hend.drop_eq h (Nat.le_of_lt (Bytes.lt_of_take_drop h))
  rw [Bytes.getElem?_succ_of_drop_eq_cons hdrop]
  cases rest with
  | cons c rest => rfl
  | nil =>
      rw [List.nil_append]
      cases hhead : (text.drop limit).head? with
      | none => rfl
      | some c => exact hend.eq_false_of_head hp c hhead

end IsEnd

/-- No call starts with a closing brace. -/
theorem opensCall_append {behind : Bytes} (h : ∀ b, behind.head? = some b → b = closeBrace)
    (text : Bytes) : opensCall (text ++ behind) = opensCall text := by
  have hclass : ∀ b, behind.head? = some b → isSpaceOrTab b = false := by
    intro b hb
    rw [h b hb]
    decide
  unfold opensCall
  rw [Bytes.dropWhile_append_of_head hclass]
  cases text.dropWhile isSpaceOrTab with
  | cons b rest => rfl
  | nil =>
      cases behind with
      | nil => rfl
      | cons b behind =>
          rw [h b rfl]
          rfl

/-! ## Lexemes -/

/-- The token of the text between two offsets. -/
def tokenOf (text : Bytes) (kind : TokenKind) (start stop : Nat) : Checked Token := do
  let value ← cut text start stop
  pure ⟨kind, value, start, stop⟩

/-- A token of the text between two offsets, and the offset behind it. -/
def single (text : Bytes) (kind : TokenKind) (start stop : Nat) : Checked (List Token × Nat) := do
  let token ← tokenOf text kind start stop
  pure ([token], stop)

/-- Quoted text up to a limit. -/
def quoted (text : Bytes) (limit start : Nat) (closer : UInt8) : Checked (List Token × Nat) := do
  let (stop, closed) ← walk (fun state b rest => .ok (moveQuoted closer state b rest)) text limit ()
    (start + 1)
  let value ← cut text (start + 1) stop
  let behind := if closed then stop + 1 else stop
  pure ([⟨.string, value, start, behind⟩], behind)

/-- A number up to a limit. -/
def number (text : Bytes) (limit start : Nat) : Checked (List Token × Nat) := do
  let stop ← runEnd (fun c => isDigit c || c == dot) text limit start
  single text .number start stop

/-- A word up to a limit. -/
def word (text : Bytes) (limit start : Nat) : Checked (List Token × Nat) := do
  let identEnd ← runEnd isWord text text.length start
  let stop := min identEnd limit
  let name ← cut text start stop
  let kind := if isKeyword name then .logical
    else if opensCall (text.drop stop) then .function
    else .identifier
  single text kind start stop

/-- The name of something built in, behind its `@`. -/
def builtIn (text : Bytes) (start : Nat) : Checked (List Token × Nat) := do
  let stop ← runEnd isLower text text.length (start + 1)
  if start + 1 < stop then single text .builtIn start stop else pure ([], stop)

/-- A variable with its `$`. -/
def variableName (text : Bytes) (start : Nat) : Checked (List Token × Nat) := do
  let stop ← runEnd isWord text text.length (start + 1)
  single text .identifier start stop

/-- An operator up to a limit. -/
def operator (text : Bytes) (limit start : Nat) : Checked (List Token × Nat) := do
  let pair ← slice text start (if start + 1 < limit then start + 2 else start + 1)
  let width := match pair with
    | [b, c] => if Lexeme.isOperatorPair b c then 2 else 1
    | _ => 1
  let sign ← slice text start (start + width)
  let kind := match sign with
    | [b] => Lexeme.operatorKind b
    | _ => .comparison
  single text kind start (start + width)

/-- The tokens of what stands at an offset, and the offset behind it. -/
def lexeme (text : Bytes) (limit start : Nat) (b : UInt8) : Checked (List Token × Nat) :=
  if b = backslash then pure ([], start + 2)
  else if isQuote b then quoted text limit start b
  else if isDigit b then number text limit start
  else if isWordStart b then word text limit start
  else if b = atSign then builtIn text start
  else if b = dollar ∧ text[start + 1]?.any isWordStart then variableName text start
  else if Lexeme.isOperator b then operator text limit start
  else if Lexeme.isPunctuation b then single text .punctuation start (start + 1)
  else pure ([], start + 1)

/-- The tokens of a lexeme at an offset, and the offset behind it. -/
def taken (start : Nat) (lexeme : Lexeme) : List Token × Nat :=
  ((lexeme.token? start).toList, start + lexeme.width)

section

variable {text rest : Bytes} {limit start : Nat} {b : UInt8}

variable (hvalid : Utf8.isValid text = true)

include hvalid

/-- A piece of ASCII text may be cut out wherever it stands. -/
theorem cut_of_isAsciiHead {part : Bytes} (hpart : part.IsAsciiHead (text.drop start)) :
    cut text start (start + part.length) = .ok part := by
  have hstands : (Token.ofText .identifier start part).StandsIn text :=
    Token.standsIn_ofText hvalid rfl (by simp) hpart
  have hvalue := hstands.value_eq (by simp [Token.ofText])
  exact (cut_eq hstands.start_isBoundary hstands.stop_isBoundary (Nat.le_add_right _ _)).trans
    (congrArg Except.ok hvalue.symm)

theorem single_eq (kind : TokenKind) {part : Bytes} (hpart : part.IsAsciiHead (text.drop start)) :
    single text kind start (start + part.length) = .ok (taken start (.shown kind part)) := by
  simp only [single, tokenOf, cut_of_isAsciiHead hvalid hpart, ok_bind, pure_eq_ok]
  rfl

variable (hend : IsEnd text limit) (h : (text.take limit).drop start = b :: rest)

include hend h

/-- The walk over quoted text ends at its closing quote or at the end of the expression. -/
theorem isBoundary_quoted (hquote : isQuote b = true) :
    Utf8.IsBoundary text (start + 1 + (Enclosed.read (moveQuoted b) () rest).content.length) := by
  have hlt := Bytes.lt_of_take_drop h
  have hrest : (text.take limit).drop (start + 1) = rest :=
    Bytes.drop_add_of_drop_eq_cons h Nat.one_pos
  cases hclosed : (Enclosed.read (moveQuoted b) () rest).closed with
  | true =>
      obtain ⟨last, c, behind, hbehind, hmove⟩ := Enclosed.closes_of_closed hclosed
      obtain rfl := eq_closer_of_moveQuoted hmove
      have hcloser : (text.take limit).drop
          (start + 1 + (Enclosed.read (moveQuoted c) () rest).content.length) = c :: behind := by
        rw [← List.drop_drop, hrest]
        exact (congrArg (List.drop _) hbehind).trans List.drop_left
      exact Utf8.isBoundary_of_ascii hvalid (Bytes.getElem?_of_take_drop hcloser)
        (lt_of_isQuote hquote)
  | false =>
      rw [Enclosed.content_eq_of_open neverStops_moveQuoted hclosed,
        Bytes.add_length_of_take_drop hend.le_length hrest hlt]
      exact hend.isBoundary

theorem quoted_eq (hquote : isQuote b = true) : quoted text limit start b =
    .ok (taken start (.quoted (Enclosed.read (moveQuoted b) () rest))) := by
  have hlt := Bytes.lt_of_take_drop h
  have hrest : (text.take limit).drop (start + 1) = rest :=
    Bytes.drop_add_of_drop_eq_cons h Nat.one_pos
  have hbehind := isBoundary_quoted hvalid hend h hquote
  have hopening := Utf8.isBoundary_succ hvalid (Bytes.getElem?_of_take_drop h) (lt_of_isQuote hquote)
  have hwalk : walk (fun state c behind => .ok (moveQuoted b state c behind)) text limit () (start + 1)
      = .ok (start + 1 + (Enclosed.read (moveQuoted b) () rest).content.length,
        (Enclosed.read (moveQuoted b) () rest).closed) := by
    refine walk_eq (f := id) hend.le_length ?_ hrest hlt
    intro state c offset
    rw [Move.map_id]
    rfl
  have hvalue : cut text (start + 1)
      (start + 1 + (Enclosed.read (moveQuoted b) () rest).content.length)
        = .ok (Enclosed.read (moveQuoted b) () rest).content := by
    have hcontent : (Enclosed.read (moveQuoted b) () rest).content <+: text.drop (start + 1) := by
      rw [hend.drop_eq hrest hlt]
      exact (Enclosed.content_isPrefix () rest).trans (List.prefix_append _ _)
    rw [cut_eq hopening hbehind (Nat.le_add_right _ _), Bytes.extract_of_isPrefix hcontent]
  simp only [quoted, hwalk, hvalue, ok_bind, pure_eq_ok, taken, Lexeme.token?, Lexeme.width]
  cases (Enclosed.read (moveQuoted b) () rest).closed with
  | true =>
      simp only [if_true, Option.toList_some]
      rw [show ∀ n, start + 1 + n + 1 = start + (n + 2) by omega]
  | false =>
      simp only [Bool.false_eq_true, if_false, Option.toList_some]
      rw [show ∀ n, start + 1 + n = start + (n + 1) by omega]

theorem number_eq (hdigit : isDigit b = true) : number text limit start =
    .ok (taken start (.shown .number (b :: rest.takeWhile fun c => isDigit c || c == dot))) := by
  have hclass : ∀ c, (isDigit c || c == dot) = true → c < 0x80 := by
    intro c hc
    rcases Bool.or_eq_true_iff.mp hc with hdigit | hdot
    · exact lt_of_isDigit hdigit
    · rw [eq_of_beq hdot]
      decide
  have hpart := hend.isAsciiHead h (Bytes.isAsciiHead_takeWhile rest (lt_of_isDigit hdigit) hclass)
  rw [number, runEnd_eq hend.le_length h, ok_bind, List.takeWhile_cons_of_pos (by simp [hdigit])]
  exact single_eq hvalid .number hpart

theorem word_eq (hstart : isWordStart b = true) : word text limit start =
    .ok (taken start (Lexeme.word (b :: rest.takeWhile isWord) (rest.dropWhile isWord))) := by
  have hb : isWord b = true := by simp [isWord, hstart]
  have hlt := Bytes.lt_of_take_drop h
  have hpart := hend.isAsciiHead h
    (Bytes.isAsciiHead_takeWhile rest (lt_of_isWord hb) fun _ => lt_of_isWord)
  have hrun : runEnd isWord text text.length start
      = .ok (start + (b :: rest.takeWhile isWord).length) := by
    rw [hend.runEnd_eq (by decide) h (Nat.le_of_lt hlt), List.takeWhile_cons_of_pos hb]
  have hstop : start + (b :: rest.takeWhile isWord).length ≤ limit := by
    have hlength := Bytes.add_length_of_take_drop hend.le_length h (Nat.le_of_lt hlt)
    have htake : (rest.takeWhile isWord).length ≤ rest.length :=
      (List.takeWhile_prefix isWord).length_le
    rw [List.length_cons] at hlength ⊢
    omega
  have hbehind : text.drop (start + (b :: rest.takeWhile isWord).length)
      = rest.dropWhile isWord ++ text.drop limit := hend.drop_run (by decide) h
  simp only [word, hrun, ok_bind, min_eq_left hstop, cut_of_isAsciiHead hvalid hpart, hbehind,
    opensCall_append hend.eq_closeBrace, single_eq hvalid _ hpart, Lexeme.word]
  split
  · rfl
  · split <;> rfl

theorem builtIn_eq (hat : b = atSign) : builtIn text start =
    .ok (taken start (Lexeme.builtIn rest)) := by
  have hlt := Bytes.lt_of_take_drop h
  have hrest : (text.take limit).drop (start + 1) = rest :=
    Bytes.drop_add_of_drop_eq_cons h Nat.one_pos
  have hrun : runEnd isLower text text.length (start + 1)
      = .ok (start + 1 + (rest.takeWhile isLower).length) := hend.runEnd_eq (by decide) hrest hlt
  simp only [builtIn, hrun, ok_bind, Lexeme.builtIn]
  by_cases hletters : rest.takeWhile isLower = []
  · simp [hletters, taken, Lexeme.token?, Lexeme.width]
  · have hpos := List.length_pos_iff.mpr hletters
    have hpart := hend.isAsciiHead h
      (Bytes.isAsciiHead_takeWhile rest (hat ▸ by decide) fun _ => lt_of_isLower)
    have hstop : start + 1 + (rest.takeWhile isLower).length
        = start + (b :: rest.takeWhile isLower).length := by
      rw [List.length_cons]
      omega
    rw [if_neg hletters, if_pos (Nat.lt_add_of_pos_right hpos), hstop,
      single_eq hvalid .builtIn hpart, hat]

theorem variableName_eq (hdollar : b = dollar) : variableName text start =
    .ok (taken start (.shown .identifier (b :: rest.takeWhile isWord))) := by
  have hlt := Bytes.lt_of_take_drop h
  have hrest : (text.take limit).drop (start + 1) = rest :=
    Bytes.drop_add_of_drop_eq_cons h Nat.one_pos
  have hpart := hend.isAsciiHead h
    (Bytes.isAsciiHead_takeWhile rest (hdollar ▸ by decide) fun _ => lt_of_isWord)
  have hrun : runEnd isWord text text.length (start + 1)
      = .ok (start + (b :: rest.takeWhile isWord).length) := by
    rw [hend.runEnd_eq (by decide) hrest hlt, List.length_cons, Nat.add_assoc, Nat.add_comm 1]
  rw [variableName, hrun, ok_bind]
  exact single_eq hvalid .identifier hpart

theorem operator_eq (hoperator : Lexeme.isOperator b = true) : operator text limit start =
    .ok (taken start (Lexeme.operator b rest)) := by
  have hlt := Bytes.lt_of_take_drop h
  have hlength := Bytes.add_length_of_take_drop hend.le_length h (Nat.le_of_lt hlt)
  have hle := hend.le_length
  have hb := Lexeme.lt_of_isOperator hoperator
  have hdrop : text.drop start = b :: (rest ++ text.drop limit) := hend.drop_eq h (Nat.le_of_lt hlt)
  -- The first bytes of the operator are those of the list.
  have hslice : ∀ part : Bytes, part <+: b :: rest →
      slice text start (start + part.length) = .ok part := by
    intro part hpart
    have hpart' : part <+: text.drop start := by
      rw [hdrop]
      exact hpart.trans (List.prefix_append (b :: rest) _)
    have hpartLength := hpart.length_le
    rw [slice_eq (Nat.le_add_right _ _) (by omega), Bytes.extract_of_isPrefix hpart']
  have hone : slice text start (start + 1) = .ok [b] := hslice [b] (List.prefix_append [b] rest)
  have hsingle := single_eq hvalid (Lexeme.operatorKind b)
    (hend.isAsciiHead h (Bytes.isAsciiHead_singleton rest hb))
  cases rest with
  | nil =>
      have hlimit : ¬ start + 1 < limit := by
        rw [List.length_cons, List.length_nil] at hlength
        omega
      simp only [operator, if_neg hlimit, hone, ok_bind]
      exact hsingle
  | cons c rest =>
      have hlimit : start + 1 < limit := by
        rw [List.length_cons, List.length_cons] at hlength
        omega
      have htwo : slice text start (start + 2) = .ok [b, c] :=
        hslice [b, c] (List.prefix_append [b, c] rest)
      simp only [operator, if_pos hlimit, htwo, ok_bind, Lexeme.operator]
      by_cases hpair : Lexeme.isOperatorPair b c = true
      · simp only [if_pos hpair, htwo, ok_bind]
        exact single_eq hvalid .comparison (hend.isAsciiHead h
          (Bytes.isAsciiHead_pair rest hb (Lexeme.lt_of_isOperatorPair hpair)))
      · simp only [if_neg hpair, hone, ok_bind]
        exact hsingle

/-- **What stands at an offset is taken as in the list.** -/
theorem lexeme_eq : lexeme text limit start b = .ok (taken start (Lexeme.first b rest)) := by
  unfold lexeme Lexeme.first
  rw [hend.any_ahead (by decide) h]
  by_cases hbackslash : b = backslash
  · rw [if_pos hbackslash, if_pos hbackslash]
    rfl
  rw [if_neg hbackslash, if_neg hbackslash]
  by_cases hquote : isQuote b = true
  · rw [if_pos hquote, if_pos hquote]
    exact quoted_eq hvalid hend h hquote
  rw [if_neg hquote, if_neg hquote]
  by_cases hdigit : isDigit b = true
  · rw [if_pos hdigit, if_pos hdigit]
    exact number_eq hvalid hend h hdigit
  rw [if_neg hdigit, if_neg hdigit]
  by_cases hstart : isWordStart b = true
  · rw [if_pos hstart, if_pos hstart]
    exact word_eq hvalid hend h hstart
  rw [if_neg hstart, if_neg hstart]
  by_cases hat : b = atSign
  · rw [if_pos hat, if_pos hat]
    exact builtIn_eq hvalid hend h hat
  rw [if_neg hat, if_neg hat]
  by_cases hdollar : b = dollar ∧ rest.head?.any isWordStart = true
  · rw [if_pos hdollar, if_pos hdollar]
    exact variableName_eq hvalid hend h hdollar.1
  rw [if_neg hdollar, if_neg hdollar]
  by_cases hoperator : Lexeme.isOperator b = true
  · rw [if_pos hoperator, if_pos hoperator]
    exact operator_eq hvalid hend h hoperator
  rw [if_neg hoperator, if_neg hoperator]
  by_cases hmark : Lexeme.isPunctuation b = true
  · rw [if_pos hmark, if_pos hmark]
    exact single_eq hvalid .punctuation (hend.isAsciiHead h
      (Bytes.isAsciiHead_singleton rest (Lexeme.lt_of_isPunctuation hmark)))
  · rw [if_neg hmark, if_neg hmark]
    rfl

end

/-! ## Expressions -/

/-- Take what stands at an offset, and go on behind it. -/
def expressionTurn (text : Bytes) (limit : Nat) (tokens : List Token) (offset : Nat) :
    Checked (Turn (List Token) (List Token)) := do
  let b ← byteAt text offset
  let (more, next) ← lexeme text limit offset b
  pure (.next (tokens ++ more) next)

/-- The tokens of an expression from an offset up to a limit. -/
def expression (text : Bytes) (limit offset : Nat) : Checked (List Token) :=
  loop limit (expressionTurn text limit) (fun tokens _ => tokens) [] offset

/-- **An expression is read to its end.** -/
theorem expression_eq {text rest : Bytes} {limit offset : Nat} (hvalid : Utf8.isValid text = true)
    (hend : IsEnd text limit) (h : (text.take limit).drop offset = rest) :
    expression text limit offset = .ok (Expression.tokensFrom offset rest) := by
  have hloop : ∀ offset rest, ∀ tokens, (text.take limit).drop offset = rest →
      loop limit (expressionTurn text limit) (fun tokens _ => tokens) tokens offset
        = .ok (tokens ++ Expression.tokensFrom offset rest) := by
    intro offset rest
    fun_induction Expression.tokensFrom offset rest with
    | case1 offset =>
        intro tokens h
        rw [loop_of_le (Bytes.le_of_take_drop hend.le_length h), List.append_nil]
    | case2 offset b rest lexeme ih =>
        intro tokens h
        have hpos : 0 < lexeme.width := (Lexeme.fits_first b rest).width_pos
        have hturn : expressionTurn text limit tokens offset = .ok
            (.next (tokens ++ (lexeme.token? offset).toList) (offset + lexeme.width)) := by
          simp only [expressionTurn, byteAt_eq (Bytes.getElem?_of_take_drop h),
            lexeme_eq hvalid hend h, ok_bind]
          rfl
        rw [loop_of_next (Bytes.lt_of_take_drop h) hturn (Nat.lt_add_of_pos_right hpos),
          ih _ (Bytes.drop_add_of_drop_eq_cons h hpos), List.append_assoc]
  exact hloop offset rest [] h

end LogMarkup.Checked
