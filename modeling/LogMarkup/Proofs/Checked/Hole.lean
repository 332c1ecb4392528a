import LogMarkup.Proofs.Checked.ClosingBrace
import LogMarkup.Proofs.Checked.Expression

/-!
# `LogMarkup.Proofs.Checked.Hole` — the holes of expression templates, offset by offset

What is in a hole is read up to its closing brace, which is a limit that no read crosses: a name ends
there, too, since it has no brace in it.

## Contents
- **The body.** `Checked.formatTail`, `Checked.alignmentTail` and `Checked.holeTail` for what may stand behind
  a name; `Checked.bodyTokens`, with `Checked.bodyTokens_eq`.
- **The hole.** `Checked.hole` and `Checked.hole_eq`.
-/

namespace LogMarkup.Checked

open Ascii

/-! ## The body -/

/-- The byte at an offset, if this is in front of a limit. -/
def byteBefore? (text : Bytes) (limit offset : Nat) : Checked (Option UInt8) :=
  if offset < limit then do
    let b ← byteAt text offset
    pure (some b)
  else pure none

/-- What may stand behind a name and its alignment: a format, or an expression. -/
def formatTail (text : Bytes) (limit offset : Nat) : Checked (List Token) := do
  let b ← byteBefore? text limit offset
  if b = some colon then do
    let mark ← tokenOf text .punctuation offset (offset + 1)
    if offset + 1 < limit then do
      let format ← tokenOf text .format (offset + 1) limit
      pure [mark, format]
    else pure [mark]
  else expression text limit offset

/-- The end of a number, which may have a sign. -/
def widthEnd (text : Bytes) (limit start : Nat) : Checked Nat := do
  let sign ← byteBefore? text limit start
  runEnd isDigit text limit (if sign = some plus ∨ sign = some minus then start + 1 else start)

/-- The width behind the comma of an alignment, and what is behind it. -/
def alignmentTail (text : Bytes) (limit offset : Nat) : Checked (List Token) := do
  let start ← runEnd isSpace text limit offset
  let stop ← widthEnd text limit start
  let behind ← runEnd isSpace text limit stop
  let tail ← formatTail text limit behind
  if start < stop then do
    let number ← tokenOf text .number start stop
    pure (number :: tail)
  else pure tail

/-- What may stand behind a name. -/
def holeTail (text : Bytes) (limit offset : Nat) : Checked (List Token) := do
  let start ← runEnd isSpace text limit offset
  let b ← byteBefore? text limit start
  if b = some comma then do
    let mark ← tokenOf text .punctuation start (start + 1)
    let tail ← alignmentTail text limit (start + 1)
    pure (mark :: tail)
  else formatTail text limit start

/-- Directives that may stand alone. -/
def bareDirectives : List Bytes := ["end", "else", "delimit"].map Bytes.ofString

/-- A directive and the expression behind it. -/
def directive (text : Bytes) (limit start : Nat) : Checked (List Token) := do
  let stop ← runEnd isLetter text limit (start + 1)
  let token ← tokenOf text .directive start stop
  let name ← cut text (start + 1) stop
  if bareDirectives.contains name ∧ stop = limit then pure [token]
  else do
    let tail ← expression text limit stop
    pure (token :: tail)

/-- A name and what is behind it. -/
def namedTail (text : Bytes) (limit : Nat) (name : List Token × Nat) : Checked (List Token) := do
  let tail ← holeTail text limit name.2
  pure (name.1 ++ tail)

/-- A name and what is behind it, or the expression that starts with the name if this is called. -/
def wordTail (text : Bytes) (limit start : Nat) : Checked (List Token) := do
  let nameEnd ← runEnd isWord text text.length start
  if opensCall (text.drop nameEnd) then expression text limit start
  else do
    let name ← single text .identifier start nameEnd
    namedTail text limit name

/-- The tokens of the body of a hole, which starts at an offset. -/
def bodyTokens (text : Bytes) (limit start : Nat) : Checked (List Token) :=
  match text[start]? with
  | none => expression text limit start
  | some b =>
    if b = hash then directive text limit start
    else if b = atSign then do
      let name ← builtIn text start
      namedTail text limit name
    else if b = dollar ∧ text[start + 1]?.any isWordStart then do
      let name ← variableName text start
      namedTail text limit name
    else if isWord b then wordTail text limit start
    else expression text limit start

section

variable {text rest : Bytes} {limit offset : Nat}

theorem byteBefore?_eq (hlimit : limit ≤ text.length) (h : (text.take limit).drop offset = rest) :
    byteBefore? text limit offset = .ok rest.head? := by
  unfold byteBefore?
  cases rest with
  | nil =>
      rw [if_neg (Nat.not_lt.mpr (Bytes.le_of_take_drop hlimit h))]
      rfl
  | cons b rest =>
      rw [if_pos (Bytes.lt_of_take_drop h), byteAt_eq (Bytes.getElem?_of_take_drop h)]
      rfl

theorem widthEnd_eq (hlimit : limit ≤ text.length) (h : (text.take limit).drop offset = rest) :
    widthEnd text limit offset = .ok (offset + (Expression.width rest).length) := by
  simp only [widthEnd, byteBefore?_eq hlimit h, ok_bind]
  cases rest with
  | nil => exact runEnd_eq hlimit h
  | cons b rest =>
      simp only [List.head?_cons, Option.some.injEq, Expression.width]
      by_cases hsign : b = plus ∨ b = minus
      · rw [if_pos hsign, if_pos hsign,
          runEnd_eq hlimit (Bytes.drop_add_of_drop_eq_cons h Nat.one_pos)]
        simp only [List.length_cons, Nat.add_assoc, Nat.add_comm 1]
        rfl
      · rw [if_neg hsign, if_neg hsign]
        exact runEnd_eq hlimit h

variable (hvalid : Utf8.isValid text = true)

include hvalid

theorem tokenOf_eq (kind : TokenKind) {part : Bytes} (hpart : part.IsAsciiHead (text.drop offset)) :
    tokenOf text kind offset (offset + part.length) = .ok (Token.ofText kind offset part) := by
  rw [tokenOf, cut_of_isAsciiHead hvalid hpart]
  rfl

variable (hend : IsEnd text limit) (h : (text.take limit).drop offset = rest)

include hend h

theorem formatTail_eq : formatTail text limit offset
    = .ok (Expression.formatTokens offset rest) := by
  simp only [formatTail, byteBefore?_eq hend.le_length h, ok_bind, expression_eq hvalid hend h]
  cases rest with
  | nil => simp [Expression.formatTokens, Expression.tokensFrom]
  | cons b rest =>
      by_cases hcolon : b = colon
      · have hb : b < 0x80 := hcolon ▸ (by decide)
        have hlt := Bytes.lt_of_take_drop h
        have hrest : (text.take limit).drop (offset + 1) = rest :=
          Bytes.drop_add_of_drop_eq_cons h Nat.one_pos
        have hlength := Bytes.add_length_of_take_drop hend.le_length hrest hlt
        have hmark : tokenOf text .punctuation offset (offset + 1) = .ok (Token.mark offset b) :=
          tokenOf_eq hvalid .punctuation (hend.isAsciiHead h (Bytes.isAsciiHead_singleton rest hb))
        have hhead : (b :: rest).head? = some colon := congrArg some hcolon
        simp only [Expression.formatTokens, if_pos hhead, if_pos hcolon, hmark, ok_bind]
        by_cases hne : rest = []
        · rw [hne, List.length_nil] at hlength
          rw [if_neg (by omega), if_pos hne]
          rfl
        · have hpos := List.length_pos_iff.mpr hne
          have hstart := Utf8.isBoundary_succ hvalid (Bytes.getElem?_of_take_drop h) hb
          have hformat : tokenOf text .format (offset + 1) limit
              = .ok (Token.ofText .format (offset + 1) rest) := by
            rw [tokenOf, cut_eq hstart hend.isBoundary hlt, List.extract_eq_take_drop,
              ← List.drop_take, hrest, Token.ofText, hlength]
            rfl
          rw [if_pos (by omega), if_neg hne, hformat]
          rfl
      · have hhead : ¬ (b :: rest).head? = some colon := fun heq => hcolon (Option.some.inj heq)
        rw [if_neg hhead, Expression.formatTokens, if_neg hcolon]

theorem alignmentTail_eq : alignmentTail text limit offset
    = .ok (Expression.alignmentTokens offset rest) := by
  unfold Expression.alignmentTokens
  extract_lets blanks number behind blanksBehind
  have hstart : (text.take limit).drop (offset + blanks) = rest.drop blanks := by
    rw [← List.drop_drop, h]
  have hstop : (text.take limit).drop (offset + blanks + number.length) = behind := by
    rw [← List.drop_drop, hstart]
    exact List.drop_drop
  have hbehind : (text.take limit).drop (offset + blanks + number.length + blanksBehind)
      = behind.drop blanksBehind := by
    rw [← List.drop_drop, hstop]
  have hrun : runEnd isSpace text limit offset = .ok (offset + blanks) :=
    runEnd_eq hend.le_length h
  have hwidth : widthEnd text limit (offset + blanks) = .ok (offset + blanks + number.length) :=
    widthEnd_eq hend.le_length hstart
  have hrunBehind : runEnd isSpace text limit (offset + blanks + number.length)
      = .ok (offset + blanks + number.length + blanksBehind) := runEnd_eq hend.le_length hstop
  simp only [alignmentTail, hrun, hwidth, hrunBehind, formatTail_eq hvalid hend hbehind, ok_bind]
  by_cases hne : number = []
  · rw [hne, if_pos rfl, if_neg (by simp)]
    rfl
  · have hpos := List.length_pos_iff.mpr hne
    have hpart := hend.isAsciiHead hstart (Expression.isAsciiHead_width hne)
    rw [if_neg hne, if_pos (Nat.lt_add_of_pos_right hpos), tokenOf_eq hvalid .number hpart]
    rfl

theorem holeTail_eq : holeTail text limit offset
    = .ok (Expression.tailTokens offset rest) := by
  unfold Expression.tailTokens
  extract_lets blanks
  have hstart : (text.take limit).drop (offset + blanks) = rest.drop blanks := by
    rw [← List.drop_drop, h]
  have hrun : runEnd isSpace text limit offset = .ok (offset + blanks) :=
    runEnd_eq hend.le_length h
  simp only [holeTail, hrun, byteBefore?_eq hend.le_length hstart, formatTail_eq hvalid hend hstart,
    ok_bind]
  cases hrest : rest.drop blanks with
  | nil => rfl
  | cons b behind =>
      rw [hrest] at hstart
      by_cases hcomma : b = comma
      · have hb : b < 0x80 := hcomma ▸ (by decide)
        have hmark : tokenOf text .punctuation (offset + blanks) (offset + blanks + 1)
            = .ok (Token.mark (offset + blanks) b) :=
          tokenOf_eq hvalid .punctuation
            (hend.isAsciiHead hstart (Bytes.isAsciiHead_singleton behind hb))
        have hbehind := alignmentTail_eq hvalid hend
          (Bytes.drop_add_of_drop_eq_cons hstart Nat.one_pos)
        simp only [List.head?_cons, hcomma, if_true]
        rw [← hcomma, hmark, ok_bind, hbehind]
        rfl
      · have hhead : ¬ (b :: behind).head? = some comma := fun heq => hcomma (Option.some.inj heq)
        rw [if_neg hhead]
        simp only [if_neg hcomma]

theorem directive_eq {behind : Bytes} (hhash : rest = hash :: behind) : directive text limit offset
    = .ok (Expression.bodyTokens offset rest) := by
  subst hhash
  have hb := Bytes.getElem?_of_take_drop h
  have hrest : (text.take limit).drop (offset + 1) = behind :=
    Bytes.drop_add_of_drop_eq_cons h Nat.one_pos
  have hpart := hend.isAsciiHead h
    (Bytes.isAsciiHead_takeWhile behind (b := hash) (by decide) fun _ => lt_of_isLetter)
  have hrun : runEnd isLetter text limit (offset + 1)
      = .ok (offset + (hash :: behind.takeWhile isLetter).length) := by
    rw [runEnd_eq hend.le_length hrest, List.length_cons, Nat.add_assoc, Nat.add_comm 1]
  have hstop : Utf8.IsBoundary text (offset + (hash :: behind.takeWhile isLetter).length) :=
    (Token.standsIn_ofText hvalid rfl (show TokenKind.directive ≠ .string by simp)
      hpart).stop_isBoundary
  have hname := cut_eq (Utf8.isBoundary_succ hvalid hb (by decide)) hstop
    (Nat.add_le_add_left (Nat.succ_pos _) offset)
  have hdrop : (text.take limit).drop (offset + (hash :: behind.takeWhile isLetter).length)
      = behind.dropWhile isLetter := Bytes.drop_word isLetter h
  simp only [directive, hrun, tokenOf_eq hvalid .directive hpart, hname, ok_bind,
    expression_eq hvalid hend hdrop, Expression.bodyTokens, if_true]
  split
  · next hbare =>
      -- A directive that stands alone has nothing behind it.
      have hnil : behind.dropWhile isLetter = [] := by
        rw [← hdrop, hbare.2]
        exact List.drop_eq_nil_iff.mpr (List.length_take_le _ _)
      rw [hnil, Expression.tokensFrom]
      rfl
  · rfl

theorem namedTail_eq {name : List Token} : namedTail text limit (name, offset)
    = .ok (name ++ Expression.tailTokens offset rest) := by
  rw [namedTail, holeTail_eq hvalid hend h]
  rfl

omit h in
/-- The name of something built in, which may be empty, and what is behind it. -/
theorem builtInTail_eq {b : UInt8} (h : (text.take limit).drop offset = b :: rest) (hat : b = atSign) :
    (builtIn text offset).bind (namedTail text limit) =
      .ok (if rest.head?.any isLower then
          Expression.namedTokens .builtIn offset (b :: rest.takeWhile isLower) (rest.dropWhile isLower)
        else Expression.tailTokens (offset + 1) rest) := by
  have hrest : (text.take limit).drop (offset + 1) = rest :=
    Bytes.drop_add_of_drop_eq_cons h Nat.one_pos
  rw [builtIn_eq hvalid hend h hat, Lexeme.builtIn]
  cases rest with
  | nil => exact namedTail_eq hvalid hend hrest
  | cons c rest =>
      by_cases hc : isLower c = true
      · have hbehind : (text.take limit).drop (offset + (b :: (c :: rest).takeWhile isLower).length)
            = (c :: rest).dropWhile isLower := Bytes.drop_word isLower h
        have hne : ¬ (c :: rest).takeWhile isLower = [] := by
          rw [List.takeWhile_cons_of_pos hc]
          exact List.cons_ne_nil _ _
        have hhead : (c :: rest).head?.any isLower = true := hc
        simp only [if_neg hne, if_pos hhead, ← hat]
        exact namedTail_eq hvalid hend hbehind
      · have hnil : (c :: rest).takeWhile isLower = [] := List.takeWhile_cons_of_neg hc
        have hhead : ¬ (c :: rest).head?.any isLower = true := hc
        simp only [hnil, if_true, if_neg hhead]
        exact namedTail_eq hvalid hend hrest

variable (hoffset : offset ≤ limit)

include hoffset

omit h in
/-- A name and what is behind it, unless the name is that of a call. -/
theorem wordTail_eq {b : UInt8} (h : (text.take limit).drop offset = b :: rest)
    (hword : isWord b = true) :
    wordTail text limit offset =
      .ok (if opensCall (rest.dropWhile isWord) then Expression.tokensFrom offset (b :: rest)
        else Expression.namedTokens .identifier offset (b :: rest.takeWhile isWord)
          (rest.dropWhile isWord)) := by
  have hbehind : (text.take limit).drop (offset + (b :: rest.takeWhile isWord).length)
      = rest.dropWhile isWord := Bytes.drop_word isWord h
  have hdrop : text.drop (offset + (b :: rest.takeWhile isWord).length)
      = rest.dropWhile isWord ++ text.drop limit := hend.drop_run (by decide) h
  have hrun : runEnd isWord text text.length offset
      = .ok (offset + (b :: rest.takeWhile isWord).length) := by
    rw [hend.runEnd_eq (by decide) h hoffset, List.takeWhile_cons_of_pos hword]
  have hpart := hend.isAsciiHead h
    (Bytes.isAsciiHead_takeWhile rest (lt_of_isWord hword) fun _ => lt_of_isWord)
  rw [wordTail, hrun, ok_bind, hdrop, opensCall_append hend.eq_closeBrace]
  by_cases hcall : opensCall (rest.dropWhile isWord) = true
  · rw [if_pos hcall, if_pos hcall, expression_eq hvalid hend h]
  · rw [if_neg hcall, if_neg hcall, single_eq hvalid .identifier hpart, ok_bind]
    exact namedTail_eq hvalid hend hbehind

/-- **The body of a hole is read to its end.** -/
theorem bodyTokens_eq : bodyTokens text limit offset
    = .ok (Expression.bodyTokens offset rest) := by
  unfold bodyTokens
  cases rest with
  | nil =>
      -- Behind the end there is a closing brace at most, and it starts nothing.
      have hlength := Bytes.add_length_of_take_drop hend.le_length h hoffset
      have hget : text[offset]? = (text.drop limit).head? := by
        rw [← hlength, List.length_nil, Nat.add_zero, List.head?_drop]
      rw [hget, expression_eq hvalid hend h, Expression.tokensFrom, Expression.bodyTokens]
      cases hhead : (text.drop limit).head? with
      | none => rfl
      | some b =>
          have hword : ¬ isWord closeBrace = true := by decide
          have hhash : ¬ closeBrace = hash := by decide
          have hat : ¬ closeBrace = atSign := by decide
          have hdollar : ¬ closeBrace = dollar := by decide
          simp only [hend.eq_closeBrace b hhead, hhash, hat, hdollar, hword, false_and, if_false]
          rfl
  | cons b rest =>
      rw [Bytes.getElem?_of_take_drop h, Expression.bodyTokens]
      simp only [hend.any_ahead (show isWordStart closeBrace = false by decide) h]
      by_cases hhash : b = hash
      · rw [if_pos hhash, directive_eq hvalid hend h (congrArg (· :: rest) hhash),
          Expression.bodyTokens, if_pos hhash]
      rw [if_neg hhash, if_neg hhash]
      by_cases hat : b = atSign
      · rw [if_pos hat, if_pos hat]
        exact builtInTail_eq hvalid hend h hat
      rw [if_neg hat, if_neg hat]
      by_cases hdollar : b = dollar ∧ rest.head?.any isWordStart = true
      · have hbehind : (text.take limit).drop (offset + (b :: rest.takeWhile isWord).length)
            = rest.dropWhile isWord := Bytes.drop_word isWord h
        rw [if_pos hdollar, if_pos hdollar, variableName_eq hvalid hend h hdollar.1, ok_bind]
        exact namedTail_eq hvalid hend hbehind
      rw [if_neg hdollar, if_neg hdollar]
      by_cases hword : isWord b = true
      · rw [if_pos hword, wordTail_eq hvalid hend hoffset h hword]
        by_cases hcall : opensCall (rest.dropWhile isWord) = true
        · rw [if_pos hcall, if_neg (by simp [hcall])]
        · rw [if_neg hcall, if_pos ⟨hword, hcall⟩]
      · rw [if_neg hword, if_neg (fun hboth => hword hboth.1), expression_eq hvalid hend h]

end

/-! ## The hole -/

/-- The tokens of the hole that opens at an offset, and the offset behind it. -/
def hole (text : Bytes) (opening : Nat) : Checked (List Token × Nat) := do
  let closing ← matchingBrace text opening
  let mark ← tokenOf text .punctuation opening (opening + 1)
  let body ← bodyTokens text (closing.getD text.length) (opening + 1)
  match closing with
  | some closing => do
    let last ← tokenOf text .punctuation closing (closing + 1)
    pure (mark :: (body ++ [last]), closing + 1)
  | none => pure (mark :: body, text.length)

/-- A brace is cut out wherever it stands. -/
theorem tokenOf_brace {text rest : Bytes} {offset : Nat} {b : UInt8}
    (hvalid : Utf8.isValid text = true) (h : text.drop offset = b :: rest) (hb : b < 0x80) :
    tokenOf text .punctuation offset (offset + 1) = .ok (Token.mark offset b) := by
  have hpart : Bytes.IsAsciiHead [b] (text.drop offset) := by
    rw [h]
    exact Bytes.isAsciiHead_singleton rest hb
  exact tokenOf_eq hvalid .punctuation hpart

/-- Behind the body of a hole that is closed stands its closing brace. -/
theorem exists_drop_of_closed {text rest : Bytes} {start : Nat} (h : text.drop start = rest)
    (hclosed : (Expression.hole rest).closed = true) :
    ∃ behind, text.drop (start + (Expression.hole rest).content.length) = closeBrace :: behind := by
  obtain ⟨last, b, behind, hbehind, hmove⟩ := Enclosed.closes_of_closed hclosed
  obtain rfl := Expression.eq_closeBrace_of_moveHole hmove
  refine ⟨behind, ?_⟩
  rw [← List.drop_drop, h]
  exact (congrArg (List.drop _) hbehind).trans List.drop_left

/-- **A hole is read up to its closing brace, or else to the end.** -/
theorem hole_eq {text rest : Bytes} {opening : Nat} (hvalid : Utf8.isValid text = true)
    (h : text.drop opening = openBrace :: rest) : hole text opening =
      let body := Expression.hole rest
      let stop := opening + 1 + body.content.length
      .ok (Token.mark opening openBrace :: (Expression.bodyTokens (opening + 1) body.content
          ++ if body.closed then [Token.mark stop closeBrace] else []),
        if body.closed then stop + 1 else text.length) := by
  have hrest : text.drop (opening + 1) = rest := Bytes.drop_add_of_drop_eq_cons h Nat.one_pos
  have hmark := tokenOf_brace hvalid h (by decide)
  simp only [hole, matchingBrace_eq h, hmark, ok_bind, closingOf]
  cases hclosed : (Expression.hole rest).closed with
  | true =>
      obtain ⟨behind, hdrop⟩ := exists_drop_of_closed hrest hclosed
      have hend : IsEnd text (opening + 1 + (Expression.hole rest).content.length) := by
        refine ⟨Utf8.isBoundary_of_ascii hvalid (Bytes.getElem?_of_drop_eq_cons hdrop) (by decide), ?_⟩
        intro b hb
        rw [hdrop] at hb
        exact (Option.some.inj hb).symm
      have hbody : (text.take (opening + 1 + (Expression.hole rest).content.length)).drop (opening + 1)
          = (Expression.hole rest).content := by
        rw [List.drop_take, Nat.add_sub_cancel_left, hrest]
        exact (List.prefix_iff_eq_take.mp (Enclosed.content_isPrefix _ rest)).symm
      simp only [if_true, Option.getD_some, bodyTokens_eq hvalid hend hbody (Nat.le_add_right _ _),
        tokenOf_brace hvalid hdrop (by decide), ok_bind, pure_eq_ok]
  | false =>
      have hcontent : (Expression.hole rest).content = rest :=
        Enclosed.content_eq_of_open Expression.neverStops_moveHole hclosed
      have hbody : (text.take text.length).drop (opening + 1) = rest := by
        rw [List.take_length, hrest]
      simp only [Bool.false_eq_true, if_false, Option.getD_none,
        bodyTokens_eq hvalid (IsEnd.length hvalid) hbody (Bytes.lt_of_drop_eq_cons h), ok_bind,
        pure_eq_ok, hcontent, List.append_nil]

end LogMarkup.Checked
