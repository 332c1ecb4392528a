import LogMarkup.Proofs.Call.Extent
import LogMarkup.Proofs.Checked.Statement
import LogMarkup.Proofs.Checked.Window

/-!
# `LogMarkup.Proofs.Checked.Call` — where calls end, offset by offset

The walk over the code of a call steps over literals, character literals and comments, and it looks
ahead for the end of each of them. A byte that was found ahead is read once more where it was found.

## Contents
- **Items.** `Checked.characterStop`, `Checked.commentStop` and `Checked.semicolonStop`, each with its
  equation.
- **The end.** `Checked.balanceTurn` and `Checked.balanceTurnOf`, by which the item at an offset decides;
  `Checked.callEnd?`, with `Checked.callEnd?_eq`.
- **Calls.** `Checked.callAt` and `Checked.calls`, each with its equation.
-/

namespace LogMarkup.Checked

open Ascii

/-! ## Items -/

/-- The offset of the apostrophe that ends a character literal, if nothing else than its escape is in front
    of it. -/
def closingApostrophe? (text : Bytes) (start limit : Nat) : Checked (Option Nat) :=
  if start ≤ limit then
    match (text.extract start limit).findIdx? fun b => b == apostrophe || b == lineFeed with
    | none => pure none
    | some found => do
      let b ← byteAt text (start + found)
      pure (if b = apostrophe then some (start + found) else none)
  else pure none

/-- The offset behind the character literal with its apostrophe at an offset, or behind the apostrophe
    alone. -/
def characterStop (text : Bytes) (opening : Nat) : Checked Nat :=
  if text[opening + 1]? = some backslash then do
    let limit := min (opening + 2 + CodeItem.escapeReach) text.length
    let closing ← closingApostrophe? text (opening + 3) limit
    pure (match closing with
      | none => opening + 1
      | some closing => closing + 1)
  else if text[opening + 1]?.any (· != lineFeed) ∧ text[opening + 2]? = some apostrophe then
    pure (opening + 3)
  else pure (opening + 1)

/-- The offset of the line feed behind a comment, or the end of the text. -/
def commentStop (text : Bytes) (opening : Nat) : Checked Nat := do
  let comment ← slice text opening text.length
  pure (match comment.findIdx? (· == lineFeed) with
    | none => text.length
    | some found => opening + found)

/-- The offset behind the semicolon that follows an offset, or else the offset itself. -/
def semicolonStop (text : Bytes) (offset : Nat) : Checked Nat := do
  let behind ← slice text offset text.length
  match behind.findIdx? fun b => !isSpace b with
  | none => pure offset
  | some found => do
    let b ← byteAt text (offset + found)
    pure (if b = semicolon then offset + found + 1 else offset)

theorem closingApostrophe?_eq {text escaped : Bytes} {start limit : Nat}
    (h : text.extract start limit = escaped) :
    let body := escaped.takeWhile fun c => c != apostrophe && c != lineFeed
    closingApostrophe? text start limit =
      .ok (if escaped[body.length]? = some apostrophe then some (start + body.length) else none) := by
  intro body
  have hclass : (fun c => c != apostrophe && c != lineFeed)
      = fun c : UInt8 => !(c == apostrophe || c == lineFeed) := by
    funext c
    rw [Bool.not_or]
    rfl
  have hcases := Bytes.findIdx?_cases (fun c => c == apostrophe || c == lineFeed) escaped
  rw [← hclass] at hcases
  unfold closingApostrophe?
  rw [h]
  by_cases hlimit : start ≤ limit
  · rw [if_pos hlimit]
    rcases hcases with ⟨hfind, hall⟩ | ⟨c, hfind, hc⟩
    · have hnone : escaped[body.length]? = none := by
        rw [show body = escaped from hall, List.getElem?_length]
      rw [hfind, hnone]
      rfl
    · have hbyte : text[start + body.length]? = some c := Bytes.getElem?_of_extract h hc
      rw [hfind, show escaped[body.length]? = some c from hc]
      simp only [body, byteAt_eq hbyte, ok_bind, pure_eq_ok, Option.some_inj]
  · have hnil : escaped = [] := by
      rw [← h, List.extract_eq_take_drop, Nat.sub_eq_zero_of_le (by omega), List.take_zero]
    rw [if_neg hlimit, hnil]
    rfl

/-- The bytes that may be in a character literal behind a backslash, by offsets in the text. -/
theorem extract_escape {text more : Bytes} {opening : Nat} (h : text.drop (opening + 2) = more)
    (hlength : opening + 2 + more.length = text.length) :
    text.extract (opening + 3) (min (opening + 2 + CodeItem.escapeReach) text.length)
      = (more.take CodeItem.escapeReach).drop 1 := by
  have hcount : min (opening + 2 + CodeItem.escapeReach) text.length - (opening + 3)
      = min (CodeItem.escapeReach - 1) (more.drop 1).length := by
    rw [List.length_drop]
    omega
  rw [List.extract_eq_take_drop, hcount, List.drop_take, ← h, List.drop_drop,
    ← List.take_eq_take_min]

theorem characterStop_eq {text rest : Bytes} {opening : Nat} {b : UInt8}
    (h : text.drop opening = b :: rest) :
    characterStop text opening = .ok (opening + CodeItem.characterWidth rest) := by
  have hlength := Bytes.length_of_drop_eq_cons h
  have hbehind : text.drop (opening + 2) = rest.drop 1 :=
    Bytes.drop_add_of_drop_eq_cons h Nat.two_pos
  unfold characterStop
  rw [Bytes.getElem?_succ_of_drop_eq_cons h, ← List.head?_drop (i := opening + 2), hbehind]
  cases rest with
  | nil => rfl
  | cons c more =>
      rw [List.drop_one, List.tail_cons] at hbehind ⊢
      rw [List.length_cons] at hlength
      rw [CodeItem.characterWidth, List.head?_cons]
      by_cases hslash : c = backslash
      · rw [if_pos (congrArg some hslash), if_pos hslash]
        simp only [closingApostrophe?_eq (extract_escape hbehind (by omega)), ok_bind, pure_eq_ok]
        split_ifs
        · exact congrArg Except.ok (by dsimp only; omega)
        · rfl
      · rw [if_neg fun hc => hslash (Option.some.inj hc), if_neg hslash]
        by_cases hclose : c ≠ lineFeed ∧ more.head? = some apostrophe
        · rw [if_pos hclose, if_pos (by simpa using hclose)]
          rfl
        · rw [if_neg hclose, if_neg (by simpa using hclose)]
          rfl

theorem commentStop_eq {text rest : Bytes} {opening : Nat} {b : UInt8}
    (h : text.drop opening = b :: rest) (hb : b ≠ lineFeed) :
    commentStop text opening = .ok (opening + ((rest.takeWhile (· != lineFeed)).length + 1)) := by
  have hlength := Bytes.length_of_drop_eq_cons h
  have hhead : (b :: rest).takeWhile (fun c => !(c == lineFeed))
      = b :: rest.takeWhile (· != lineFeed) := List.takeWhile_cons_of_pos (by simp [hb])
  rw [commentStop, slice_length (Nat.le_of_lt (Bytes.lt_of_drop_eq_cons h)), h, ok_bind]
  rcases Bytes.findIdx?_cases (· == lineFeed) (b :: rest) with ⟨hfind, hall⟩ | ⟨c, hfind, -⟩
  · rw [hhead, List.cons_inj_right] at hall
    rw [hfind, hall, ← Nat.add_assoc, hlength]
    rfl
  · rw [hfind, hhead]
    rfl

theorem semicolonStop_eq {text : Bytes} {offset : Nat} (hoffset : offset ≤ text.length) :
    semicolonStop text offset = .ok (withSemicolon text offset) := by
  have hhead : ((text.drop offset).dropWhile isSpace).head?
      = (text.drop offset)[((text.drop offset).takeWhile isSpace).length]? := by
    rw [← Bytes.drop_length_takeWhile, List.head?_drop]
  have hcases := Bytes.findIdx?_cases (fun b => !isSpace b) (text.drop offset)
  simp only [Bool.not_not] at hcases
  rw [semicolonStop, withSemicolon, slice_length hoffset, ok_bind, hhead]
  rcases hcases with ⟨hfind, hall⟩ | ⟨c, hfind, hc⟩
  · rw [hfind, hall, List.getElem?_length]
    rfl
  · have hbyte := byteAt_eq (List.getElem?_drop.symm.trans hc)
    simp only [hfind, hbyte, hc, ok_bind, pure_eq_ok, Option.some_inj]

/-! ## The end -/

/-- Count a parenthesis, or step over an item. The state has the numbers of parentheses that were opened
    and closed. -/
def balanceTurn (text : Bytes) (trigger : Nat) (counts : Nat × Nat) (offset : Nat) :
    Checked (Turn (Nat × Nat) (Option Nat)) := do
  let b ← byteAt text offset
  if isSign b then
    match ← literalAt? text offset with
    | some literal => pure (.next counts literal.stop)
    | none => pure (.next counts (offset + 1))
  else if b = apostrophe then do
    let stop ← characterStop text offset
    pure (.next counts stop)
  else if b = slash ∧ text[offset + 1]? = some slash then do
    let stop ← commentStop text offset
    pure (.next counts stop)
  else if b = openParen then pure (.next (counts.1 + 1, counts.2) (offset + 1))
  else if b = closeParen then
    if trigger ≤ offset ∧ 0 < counts.1 ∧ counts.1 ≤ counts.2 + 1 then do
      let stop ← semicolonStop text (offset + 1)
      pure (.done (some stop))
    else pure (.next (counts.1, counts.2 + 1) (offset + 1))
  else pure (.next counts (offset + 1))

/-- The offset where a call ends that is recognised at the offset `trigger`, if it is balanced. -/
def callEnd? (text : Bytes) (trigger : Nat) : Checked (Option Nat) :=
  loop text.length (balanceTurn text trigger) (fun _ _ => none) (0, 0) 0

/-- What a turn at an item is meant to do. -/
def balanceTurnOf (text : Bytes) (trigger : Nat) (counts : Nat × Nat) (offset : Nat)
    (item : CodeItem) : Turn (Nat × Nat) (Option Nat) :=
  let opened := if item.kind = .plain openParen then counts.1 + 1 else counts.1
  let closed := if item.kind = .plain closeParen then counts.2 + 1 else counts.2
  if item.kind = .plain closeParen ∧ trigger ≤ offset ∧ 0 < opened ∧ opened ≤ closed then
    .done (some (withSemicolon text (offset + 1)))
  else .next (opened, closed) (offset + item.width)

section

variable {text rest : Bytes} {offset : Nat} {b : UInt8}

/-- Everything but a parenthesis is stepped over. -/
theorem balanceTurnOf_of_ne (trigger : Nat) (counts : Nat × Nat) {item : CodeItem}
    (hopen : ¬ item.kind = .plain openParen) (hclose : ¬ item.kind = .plain closeParen) :
    balanceTurnOf text trigger counts offset item = .next counts (offset + item.width) := by
  simp only [balanceTurnOf, if_neg hopen, hclose, false_and, if_false]

/-- A byte that is neither a sign nor the start of an item of its own counts as a parenthesis if it is
    one. -/
theorem balanceTurn_plain (trigger : Nat) (counts : Nat × Nat) (h : text.drop offset = b :: rest)
    (hsign : ¬ isSign b = true) (hapostrophe : ¬ b = apostrophe)
    (hcomment : ¬ (b = slash ∧ rest.head? = some slash)) :
    balanceTurn text trigger counts offset
      = .ok (balanceTurnOf text trigger counts offset ⟨.plain b, 1⟩) := by
  have hlt := Bytes.lt_of_drop_eq_cons h
  simp only [balanceTurn, byteAt_eq (Bytes.getElem?_of_drop_eq_cons h),
    Bytes.getElem?_succ_of_drop_eq_cons h, ok_bind, semicolonStop_eq hlt]
  rw [if_neg hsign, if_neg hapostrophe, if_neg hcomment]
  simp only [balanceTurnOf, CodeKind.plain.injEq]
  by_cases hopen : b = openParen
  · have hclose : ¬ b = closeParen := by
      rw [hopen]
      decide
    simp only [if_pos hopen, hclose, false_and, if_false]
    rfl
  rw [if_neg hopen, if_neg hopen]
  by_cases hclose : b = closeParen
  · simp only [hclose, if_true, true_and]
    split <;> rfl
  · simp only [hclose, false_and, if_false]
    rfl

variable (hvalid : Utf8.isValid text = true)

include hvalid

/-- **What a turn does is decided by the item at the offset.** -/
theorem balanceTurn_eq (trigger : Nat) (counts : Nat × Nat) (h : text.drop offset = b :: rest) :
    balanceTurn text trigger counts offset
      = .ok (balanceTurnOf text trigger counts offset (CodeItem.first b rest)) := by
  have hb := Bytes.getElem?_of_drop_eq_cons h
  have hread : Literal.at? text offset
      = (Literal.read? 0 (b :: rest)).map fun literal => { literal with start := offset } := by
    rw [Literal.at?, h, Literal.read?_eq_map]
  cases hliteral : Literal.read? 0 (b :: rest) with
  | some literal =>
      have hitem : CodeItem.first b rest = ⟨.literal, literal.width⟩ := by
        simp only [CodeItem.first, hliteral]
      rw [hliteral, Option.map_some] at hread
      rw [hitem, balanceTurnOf_of_ne trigger counts (by simp) (by simp)]
      simp only [balanceTurn, byteAt_eq hb, literalAt?_eq hvalid, ok_bind, hread,
        if_pos (isSign_of_at? hb hread)]
      rfl
  | none =>
      rw [hliteral, Option.map_none] at hread
      by_cases hsign : isSign b = true
      · -- A sign that starts no literal is plain, and is no parenthesis.
        have hne : ∀ c, isSign c = false → ¬ b = c := by
          rintro c hc rfl
          exact absurd hsign (by rw [hc]; exact Bool.false_ne_true)
        have hitem : CodeItem.first b rest = ⟨.plain b, 1⟩ := by
          simp only [CodeItem.first, hliteral, if_neg (hne apostrophe rfl), hne slash rfl, false_and,
            if_false]
        have hopen := hne openParen rfl
        have hclose := hne closeParen rfl
        rw [hitem, balanceTurnOf_of_ne trigger counts (by simpa using hopen) (by simpa using hclose)]
        simp only [balanceTurn, byteAt_eq hb, literalAt?_eq hvalid, ok_bind, hread, if_pos hsign]
        rfl
      by_cases hapostrophe : b = apostrophe
      · have hitem : CodeItem.first b rest = ⟨.character, CodeItem.characterWidth rest⟩ := by
          simp only [CodeItem.first, hliteral, if_pos hapostrophe]
        rw [hitem, balanceTurnOf_of_ne trigger counts (by simp) (by simp)]
        simp only [balanceTurn, byteAt_eq hb, ok_bind, characterStop_eq h]
        rw [if_neg hsign, if_pos hapostrophe]
        rfl
      by_cases hcomment : b = slash ∧ rest.head? = some slash
      · have hitem : CodeItem.first b rest
            = ⟨.comment, (rest.takeWhile (· != lineFeed)).length + 1⟩ := by
          simp only [CodeItem.first, hliteral, if_neg hapostrophe, if_pos hcomment]
        have hfeed : b ≠ lineFeed := by
          rw [hcomment.1]
          decide
        rw [hitem, balanceTurnOf_of_ne trigger counts (by simp) (by simp)]
        simp only [balanceTurn, byteAt_eq hb, Bytes.getElem?_succ_of_drop_eq_cons h, ok_bind,
          commentStop_eq h hfeed]
        rw [if_neg hsign, if_neg hapostrophe, if_pos hcomment]
        rfl
      · have hitem : CodeItem.first b rest = ⟨.plain b, 1⟩ := by
          simp only [CodeItem.first, hliteral, if_neg hapostrophe, if_neg hcomment]
        rw [hitem]
        exact balanceTurn_plain trigger counts h hsign hapostrophe hcomment

theorem callEnd?_eq (trigger : Nat) :
    callEnd? text trigger = .ok (LogMarkup.callEnd? text trigger) := by
  have hloop : ∀ opened closed start rest, text.drop start = rest →
      loop text.length (balanceTurn text trigger) (fun _ _ => none) (opened, closed) start
        = .ok ((balance trigger opened closed start rest).map (withSemicolon text)) := by
    intro opened closed start rest h
    fun_induction balance trigger opened closed start rest with
    | case1 opened closed start => exact loop_of_le (List.drop_eq_nil_iff.mp h)
    | case2 opened closed start b rest item opened' closed' hclose =>
        have hturn := balanceTurn_eq hvalid trigger (opened, closed) h
        have hdone := hturn.trans (congrArg Except.ok (if_pos hclose))
        exact loop_of_done (Bytes.lt_of_drop_eq_cons h) hdone
    | case3 opened closed start b rest item opened' closed' hclose ih =>
        have hturn := balanceTurn_eq hvalid trigger (opened, closed) h
        have hpos := CodeItem.width_first_pos b rest
        have hnext := hturn.trans (congrArg Except.ok (if_neg hclose))
        rw [loop_of_next (Bytes.lt_of_drop_eq_cons h) hnext (Nat.lt_add_of_pos_right hpos)]
        exact ih (Bytes.drop_add_of_drop_eq_cons h hpos)
  exact hloop 0 0 0 text rfl

end

/-! ## Calls -/

/-- The call around the line `trigger`, not above the line `floor`. -/
def callAt (document : Document) (limits : Limits) (trigger floor : Nat) : Checked Span := do
  let startLine ← callStart document limits trigger floor
  let window ← windowOf document startLine (trigger + limits.callLines)
  let line := document.line startLine
  let column ← sub line.length line.unindented.length
  let stop ← callEnd? window.text ((window.lineStart? trigger).getD 0)
  pure ⟨⟨startLine, column⟩, window.position (stop.getD window.text.length)⟩

/-- The calls on lines of a document, of which the first one has the number `n`, and of which those
    above the line `free` belong to calls that are known. -/
def callsFrom (document : Document) (config : Config) (free n : Nat) :
    List Bytes → Checked (List Span)
  | [] => pure []
  | line :: lines =>
    if free ≤ n ∧ config.shapes.accepts line then do
      let call ← callAt document config.limits n free
      let calls ← callsFrom document config (call.stop.line + 1) (n + 1) lines
      pure (call :: calls)
    else callsFrom document config free (n + 1) lines

/-- The calls with templates in a document, from top to bottom. -/
def calls (document : Document) (config : Config) : Checked (List Span) :=
  callsFrom document config 0 0 document.lines

section

variable {document : Document} (hlines : ∀ line ∈ document.lines, Utf8.isValid line = true)

include hlines

theorem callAt_eq (limits : Limits) (trigger floor : Nat) :
    callAt document limits trigger floor = .ok (LogMarkup.callAt document limits trigger floor) := by
  have hcolumn : ∀ line : Bytes, sub line.length line.unindented.length = .ok line.indentation := by
    intro line
    have hle := line.indentation_le_length
    have hlength : line.unindented.length = line.length - line.indentation := List.length_drop
    rw [hlength, sub_eq (Nat.sub_le _ _), Nat.sub_sub_self hle]
  have hend := fun first last trigger => callEnd?_eq (Window.isValid_text hlines first last) trigger
  simp only [callAt, callStart_eq hlines, windowOf_eq, hcolumn, hend, ok_bind, pure_eq_ok]
  rfl

theorem callsFrom_eq (config : Config) (free n : Nat) (lines : List Bytes) :
    callsFrom document config free n lines
      = .ok (LogMarkup.callsFrom document config free n lines) := by
  fun_induction LogMarkup.callsFrom document config free n lines with
  | case1 free n => rfl
  | case2 free n line lines haccepts call ih =>
      rw [callsFrom, if_pos haccepts, callAt_eq hlines, ok_bind, ih, ok_bind]
      rfl
  | case3 free n line lines haccepts ih => rw [callsFrom, if_neg haccepts, ih]

/-- **The search for calls comes to the end of every document.** -/
theorem calls_eq (config : Config) :
    calls document config = .ok (LogMarkup.calls document config) :=
  callsFrom_eq hlines config 0 0 document.lines

end

end LogMarkup.Checked
