import LogMarkup.Call.Extent
import LogMarkup.Proofs.Literal.Layout
import LogMarkup.Proofs.Source.Window
import LogMarkup.Proofs.Text.Indentation
import LogMarkup.Proofs.Text.Slice

/-!
# `LogMarkup.Proofs.Call.Extent` — the extent of one call

A call is looked for around the line by which it was recognised. Its start is on that line or a few
lines above it, but never above the floor, and its end is on that line or below it, in the window that
the bounds allow. A call that is closed ends behind a parenthesis, which is not blank, so that even a
call on a single line does not end in front of its start.

## Contents
- **The start.** `climb_le`, `le_climb`, `climb_congr` and `callStart_bounds`; `climb_eq` and
  `callStart_eq`, for the line where the climb ends.
- **The end.** `CodeItem.first_cases` and `CodeItem.width_first_le`; `balance_of_closes` and
  `balance_of_not_closes`, one step of the walk over the items; `exists_of_balance`, the parenthesis that it
  has found, and `callEnd?_bounds`.
- **Calls.** `callWindow`, `callOrigin` and `callStop`, the parts of a call by name, with `callAt_eq` and
  `callStop_cases`; `Span.LiesIn` and `callAt_bounds`; `callAt_lines`, which holds for all bounds.
-/

namespace LogMarkup

open Ascii

/-! ## The start -/

theorem climb_le (document : Document) (lowest line : Nat) : climb document lowest line ≤ line := by
  induction line with
  | zero => exact Nat.le_refl 0
  | succ line ih =>
      rw [climb]
      split
      · exact ih.trans (Nat.le_succ line)
      · exact Nat.le_refl _

theorem le_climb (document : Document) {lowest line : Nat} (h : lowest ≤ line) :
    lowest ≤ climb document lowest line := by
  induction line with
  | zero => exact h
  | succ line ih =>
      rw [climb]
      split
      · next hclimb => exact ih hclimb.1
      · exact h

/-- No statement ends on the lines that are climbed over. -/
theorem closesStatement_of_climb_le {document : Document} {lowest line n : Nat}
    (hle : climb document lowest line ≤ n) (hlt : n < line) :
    closesStatement (document.line n) = false := by
  induction line with
  | zero => exact absurd hlt (Nat.not_lt_zero n)
  | succ line ih =>
      rw [climb] at hle
      split at hle
      · next hclimb =>
          rcases Nat.lt_or_eq_of_le (Nat.le_of_lt_succ hlt) with hbelow | rfl
          · exact ih hle hbelow
          · exact hclimb.2
      · exact absurd hlt (Nat.not_lt.mpr hle)

/-- The climb ends at the lowest line, or below the end of a statement. -/
theorem climb_eq {document : Document} {lowest line start : Nat} (hlowest : lowest ≤ start)
    (hle : start ≤ line)
    (hopen : ∀ n, start ≤ n → n < line → closesStatement (document.line n) = false)
    (hstop : start = lowest ∨ closesStatement (document.line (start - 1)) = true) :
    climb document lowest line = start := by
  induction line with
  | zero => exact (Nat.le_zero.mp hle).symm
  | succ line ih =>
      rw [climb]
      rcases Nat.lt_or_eq_of_le hle with hlt | rfl
      · have hline := hopen line (Nat.le_of_lt_succ hlt) (Nat.lt_succ_self line)
        rw [if_pos ⟨hlowest.trans (Nat.le_of_lt_succ hlt), hline⟩]
        exact ih (Nat.le_of_lt_succ hlt) fun n hn hlt' => hopen n hn (Nat.lt_succ_of_lt hlt')
      · refine if_neg ?_
        rintro ⟨hreach, hclose⟩
        rcases hstop with rfl | hend
        · exact absurd hreach (Nat.not_succ_le_self line)
        · rw [Nat.add_sub_cancel, hclose] at hend
          exact absurd hend (by simp)

/-- The climb reads no lines but those that it may climb to. -/
theorem climb_congr {first second : Document} {lowest line : Nat}
    (h : ∀ n, lowest ≤ n → n < line → first.line n = second.line n) :
    climb first lowest line = climb second lowest line := by
  induction line with
  | zero => rfl
  | succ line ih =>
      rw [climb, climb, ih fun n hn hlt => h n hn (Nat.lt_succ_of_lt hlt)]
      by_cases hreach : lowest ≤ line
      · rw [h line hreach (Nat.lt_succ_self line)]
      · rw [if_neg (fun hclimb => hreach hclimb.1), if_neg (fun hclimb => hreach hclimb.1)]

/-- A call starts at its floor or below it, and not too far above the line it is recognised by. -/
theorem callStart_bounds (document : Document) (limits : Limits) {trigger floor : Nat}
    (hfloor : floor ≤ trigger) :
    floor ≤ callStart document limits trigger floor ∧
    trigger - limits.callLookback ≤ callStart document limits trigger floor ∧
    callStart document limits trigger floor ≤ trigger := by
  have hlowest : max (trigger - limits.callLookback) floor ≤ trigger :=
    Nat.max_le.mpr ⟨Nat.sub_le _ _, hfloor⟩
  have hle := le_climb document hlowest
  exact ⟨(Nat.le_max_right _ _).trans hle, (Nat.le_max_left _ _).trans hle, climb_le _ _ _⟩

/-- The floor of a call does not matter if the call starts below the end of a statement, or as far above
    its trigger as it may. -/
theorem callStart_eq {document : Document} {limits : Limits} {trigger floor floor' : Nat}
    (hfloor : floor ≤ trigger) (hfloor' : floor' ≤ callStart document limits trigger floor)
    (hstop : callStart document limits trigger floor = trigger - limits.callLookback ∨
      closesStatement (document.line (callStart document limits trigger floor - 1)) = true) :
    callStart document limits trigger floor' = callStart document limits trigger floor := by
  obtain ⟨-, hlookback, hle⟩ := callStart_bounds document limits hfloor
  refine climb_eq (Nat.max_le.mpr ⟨hlookback, hfloor'⟩) hle ?_ ?_
  · intro n hn hlt
    exact closesStatement_of_climb_le hn hlt
  · refine hstop.imp_left ?_
    intro heq
    rw [Nat.max_eq_left (heq ▸ hfloor')]
    exact heq

/-! ## The end -/

namespace CodeItem

/-- **What the item at the head of a text can be.** A literal is looked for first, and an item that is no
    literal starts none. -/
theorem first_cases (start : Nat) (b : UInt8) (rest : Bytes) :
    (∃ literal, Literal.read? start (b :: rest) = some literal ∧
      first b rest = ⟨.literal, literal.width⟩) ∨
    (Literal.read? start (b :: rest) = none ∧
      ((b = apostrophe ∧ (first b rest).kind = .character) ∨
        (b = slash ∧ (first b rest).kind = .comment) ∨ first b rest = ⟨.plain b, 1⟩)) := by
  rw [Literal.read?_eq_map]
  unfold first
  cases hread : Literal.read? 0 (b :: rest) with
  | some literal => exact .inl ⟨{ literal with start := start }, rfl, rfl⟩
  | none =>
      refine .inr ⟨rfl, ?_⟩
      by_cases hapostrophe : b = apostrophe
      · exact .inl ⟨hapostrophe, by simp only [if_pos hapostrophe]⟩
      · simp only [if_neg hapostrophe]
        by_cases hcomment : b = slash ∧ rest.head? = some slash
        · exact .inr (.inl ⟨hcomment.1, by rw [if_pos hcomment]⟩)
        · exact .inr (.inr (if_neg hcomment))

/-- A plain item is the byte that it starts with, and no more. -/
theorem first_of_kind_plain {b c : UInt8} {rest : Bytes} (h : (first b rest).kind = .plain c) :
    b = c ∧ first b rest = ⟨.plain c, 1⟩ := by
  rcases first_cases 0 b rest with ⟨_, -, hitem⟩ | ⟨-, ⟨-, hkind⟩ | ⟨-, hkind⟩ | hitem⟩
  · rw [hitem] at h
    exact absurd h (by simp)
  · rw [hkind] at h
    exact absurd h (by simp)
  · rw [hkind] at h
    exact absurd h (by simp)
  · rw [hitem] at h
    obtain rfl := CodeKind.plain.inj h
    exact ⟨rfl, hitem⟩

theorem characterWidth_pos (text : Bytes) : 0 < characterWidth text := by
  unfold characterWidth
  split
  · exact Nat.one_pos
  · next b rest =>
      split
      · extract_lets escaped body
        split
        · exact Nat.succ_pos _
        · exact Nat.one_pos
      · split
        · exact Nat.succ_pos _
        · exact Nat.one_pos

theorem width_first_pos (b : UInt8) (rest : Bytes) : 0 < (first b rest).width := by
  unfold first
  split
  · next literal _ => exact literal.width_pos
  split
  · exact characterWidth_pos rest
  split
  · exact Nat.succ_pos _
  · exact Nat.one_pos

/-- Both apostrophes of a character literal stand in the text. -/
theorem characterWidth_le (text : Bytes) : characterWidth text ≤ text.length + 1 := by
  unfold characterWidth
  split
  · exact Nat.le_refl 1
  · next b rest =>
      split
      · extract_lets escaped body
        split
        · next hclose =>
            have hlt : body.length < escaped.length := (List.getElem?_eq_some_iff.mp hclose).1
            have hescaped : escaped.length ≤ rest.length - 1 := by
              rw [List.length_drop, List.length_take]
              omega
            rw [List.length_cons]
            omega
        · exact Nat.le_add_left 1 _
      · split
        · next hclose =>
            have hne : rest ≠ [] := by
              rintro rfl
              exact absurd hclose.2 (by simp)
            have hpos := List.length_pos_iff.mpr hne
            rw [List.length_cons]
            omega
        · exact Nat.le_add_left 1 _

/-- An item stands in its text. -/
theorem width_first_le (b : UInt8) (rest : Bytes) : (first b rest).width ≤ rest.length + 1 := by
  unfold first
  split
  · next literal hliteral => exact (Literal.text_isPrefix hliteral).length_le
  split
  · exact characterWidth_le rest
  split
  · exact Nat.succ_le_succ (List.takeWhile_prefix _).length_le
  · exact Nat.le_add_left 1 _

end CodeItem

section

variable {trigger opened closed start : Nat} {b : UInt8} {rest : Bytes}

/-- The parenthesis that balances a call ends it. -/
theorem balance_of_closes :
    let item := CodeItem.first b rest
    let opened' := if item.kind = .plain openParen then opened + 1 else opened
    let closed' := if item.kind = .plain closeParen then closed + 1 else closed
    (item.kind = .plain closeParen ∧ trigger ≤ start ∧ 0 < opened' ∧ opened' ≤ closed') →
      balance trigger opened closed start (b :: rest) = some (start + 1) := by
  intro item opened' closed' hclose
  rw [balance]
  exact if_pos hclose

/-- Behind any other item the walk goes on. -/
theorem balance_of_not_closes :
    let item := CodeItem.first b rest
    let opened' := if item.kind = .plain openParen then opened + 1 else opened
    let closed' := if item.kind = .plain closeParen then closed + 1 else closed
    ¬ (item.kind = .plain closeParen ∧ trigger ≤ start ∧ 0 < opened' ∧ opened' ≤ closed') →
      balance trigger opened closed start (b :: rest)
        = balance trigger opened' closed' (start + item.width) (rest.drop (item.width - 1)) := by
  intro item opened' closed' hopen
  rw [balance]
  exact if_neg hopen

end

/-- **A call is balanced behind a closing parenthesis**, at its trigger or further on. -/
theorem exists_of_balance {whole text : Bytes} {trigger opened closed start stop : Nat}
    (htext : whole.drop start = text) (h : balance trigger opened closed start text = some stop) :
    ∃ offset, trigger ≤ offset ∧ whole[offset]? = some closeParen ∧ stop = offset + 1 := by
  fun_induction balance trigger opened closed start text with
  | case1 => exact absurd h (by simp)
  | case2 opened closed start b rest item opened' closed' hclose =>
      obtain ⟨rfl, -⟩ := CodeItem.first_of_kind_plain hclose.1
      have hget : whole[start]? = some closeParen := Bytes.getElem?_of_drop_eq htext 0
      exact ⟨start, hclose.2.1, hget, (Option.some.inj h).symm⟩
  | case3 opened closed start b rest item opened' closed' _ ih =>
      apply ih _ h
      exact Bytes.drop_add_of_drop_eq_cons htext (CodeItem.width_first_pos b rest)

theorem lt_of_balance {trigger opened closed start stop : Nat} {text : Bytes}
    (h : balance trigger opened closed start text = some stop) : start < stop := by
  fun_induction balance trigger opened closed start text with
  | case1 => exact absurd h (by simp)
  | case2 =>
      rw [← Option.some.inj h]
      exact Nat.lt_succ_self _
  | case3 opened closed start b rest item opened' closed' _ ih =>
      exact Nat.lt_of_le_of_lt (Nat.le_add_right _ _) (ih h)

/-- Without a closing parenthesis a text balances no call. -/
theorem balance_eq_none {trigger opened closed start : Nat} {text : Bytes} (h : closeParen ∉ text) :
    balance trigger opened closed start text = none := by
  fun_induction balance trigger opened closed start text with
  | case1 => rfl
  | case2 opened closed start b rest item opened' closed' hclose =>
      obtain ⟨rfl, -⟩ := CodeItem.first_of_kind_plain hclose.1
      exact absurd List.mem_cons_self h
  | case3 opened closed start b rest item opened' closed' _ ih =>
      exact ih fun hmem => h (List.mem_cons_of_mem b (List.mem_of_mem_drop hmem))

/-- The semicolon is looked for behind an offset, and within the text. -/
theorem withSemicolon_bounds {text : Bytes} {offset : Nat} (hoffset : offset ≤ text.length) :
    offset ≤ withSemicolon text offset ∧ withSemicolon text offset ≤ text.length := by
  unfold withSemicolon
  extract_lets behind
  split
  · next hhead =>
      have hne : behind.dropWhile isSpace ≠ [] := by
        intro hnil
        rw [hnil] at hhead
        exact absurd hhead (by simp)
      have hpos := List.length_pos_iff.mpr hne
      have hsplit := congrArg List.length
        (List.takeWhile_append_dropWhile (p := isSpace) (l := behind))
      rw [List.length_append, List.length_drop] at hsplit
      omega
  · exact ⟨Nat.le_refl _, hoffset⟩

theorem callEnd?_bounds {text : Bytes} {trigger stop : Nat} (h : callEnd? text trigger = some stop) :
    ∃ offset, trigger ≤ offset ∧ text[offset]? = some closeParen ∧ offset + 1 ≤ stop ∧
      stop ≤ text.length := by
  obtain ⟨middle, hbalance, rfl⟩ := Option.map_eq_some_iff.mp h
  obtain ⟨offset, htrigger, hget, rfl⟩ := exists_of_balance rfl hbalance
  have hlt : offset < text.length := (List.getElem?_eq_some_iff.mp hget).1
  exact ⟨offset, htrigger, hget, withSemicolon_bounds hlt⟩

/-! ## Calls -/

/-- A span whose ends are positions of a document, its start not behind its end. -/
structure Span.LiesIn (document : Document) (span : Span) : Prop where
  stop_lt : span.stop.line < document.lineCount
  start_column_le : span.start.column ≤ (document.line span.start.line).length
  stop_column_le : span.stop.column ≤ (document.line span.stop.line).length
  start_le_stop : span.start ≤ span.stop

/-- A mark of a window does not stand in front of the first mark of its first line. -/
theorem indented_le_position {document : Document} {first last offset : Nat} {b : UInt8}
    (hfirst : first < min last document.lineCount)
    (hget : (Window.of document first last).text[offset]? = some b) (hascii : b < 0x80)
    (hblank : isBlank (Char.ofNat b.toNat) = false) (hne : b ≠ lineFeed) :
    (⟨first, (document.line first).indentation⟩ : Position)
      ≤ (Window.of document first last).position offset := by
  have hlt : offset < (Window.of document first last).text.length :=
    (List.getElem?_eq_some_iff.mp hget).1
  obtain ⟨hmark, -⟩ := Window.getElem?_position hfirst hget hne
  obtain ⟨hfloor, -, -⟩ := Window.position_of hfirst (Nat.le_of_lt hlt)
  rcases Nat.lt_or_eq_of_le hfloor with hbelow | hsame
  · exact .inl hbelow
  · refine .inr ⟨hsame, ?_⟩
    rw [← hsame] at hmark
    exact Bytes.indentation_le_of_getElem? hmark hascii hblank

/-- A call ends behind its trigger, and not in front of the first mark of its first line. -/
theorem callEnd?_getD_bounds {document : Document} {first last start stop : Nat}
    (hfirst : first < min last document.lineCount)
    (hstart : start ≤ (Window.of document first last).text.length)
    (hstop : (callEnd? (Window.of document first last).text start).getD
      (Window.of document first last).text.length = stop) :
    start ≤ stop ∧ stop ≤ (Window.of document first last).text.length ∧
      (⟨first, (document.line first).indentation⟩ : Position)
        ≤ (Window.of document first last).position stop := by
  obtain ⟨origin, -, horigin, hindented⟩ := Window.exists_offset hfirst (Nat.le_refl first) hfirst
    (document.line first).indentation_le_length
  rw [← hindented]
  cases hend : callEnd? (Window.of document first last).text start with
  | none =>
      rw [hend, Option.getD_none] at hstop
      subst hstop
      refine ⟨hstart, Nat.le_refl _, ?_⟩
      exact (Window.position_le_iff hfirst horigin (Nat.le_refl _)).mpr horigin
  | some found =>
      rw [hend, Option.getD_some] at hstop
      subst hstop
      obtain ⟨offset, htrigger, hget, hlt, hle⟩ := callEnd?_bounds hend
      -- The parenthesis is a mark, so the indentation does not reach over it.
      have hclose := indented_le_position hfirst hget (by decide) (by decide) (by decide)
      rw [← hindented] at hclose
      rw [Window.position_le_iff hfirst horigin (by omega)] at hclose
      refine ⟨by omega, hle, ?_⟩
      rw [Window.position_le_iff hfirst horigin hle]
      omega

/-- The lines in which the end of a call is looked for. -/
def callWindow (document : Document) (limits : Limits) (trigger floor : Nat) : Window :=
  Window.of document (callStart document limits trigger floor) (trigger + limits.callLines)

/-- The offset in these lines from which on a parenthesis may end the call. -/
def callOrigin (document : Document) (limits : Limits) (trigger floor : Nat) : Nat :=
  ((callWindow document limits trigger floor).lineStart? trigger).getD 0

/-- The offset in these lines where the call ends. -/
def callStop (document : Document) (limits : Limits) (trigger floor : Nat) : Nat :=
  (callEnd? (callWindow document limits trigger floor).text
    (callOrigin document limits trigger floor)).getD
      (callWindow document limits trigger floor).text.length

theorem callAt_eq (document : Document) (limits : Limits) (trigger floor : Nat) :
    callAt document limits trigger floor =
      ⟨⟨callStart document limits trigger floor,
          (document.line (callStart document limits trigger floor)).indentation⟩,
        (callWindow document limits trigger floor).position
          (callStop document limits trigger floor)⟩ := rfl

/-- The end of a call is where it is balanced in the lines that it may take, or else their end. -/
theorem callStop_cases (document : Document) (limits : Limits) (trigger floor : Nat) :
    callStop document limits trigger floor
        = (callWindow document limits trigger floor).text.length ∨
      callEnd? (callWindow document limits trigger floor).text
        (callOrigin document limits trigger floor) = some (callStop document limits trigger floor) := by
  unfold callStop
  cases callEnd? (callWindow document limits trigger floor).text
      (callOrigin document limits trigger floor) with
  | none => exact .inl rfl
  | some stop => exact .inr rfl

theorem callStop_le (document : Document) (limits : Limits) (trigger floor : Nat) :
    callStop document limits trigger floor
      ≤ (callWindow document limits trigger floor).text.length := by
  rcases callStop_cases document limits trigger floor with hall | hend
  · exact Nat.le_of_eq hall
  · obtain ⟨-, -, -, -, hle⟩ := callEnd?_bounds hend
    exact hle

section

variable {document : Document} {limits : Limits} {call : Span} {trigger floor : Nat}

variable (h : call = callAt document limits trigger floor)

include h

/-- The window of a call starts with the call. -/
theorem callWindow_eq : callWindow document limits trigger floor
    = Window.of document call.start.line (trigger + limits.callLines) := by
  rw [h]
  rfl

theorem position_callStop : (callWindow document limits trigger floor).position
    (callStop document limits trigger floor) = call.stop := by
  rw [h]
  rfl

end

/-- A call lies on the lines of its document, whatever its bounds are. -/
theorem callAt_lines (document : Document) (limits : Limits) {trigger floor : Nat}
    (htrigger : trigger < document.lineCount) (hfloor : floor ≤ trigger) :
    (callAt document limits trigger floor).start.line
        ≤ (callAt document limits trigger floor).stop.line ∧
      (callAt document limits trigger floor).stop.line < document.lineCount := by
  obtain ⟨-, -, hle⟩ := callStart_bounds document limits hfloor
  have hstop := callStop_le document limits trigger floor
  rw [callAt_eq]
  rcases Nat.lt_or_ge (callStart document limits trigger floor)
    (min (trigger + limits.callLines) document.lineCount) with hfirst | hempty
  · obtain ⟨hlow, hhigh, -⟩ := Window.position_of hfirst hstop
    exact ⟨hlow, (Nat.lt_min.mp hhigh).2⟩
  · -- Without lines for the call it ends on the line where it starts, which is its trigger.
    have hnil : callWindow document limits trigger floor
        = ⟨callStart document limits trigger floor, []⟩ := by
      have hsame : callStart document limits trigger floor
          = min (trigger + limits.callLines) document.lineCount := by omega
      simp only [callWindow, Window.of, ← hsame, Nat.min_self, Nat.sub_self, List.take_zero]
    rw [hnil]
    exact ⟨Nat.le_refl _, Nat.lt_of_le_of_lt hle htrigger⟩

/-- **A call lies around its trigger**, below its floor and within its bounds. -/
theorem callAt_bounds (document : Document) {limits : Limits} {trigger floor : Nat}
    (hlines : 0 < limits.callLines) (htrigger : trigger < document.lineCount)
    (hfloor : floor ≤ trigger) :
    floor ≤ (callAt document limits trigger floor).start.line ∧
    trigger - limits.callLookback ≤ (callAt document limits trigger floor).start.line ∧
    (callAt document limits trigger floor).start.line ≤ trigger ∧
    trigger ≤ (callAt document limits trigger floor).stop.line ∧
    (callAt document limits trigger floor).stop.line < trigger + limits.callLines ∧
    (callAt document limits trigger floor).LiesIn document := by
  obtain ⟨hstart, hlookback, hle⟩ := callStart_bounds document limits hfloor
  unfold callAt
  extract_lets first window text stop
  -- The bounds are positive, so that the window reaches down to the trigger.
  have hlast : trigger < min (trigger + limits.callLines) document.lineCount :=
    Nat.lt_min.mpr ⟨Nat.lt_add_of_pos_right hlines, htrigger⟩
  have hfirst := Nat.lt_of_le_of_lt hle hlast
  obtain ⟨origin, horigin, hlength, hposition⟩ :=
    Window.exists_offset hfirst hle hlast (Nat.zero_le _)
  have hstop : (callEnd? text origin).getD text.length = stop := by
    show _ = (callEnd? text ((window.lineStart? trigger).getD 0)).getD text.length
    rw [show window.lineStart? trigger = some origin from horigin, Option.getD_some]
  obtain ⟨hbehind, hwithin, hindented⟩ := callEnd?_getD_bounds hfirst hlength hstop
  obtain ⟨-, hline, hcolumn⟩ := Window.position_of hfirst hwithin
  have hbelow := (Window.position_le_iff hfirst hlength hwithin).mpr hbehind
  rw [hposition] at hbelow
  refine ⟨hstart, hlookback, hle, ?_, (Nat.lt_min.mp hline).1, ?_⟩
  · rcases hbelow with hlt | ⟨heq, -⟩
    · exact Nat.le_of_lt hlt
    · exact Nat.le_of_eq heq
  · exact ⟨(Nat.lt_min.mp hline).2, (document.line first).indentation_le_length, hcolumn,
      hindented⟩

end LogMarkup
