import LogMarkup.Proofs.Call.Cover
import LogMarkup.Proofs.Call.Prefix
import LogMarkup.Proofs.Source.Join
import Mathlib.Data.List.TakeWhile

/-!
# `LogMarkup.Proofs.Call.Join` — the calls of two documents with an empty line between them

No call climbs over an empty line, so that the calls of the lower document start where they start in it
alone. A call of the upper document may look for its end further down than before, but where it found one,
it finds the same one again, and no semicolon of the lower document is taken for its own.

## Contents
- **The end.** `callEnd?_append_of_ne`, for a text that goes on, but not with a semicolon.
- **One call.** `Span.IsClosed`, a call that found its end; `callAt_join_above` and `callAt_join_below`, a
  call of the upper document and one of the lower document in the joined one.
- **Documents.** `callsFrom_join_above` and `callsFrom_join_below`, for the two parts of the search, and
  `calls_join`.
-/

namespace LogMarkup

open Ascii

/-! ## The end -/

/-- No semicolon is found in the lines below, if something else comes first there. -/
theorem withSemicolon_append_of_ne {text behind : Bytes} {offset : Nat}
    (hoffset : offset ≤ text.length)
    (hbehind : behind.find? (fun b => !isSpace b) ≠ some semicolon) :
    withSemicolon (text ++ behind) offset = withSemicolon text offset := by
  by_cases hblank : ∀ b ∈ text.drop offset, isSpace b = true
  · have hnone : (text.drop offset).dropWhile isSpace = [] := List.dropWhile_eq_nil_iff.mpr hblank
    rw [List.find?_not_eq_head?_dropWhile] at hbehind
    unfold withSemicolon
    simp only [List.drop_append_of_le_length hoffset, List.dropWhile_append, hnone,
      List.isEmpty_nil, if_true, if_neg hbehind]
    rfl
  · push Not at hblank
    obtain ⟨b, hb, hmark⟩ := hblank
    exact withSemicolon_append behind hoffset hb (Bool.not_eq_true _ ▸ hmark)

/-- **A call that found its end finds it again if the text goes on**, unless a semicolon comes first there. -/
theorem callEnd?_append_of_ne {text behind : Bytes} {trigger stop : Nat}
    (hbehind : behind.FollowsLine)
    (hother : behind.find? (fun b => !isSpace b) ≠ some semicolon)
    (h : callEnd? text trigger = some stop) : callEnd? (text ++ behind) trigger = some stop := by
  obtain ⟨middle, hbalance, rfl⟩ := Option.map_eq_some_iff.mp h
  have hmiddle : middle ≤ text.length := by
    obtain ⟨offset, -, hget, rfl⟩ := exists_of_balance rfl hbalance
    exact (List.getElem?_eq_some_iff.mp hget).1
  rcases balance_append hbehind trigger 0 0 0 text with ⟨found, hfound, hbelow⟩ | ⟨hnone, -⟩
  · obtain rfl := Option.some.inj (hbalance.symm.trans hfound)
    rw [callEnd?, hbelow, Option.map_some, withSemicolon_append_of_ne hmiddle hother]
  · exact absurd (hbalance.symm.trans hnone) (by simp)

/-! ## One call -/

/-- A call that found its end: a parenthesis balances it in the lines that it may take. -/
def Span.IsClosed (document : Document) (config : Config) (call : Span) : Prop :=
  ∀ trigger floor, call = callAt document config.limits trigger floor →
    call.IsAround document config trigger →
    (callEnd? (callWindow document config.limits trigger floor).text
      (callOrigin document config.limits trigger floor)).isSome

theorem closesStatement_nil : closesStatement [] = true := rfl

section

variable {upper lower : Document} {limits : Limits} {trigger floor : Nat}

theorem callStart_join_above (lower : Document) (limits : Limits) (htrigger : trigger < upper.lineCount)
    (floor : Nat) :
    callStart (upper.join lower) limits trigger floor = callStart upper limits trigger floor := by
  apply climb_congr
  intro n _ hlt
  exact Document.line_join_above lower (Nat.lt_trans hlt htrigger)

/-- **A call of the upper document that found its end is the same in the joined document**, unless a
    semicolon comes first in the lower one. -/
theorem callAt_join_above (htrigger : trigger < upper.lineCount) (hfloor : floor ≤ trigger)
    (hlines : 0 < limits.callLines)
    (hclosed : (callEnd? (callWindow upper limits trigger floor).text
      (callOrigin upper limits trigger floor)).isSome)
    (hlower : firstMark? lower.lines ≠ some semicolon) :
    callAt (upper.join lower) limits trigger floor = callAt upper limits trigger floor := by
  obtain ⟨-, -, hstart⟩ := callStart_bounds upper limits hfloor
  have hsame := callStart_join_above lower limits htrigger floor
  have hlast : trigger < min (trigger + limits.callLines) upper.lineCount :=
    Nat.lt_min.mpr ⟨Nat.lt_add_of_pos_right hlines, htrigger⟩
  have hfirst := Nat.lt_of_le_of_lt hstart hlast
  have hline := Document.line_join_above lower (Nat.lt_of_le_of_lt hstart htrigger)
  have horigin : callOrigin (upper.join lower) limits trigger floor
      = callOrigin upper limits trigger floor := by
    simp only [callOrigin, callWindow, hsame, Window.lineStart?_join lower hfirst hlast]
  obtain ⟨stop, hstop⟩ := Option.isSome_iff_exists.mp hclosed
  obtain ⟨-, -, -, -, hle⟩ := callEnd?_bounds hstop
  have hend : callEnd? (callWindow (upper.join lower) limits trigger floor).text
      (callOrigin (upper.join lower) limits trigger floor) = some stop := by
    rw [horigin]
    obtain ⟨behind, hbehind, htext, hmark⟩ := Window.exists_text_join lower hfirst
    have hother : behind.find? (fun b => !isSpace b) ≠ some semicolon := fun h => hlower (hmark _ h)
    simp only [callWindow] at hstop ⊢
    rw [hsame, htext]
    exact callEnd?_append_of_ne hbehind hother hstop
  have hposition : (callWindow (upper.join lower) limits trigger floor).position stop
      = (callWindow upper limits trigger floor).position stop := by
    simp only [callWindow, hsame]
    exact Window.position_join lower hfirst hle
  rw [callAt_eq, callAt_eq, callStop, callStop, hend, hstop, Option.getD_some, Option.getD_some,
    hposition, hsame, hline]

/-- The climb in the lower document ends at the empty line. -/
theorem climb_join_below (upper lower : Document) {lowest lowest' line : Nat}
    (h : ∀ n < line, lowest' ≤ n + (upper.lineCount + 1) ↔ lowest ≤ n) :
    climb (upper.join lower) lowest' (line + (upper.lineCount + 1))
      = climb lower lowest line + (upper.lineCount + 1) := by
  induction line with
  | zero =>
      rw [Nat.zero_add, climb, climb, Document.line_join_between, closesStatement_nil, Nat.zero_add]
      exact if_neg (fun hclimb => absurd hclimb.2 (by simp))
  | succ line ih =>
      have hline : line + 1 + (upper.lineCount + 1) = line + (upper.lineCount + 1) + 1 := by omega
      rw [hline, climb, climb, Document.line_join_below, ih fun n hlt => h n (Nat.lt_succ_of_lt hlt)]
      simp only [h line (Nat.lt_succ_self line)]
      split
      · rfl
      · exact hline.symm

/-- **A call of the lower document is the one that it has alone**, further down. -/
theorem callAt_join_below (upper lower : Document) (limits : Limits) (trigger : Nat)
    {floor floor' : Nat}
    (hfloor : ∀ n, floor' ≤ n + (upper.lineCount + 1) ↔ floor ≤ n) :
    callAt (upper.join lower) limits (trigger + (upper.lineCount + 1)) floor'
      = (callAt lower limits trigger floor).moveDown (upper.lineCount + 1) := by
  have hsame : callStart (upper.join lower) limits (trigger + (upper.lineCount + 1)) floor'
      = callStart lower limits trigger floor + (upper.lineCount + 1) := by
    apply climb_join_below
    intro n _
    -- A lookback that would reach above the lower document is cut off at its first line.
    rw [Nat.max_le, Nat.max_le, hfloor]
    apply and_congr_left
    intro _
    omega
  have hwindow : callWindow (upper.join lower) limits (trigger + (upper.lineCount + 1)) floor'
      = (callWindow lower limits trigger floor).moveDown (upper.lineCount + 1) := by
    rw [callWindow, hsame, Nat.add_right_comm, Window.of_join_below]
    rfl
  have horigin : callOrigin (upper.join lower) limits (trigger + (upper.lineCount + 1)) floor'
      = callOrigin lower limits trigger floor := by
    rw [callOrigin, hwindow, Window.lineStart?_moveDown]
    rfl
  rw [callAt_eq, callAt_eq, callStop, hwindow, horigin, Window.position_moveDown, hsame,
    Document.line_join_below]
  rfl

end

/-! ## Documents -/

section

variable {upper lower : Document} {config : Config} {free n : Nat} {lines : List Bytes}

/-- **In the lower document the search finds what it finds there alone**, further down. -/
theorem callsFrom_join_below (upper : Document) {free' : Nat}
    (hfree : ∀ m, free' ≤ m + (upper.lineCount + 1) ↔ free ≤ m) :
    callsFrom (upper.join lower) config free' (n + (upper.lineCount + 1)) lines
      = (callsFrom lower config free n lines).map (Span.moveDown (upper.lineCount + 1)) := by
  have hnext : n + (upper.lineCount + 1) + 1 = n + 1 + (upper.lineCount + 1) := Nat.add_right_comm ..
  induction lines generalizing free free' n with
  | nil => rfl
  | cons line lines ih =>
      rw [callsFrom, callsFrom]
      by_cases hopen : free ≤ n ∧ config.shapes.accepts line = true
      · have hcall := callAt_join_below upper lower config.limits n hfree
        rw [if_pos ⟨(hfree n).mpr hopen.1, hopen.2⟩, if_pos hopen]
        simp only [hcall, hnext, List.map_cons]
        congr 1
        apply ih _ (Nat.add_right_comm ..)
        intro m
        show (callAt lower config.limits n free).stop.line + (upper.lineCount + 1) + 1
          ≤ m + (upper.lineCount + 1) ↔ _
        omega
      · rw [if_neg (fun h => hopen ⟨(hfree n).mp h.1, h.2⟩), if_neg hopen, hnext]
        exact ih hfree (Nat.add_right_comm ..)

/-- **In the upper document the search finds what it finds there alone**, if its calls found their ends, and
    it reaches the lower one with all its lines left. -/
theorem callsFrom_join_above (hlimits : 0 < config.limits.callLines)
    (hempty : config.shapes.accepts [] = false)
    (hlower : firstMark? lower.lines ≠ some semicolon)
    (hlines : upper.lines.drop n = lines) (hcount : n + lines.length = upper.lineCount)
    (hfree : free ≤ upper.lineCount)
    (hpassed : ∀ line, free ≤ line → line < n → config.shapes.accepts (upper.line line) = false)
    (hclosed : ∀ call ∈ callsFrom upper config free n lines, call.IsClosed upper config) :
    ∃ free' ≤ upper.lineCount,
      callsFrom (upper.join lower) config free n (lines ++ [] :: lower.lines)
        = callsFrom upper config free n lines
          ++ callsFrom (upper.join lower) config free' (upper.lineCount + 1) lower.lines := by
  -- The lines that are taken never reach below the upper document, since its calls end in it.
  fun_induction callsFrom upper config free n lines with
  | case1 free n =>
      obtain rfl : n = upper.lineCount := hcount
      refine ⟨free, hfree, ?_⟩
      rw [List.nil_append, List.nil_append, callsFrom, hempty]
      exact if_neg (fun h => absurd h.2 (by simp))
  | case2 free n line lines hopen call ih =>
      obtain ⟨hn, hline, hbehind⟩ := Document.of_drop_eq_cons hlines
      have haround : call.IsAround upper config n :=
        isAround_callAt hlimits hn hopen.1 (hline ▸ hopen.2) hpassed
      have hsame : callAt (upper.join lower) config.limits n free = call :=
        callAt_join_above hn hopen.1 hlimits
          (hclosed call List.mem_cons_self n free rfl haround) hlower
      have hstop : call.stop.line < upper.lineCount :=
        (callAt_lines upper config.limits hn hopen.1).2
      rw [List.length_cons] at hcount
      obtain ⟨free', hle, hrest⟩ := ih hbehind (by omega) hstop
        (fun m hm hlt => absurd haround.le_stop (by omega))
        (fun other hother => hclosed other (List.mem_cons_of_mem _ hother))
      refine ⟨free', hle, ?_⟩
      rw [List.cons_append, callsFrom, if_pos hopen]
      simp only [hsame]
      rw [hrest, List.cons_append]
  | case3 free n line lines hopen ih =>
      obtain ⟨hn, hline, hbehind⟩ := Document.of_drop_eq_cons hlines
      rw [List.length_cons] at hcount
      obtain ⟨free', hle, hrest⟩ := ih hbehind (by omega) hfree
        (accepts_eq_false_of_lt_succ hpassed (hline ▸ hopen)) hclosed
      refine ⟨free', hle, ?_⟩
      rw [List.cons_append, callsFrom, if_neg hopen, hrest]

/-- **The calls of two documents with an empty line between them** are those of the upper one and below them
    those of the lower one, if the calls of the upper one found their ends. -/
theorem calls_join {upper lower : Document} {config : Config}
    (hlimits : 0 < config.limits.callLines) (hempty : config.shapes.accepts [] = false)
    (hclosed : ∀ call ∈ calls upper config, call.IsClosed upper config)
    (hlower : firstMark? lower.lines ≠ some semicolon) :
    calls (upper.join lower) config
      = calls upper config ++ (calls lower config).map (Span.moveDown (upper.lineCount + 1)) := by
  have hall : upper.lines.drop 0 = upper.lines := rfl
  obtain ⟨free, hfree, habove⟩ := callsFrom_join_above hlimits hempty hlower hall (Nat.zero_add _)
    (Nat.zero_le _) (by simp) hclosed
  have hbelow : callsFrom (upper.join lower) config free (0 + (upper.lineCount + 1)) lower.lines
      = (calls lower config).map (Span.moveDown (upper.lineCount + 1)) :=
    callsFrom_join_below upper (by omega)
  rw [Nat.zero_add] at hbelow
  calc calls (upper.join lower) config
      = callsFrom (upper.join lower) config 0 0 (upper.lines ++ [] :: lower.lines) := rfl
    _ = calls upper config
          ++ callsFrom (upper.join lower) config free (upper.lineCount + 1) lower.lines := habove
    _ = calls upper config ++ (calls lower config).map (Span.moveDown (upper.lineCount + 1)) := by
        rw [hbelow]

end

end LogMarkup
