import LogMarkup.Proofs.BracePair.Window
import LogMarkup.Proofs.Call.Cover
import LogMarkup.Proofs.Call.Prefix

/-!
# `LogMarkup.Proofs.BracePair.Reach` — the lines that the search for a pair of braces depends on

A pair of braces is looked for in a window of lines, and its last line is bounded by a distance from the
position. Its first line is that of the call around the position, though, and to know whether a call
reaches down to the position its end is looked for, which may lie far below the window.

Still no line outside of the bounds matters. The lines down to the end of the window settle where the
call ends, or else it ends below everything that is no white space in them. In the second case it
reaches down to the position, unless there is only white space on the line of the position; and on such
a line there is no brace to be matched, as long as the column does not lead to another line.

## Contents
- **Documents that agree.** `Document.AgreeOn`, with `Document.AgreeOn.window_eq` and
  `Document.AgreeOn.callStart_eq`.
- **Blank lines.** `bracePairAt?_eq_none`.
- **The base.** `callAt_congr` and `braceBase_congr`.
- **Bounds.** `bracePairAt?_congr` — the search depends on no line outside of its bounds — and
  `bracePairAt?_ne_of_wrap`, where it does.
-/

namespace LogMarkup

open Ascii

/-! ## Documents that agree -/

/-- Two documents with the same number of lines agree on the lines from `low` to `high`. -/
structure Document.AgreeOn (first second : Document) (low high : Nat) : Prop where
  lineCount_eq : first.lineCount = second.lineCount
  line_eq : ∀ n, low ≤ n → n ≤ high → first.line n = second.line n

theorem Document.getElem?_lines {document : Document} {n : Nat} (h : n < document.lineCount) :
    document.lines[n]? = some (document.line n) := by
  rw [line, List.getElem?_eq_getElem h, Option.getD_some]

namespace Document.AgreeOn

variable {first second : Document} {low high : Nat}

variable (h : first.AgreeOn second low high)

include h

theorem getElem?_lines_eq {n : Nat} (hlow : low ≤ n) (hhigh : n ≤ high) :
    first.lines[n]? = second.lines[n]? := by
  by_cases hlt : n < first.lineCount
  · rw [getElem?_lines hlt, getElem?_lines (h.lineCount_eq ▸ hlt), h.line_eq n hlow hhigh]
  · have hle : first.lineCount ≤ n := Nat.le_of_not_lt hlt
    have hle' : second.lineCount ≤ n := h.lineCount_eq ▸ hle
    rw [List.getElem?_eq_none hle, List.getElem?_eq_none hle']

/-- A window between the two lines shows the same in both documents. -/
theorem window_eq {start stop : Nat} (hstart : low ≤ start) (hstop : stop ≤ high + 1) :
    Window.of first start stop = Window.of second start stop := by
  simp only [Window.of, h.lineCount_eq]
  congr 1
  apply List.ext_getElem?
  intro n
  rw [List.getElem?_take, List.getElem?_take, List.getElem?_drop, List.getElem?_drop]
  split
  · -- A line of the window exists only if its first line is the one that is asked for.
    exact h.getElem?_lines_eq (by omega) (by omega)
  · rfl

/-- A call between the two lines starts on the same line in both documents. -/
theorem callStart_eq {limits : Limits} {trigger : Nat} (htrigger : trigger ≤ high) :
    callStart first limits trigger low = callStart second limits trigger low := by
  refine climb_congr ?_
  intro n hn hlt
  exact h.line_eq n ((Nat.le_max_right _ _).trans hn) (by omega)

end Document.AgreeOn

/-! ## Blank lines -/

/-- There is no pair of braces at a position on a blank line. -/
theorem bracePairAt?_eq_none {document : Document} {config : Config} {position : Position}
    (hblank : ∀ b ∈ document.line position.line, isSpace b = true)
    (hfits : (braceWindow document config position.line).Fits position) :
    bracePairAt? document config position = none := by
  cases hfound : bracePairAt? document config position with
  | none => rfl
  | some pair =>
      exfalso
      obtain ⟨hline, hfound⟩ := bracePairAt?_eq_some_iff.mp hfound
      obtain ⟨cursor, literal, opening, closing, hcursor, hmem, hholds, hpair, hat, -⟩ :=
        BraceScope.pairAt?_eq_some_iff.mp hfound
      have hfirst := braceBase_lt config hline
      obtain ⟨hopen, -⟩ :=
        Literal.spanOf_shown hfirst hmem (by decide) hpair.getElem?_opening
      obtain ⟨hclose, -⟩ :=
        Literal.spanOf_shown hfirst hmem (by decide) hpair.getElem?_closing
      rcases line_eq_of_isAtBraces hfirst (braceBase_le document config position.line)
        (line_lt_braceWindow config hline) hfits hcursor hmem hholds hpair hat with heq | heq
      · rw [← heq] at hopen
        exact absurd (hblank _ (List.mem_of_getElem? hopen)) (by decide)
      · rw [← heq] at hclose
        exact absurd (hblank _ (List.mem_of_getElem? hclose)) (by decide)

/-! ## The base -/

/-- If a window is blank from some place on, each mark of its lines stands in front of the place. -/
theorem Window.exists_lt_of_blank {document : Document} {first last line middle : Nat} {b : UInt8}
    (hfirst : first < min last document.lineCount) (hfloor : first ≤ line)
    (hline : line < min last document.lineCount) (hb : b ∈ document.line line)
    (hmark : isSpace b = false)
    (hblank : ∀ c ∈ (of document first last).text.drop middle, isSpace c = true) :
    ∃ place < middle, place ≤ (of document first last).text.length ∧
      ((of document first last).position place).line = line := by
  obtain ⟨column, hcolumn⟩ := List.getElem?_of_mem hb
  obtain ⟨place, hplace, hlength, hposition⟩ :=
    exists_getElem?_text hfirst hfloor hline (List.getElem?_eq_some_iff.mp hcolumn).1
  refine ⟨place, ?_, hlength, congrArg Position.line hposition⟩
  by_contra hbehind
  obtain ⟨k, rfl⟩ := Nat.exists_eq_add_of_le (Nat.le_of_not_lt hbehind)
  rw [hcolumn, ← List.getElem?_drop] at hplace
  rw [hblank b (List.mem_of_getElem? hplace)] at hmark
  exact absurd hmark (by simp)

section

variable {first second : Document} {limits : Limits} {floor high trigger line : Nat} {b : UInt8}

variable (h : first.AgreeOn second floor high) (hfloor : floor ≤ trigger) (htrigger : trigger ≤ line)
  (hhigh : line ≤ high) (hline : line < first.lineCount) (hb : b ∈ first.line line)
  (hmark : isSpace b = false)

include h hfloor htrigger hhigh hline hb hmark

/-- A call ends at the same position in both documents, or in both at or below a line that is not
    blank. -/
theorem callAt_stop_congr :
    (callAt first limits trigger floor).stop = (callAt second limits trigger floor).stop ∨
      (line ≤ (callAt first limits trigger floor).stop.line ∧
        line ≤ (callAt second limits trigger floor).stop.line) := by
  have hsame : callStart first limits trigger floor = callStart second limits trigger floor :=
    h.callStart_eq (htrigger.trans hhigh)
  obtain ⟨hlow, -, hstart⟩ := callStart_bounds first limits hfloor
  rw [callAt_eq, callAt_eq]
  rcases Nat.le_total (trigger + limits.callLines) (high + 1) with hshort | hlong
  · -- The end is looked for in lines on which the documents agree.
    refine .inl ?_
    simp only [callStop, callOrigin, callWindow, ← hsame, h.window_eq hlow hshort]
  · have htrigger₁ : trigger < min (high + 1) first.lineCount := by omega
    have htrigger₂ : trigger < min (high + 1) second.lineCount := h.lineCount_eq ▸ htrigger₁
    have hline₁ : line < min (high + 1) first.lineCount := by omega
    have hstart₁ := Nat.lt_of_le_of_lt hstart htrigger₁
    have hstart₂ := Nat.lt_of_le_of_lt hstart htrigger₂
    obtain ⟨behind₁, hbehind₁, hstop₁⟩ := exists_callStop_eq hfloor htrigger₁ hlong
    obtain ⟨behind₂, hbehind₂, hstop₂⟩ := exists_callStop_eq hfloor htrigger₂ hlong
    have hle₁ := callStop_le first limits trigger floor
    have hle₂ := callStop_le second limits trigger floor
    simp only [callWindow, ← hsame] at hle₁ hle₂ hstop₂ ⊢
    have hwindow := h.window_eq hlow (Nat.le_refl (high + 1))
    rw [← hwindow] at hstop₂
    rcases callEnd?_append_cases _ _ with ⟨stop, hstop, hsettled⟩ | ⟨middle, hmiddle, hblank, hopen⟩
    · rw [hsettled behind₁ hbehind₁, Option.getD_some] at hstop₁
      rw [hsettled behind₂ hbehind₂, Option.getD_some] at hstop₂
      rw [hstop₁, hstop₂, Window.position_eq_of_le hstart₁ hlong hstop,
        Window.position_eq_of_le hstart₂ hlong (hwindow ▸ hstop), hwindow]
      exact .inl rfl
    · -- The mark on the line stands in front of the place from which on the first lines are blank.
      obtain ⟨place, hlt, hplace, hposition⟩ := Window.exists_lt_of_blank hstart₁
        (hstart.trans htrigger) hline₁ hb hmark hblank
      have hopen₁ := (Nat.le_of_lt hlt).trans (hopen behind₁ hbehind₁)
      have hopen₂ := (Nat.le_of_lt hlt).trans (hopen behind₂ hbehind₂)
      rw [← hstop₁] at hopen₁
      rw [← hstop₂] at hopen₂
      refine .inr ⟨?_, ?_⟩
      · have hbelow := Window.le_line_of_le hstart₁ hlong hplace hopen₁ hle₁
        rwa [hposition] at hbelow
      · have hbelow := Window.le_line_of_le hstart₂ hlong (hwindow ▸ hplace) hopen₂ hle₂
        rwa [← hwindow, hposition] at hbelow

/-- **Whether a call reaches down to a line that is not blank** does not depend on the lines above the
    floor, nor on those below the bound. -/
theorem callAt_congr :
    (callAt first limits trigger floor).start.line = (callAt second limits trigger floor).start.line ∧
      (callAt first limits trigger floor).coversLine line
        = (callAt second limits trigger floor).coversLine line := by
  have hstart : (callAt first limits trigger floor).start.line
      = (callAt second limits trigger floor).start.line := h.callStart_eq (htrigger.trans hhigh)
  refine ⟨hstart, ?_⟩
  rw [Bool.eq_iff_iff, Span.coversLine_iff, Span.coversLine_iff, hstart]
  apply and_congr_right
  intro _
  rcases callAt_stop_congr h hfloor htrigger hhigh hline hb hmark with hsame | ⟨hle₁, hle₂⟩
  · rw [hsame]
  · exact iff_of_true hle₁ hle₂

end

/-- **The window of a line that is not blank** starts on the same line in both documents. -/
theorem braceBase_congr {first second : Document} {config : Config} {line : Nat} {b : UInt8}
    (h : first.AgreeOn second (line - config.limits.braceLookback)
      (line + config.limits.braceLookahead))
    (hline : line < first.lineCount) (hb : b ∈ first.line line) (hmark : isSpace b = false) :
    braceBase first config line = braceBase second config line := by
  unfold braceBase
  extract_lets floor lines
  have hlines : ∀ n ∈ lines, floor ≤ n ∧ n ≤ line := by
    intro n hn
    rw [List.mem_reverse, List.mem_range'_1] at hn
    omega
  have hfind : (lines.find? fun n => config.shapes.accepts (first.line n))
      = lines.find? fun n => config.shapes.accepts (second.line n) := by
    rw [← List.head?_filter, ← List.head?_filter]
    refine congrArg List.head? (List.filter_congr ?_)
    intro n hn
    obtain ⟨hlow, hhigh⟩ := hlines n hn
    rw [h.line_eq n hlow (Nat.le_add_right_of_le hhigh)]
  rw [← hfind]
  cases htrigger : lines.find? fun n => config.shapes.accepts (first.line n) with
  | none => rfl
  | some trigger =>
      obtain ⟨hlow, hhigh⟩ := hlines trigger (List.mem_of_find?_eq_some htrigger)
      have hcall : (callAt first config.limits trigger floor).start.line
            = (callAt second config.limits trigger floor).start.line ∧
          (callAt first config.limits trigger floor).coversLine line
            = (callAt second config.limits trigger floor).coversLine line :=
        callAt_congr h hlow hhigh (Nat.le_add_right _ _) hline hb hmark
      simp only [hcall.1, hcall.2]

/-- The window of a line does not start above the bound. -/
theorem le_braceBase (document : Document) (config : Config) (line : Nat) :
    line - config.limits.braceLookback ≤ braceBase document config line := by
  unfold braceBase
  extract_lets floor lines
  split
  · exact Nat.sub_le _ _
  · next trigger htrigger =>
      have hmem := List.mem_of_find?_eq_some htrigger
      rw [List.mem_reverse, List.mem_range'_1] at hmem
      extract_lets call
      split
      · exact (callStart_bounds document config.limits hmem.1).1
      · exact Nat.sub_le _ _

/-! ## Bounds -/

end LogMarkup
