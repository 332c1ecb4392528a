import LogMarkup.Proofs.Call.Extent
import LogMarkup.Proofs.Config.Limits

/-!
# `LogMarkup.Proofs.Call.Cover` — the calls of a document cover its recognised lines

The search goes down the lines of a document and opens a call at each recognised line that no call has
taken yet. What it keeps is that the lines between the last call and the line it looks at are not
recognised. So a call that climbs into them meets no other call there, and the line by which it was
opened stays the first recognised one in it.

## Contents
- **One call.** `Span.IsAround`, how a call lies around its first recognised line, with
  `Span.IsAround.trigger_eq` and `isAround_callAt`.
- **The search.** `CoversFrom`, what the calls of the remaining lines are, and `callsFrom_covers`;
  `exists_callAt_of_mem_callsFrom` and `lines_of_mem_calls`, which hold for all bounds.
- **Documents.** `calls_cover` — the calls are disjoint, cover every recognised line, and keep to
  their bounds.
-/

namespace LogMarkup

/-! ## One call -/

/-- How a call lies around its first recognised line. -/
structure Span.IsAround (document : Document) (config : Config) (call : Span) (trigger : Nat) :
    Prop where
  accepts : config.shapes.accepts (document.line trigger) = true
  accepts_eq_false : ∀ line, call.start.line ≤ line → line < trigger →
    config.shapes.accepts (document.line line) = false
  start_le : call.start.line ≤ trigger
  le_stop : trigger ≤ call.stop.line
  lookback_le : trigger - config.limits.callLookback ≤ call.start.line
  stop_lt : call.stop.line < trigger + config.limits.callLines

/-- The trigger is the first recognised line of the call. -/
theorem Span.IsAround.le_of_accepts {document : Document} {config : Config} {call : Span}
    {trigger n : Nat} (h : call.IsAround document config trigger) (hn : call.start.line ≤ n)
    (haccepts : config.shapes.accepts (document.line n) = true) : trigger ≤ n := by
  by_contra hlt
  rw [h.accepts_eq_false n hn (Nat.lt_of_not_le hlt)] at haccepts
  exact absurd haccepts (by simp)

theorem Span.IsAround.trigger_eq {document : Document} {config : Config} {call : Span}
    {trigger trigger' : Nat} (h : call.IsAround document config trigger)
    (h' : call.IsAround document config trigger') : trigger = trigger' :=
  Nat.le_antisymm (h.le_of_accepts h'.start_le h'.accepts) (h'.le_of_accepts h.start_le h.accepts)

/-- A call lies around the line by which it is recognised, if the lines between its floor and that line are
    not recognised. -/
theorem isAround_callAt {document : Document} {config : Config} {trigger floor : Nat}
    (hlines : 0 < config.limits.callLines) (htrigger : trigger < document.lineCount)
    (hfloor : floor ≤ trigger) (haccepts : config.shapes.accepts (document.line trigger) = true)
    (hpassed : ∀ line, floor ≤ line → line < trigger →
      config.shapes.accepts (document.line line) = false) :
    (callAt document config.limits trigger floor).IsAround document config trigger := by
  obtain ⟨hfree, hlookback, hstart, hstop, hbound, -⟩ :=
    callAt_bounds document hlines htrigger hfloor
  exact ⟨haccepts, fun line hle => hpassed line (hfree.trans hle), hstart, hstop, hlookback, hbound⟩

theorem Span.coversLine_iff {span : Span} {line : Nat} :
    span.coversLine line = true ↔ span.start.line ≤ line ∧ line ≤ span.stop.line := by
  simp [coversLine]

/-! ## The search -/

/-- The calls that a search finds in the lines from `n` on, if the lines above `free` are taken. -/
structure CoversFrom (document : Document) (config : Config) (free n : Nat) (calls : List Span) :
    Prop where
  pairwise : calls.Pairwise fun first second => first.stop.line < second.start.line
  free_le : ∀ call ∈ calls, free ≤ call.start.line
  exists_callAt : ∀ call ∈ calls, ∃ trigger floor, floor ≤ call.start.line ∧
    call = callAt document config.limits trigger floor ∧ call.IsAround document config trigger
  liesIn : ∀ call ∈ calls, call.LiesIn document
  exists_of_accepts : ∀ line, n ≤ line → free ≤ line → line < document.lineCount →
    config.shapes.accepts (document.line line) = true →
    ∃ call ∈ calls, call.coversLine line = true

namespace CoversFrom

variable {document : Document} {config : Config} {free n : Nat} {calls : List Span}

theorem isAround (h : CoversFrom document config free n calls) {call : Span} (hmem : call ∈ calls) :
    ∃ trigger, call.IsAround document config trigger := by
  obtain ⟨trigger, _, -, -, hcall⟩ := h.exists_callAt call hmem
  exact ⟨trigger, hcall⟩

/-- No lines are left to be covered. -/
theorem nil (h : document.lineCount ≤ n) : CoversFrom document config free n [] := by
  refine ⟨.nil, by simp, by simp, by simp, ?_⟩
  intro line hn _ hline
  omega

/-- A line that is taken or not recognised is passed over. -/
theorem skip (h : CoversFrom document config free (n + 1) calls)
    (hn : ¬ (free ≤ n ∧ config.shapes.accepts (document.line n) = true)) :
    CoversFrom document config free n calls := by
  refine ⟨h.pairwise, h.free_le, h.exists_callAt, h.liesIn, ?_⟩
  intro line hle hfree hline haccepts
  rcases Nat.lt_or_eq_of_le hle with hlt | rfl
  · exact h.exists_of_accepts line hlt hfree hline haccepts
  · exact absurd ⟨hfree, haccepts⟩ hn

/-- A call takes the lines down to its end, and the search goes on with those below it. -/
theorem cons {call : Span} (heq : call = callAt document config.limits n free)
    (hcall : call.IsAround document config n) (hlies : call.LiesIn document)
    (hfree : free ≤ call.start.line)
    (h : CoversFrom document config (call.stop.line + 1) (n + 1) calls) :
    CoversFrom document config free n (call :: calls) := by
  have hstart := hcall.start_le
  have hstop := hcall.le_stop
  refine ⟨List.pairwise_cons.mpr ⟨h.free_le, h.pairwise⟩, ?_, ?_, ?_, ?_⟩
  · intro other hmem
    rcases List.mem_cons.mp hmem with rfl | hmem
    · exact hfree
    · have hbelow := h.free_le other hmem
      omega
  · intro other hmem
    rcases List.mem_cons.mp hmem with rfl | hmem
    · exact ⟨n, free, hfree, heq, hcall⟩
    · exact h.exists_callAt other hmem
  · intro other hmem
    rcases List.mem_cons.mp hmem with rfl | hmem
    · exact hlies
    · exact h.liesIn other hmem
  · intro line hn _ hline haccepts
    -- A line is taken by this call, or left to the calls below it.
    by_cases htaken : line ≤ call.stop.line
    · exact ⟨call, List.mem_cons_self, Span.coversLine_iff.mpr ⟨hstart.trans hn, htaken⟩⟩
    · obtain ⟨other, hmem, hcovers⟩ :=
        h.exists_of_accepts line (by omega) (by omega) hline haccepts
      exact ⟨other, List.mem_cons_of_mem _ hmem, hcovers⟩

end CoversFrom

/-- What is known about a line at which the remaining lines start. -/
theorem Document.of_drop_eq_cons {document : Document} {n : Nat} {line : Bytes} {lines : List Bytes}
    (h : document.lines.drop n = line :: lines) :
    n < document.lineCount ∧ document.line n = line ∧ document.lines.drop (n + 1) = lines := by
  have hget : document.lines[n]? = some line := by
    rw [← Nat.add_zero n, ← List.getElem?_drop, h]
    rfl
  refine ⟨(List.getElem?_eq_some_iff.mp hget).1, ?_, ?_⟩
  · rw [Document.line, hget, Option.getD_some]
  · rw [← List.drop_drop, h]
    rfl

/-- The lines that were passed over, with one more. -/
theorem accepts_eq_false_of_lt_succ {document : Document} {config : Config} {free n : Nat}
    (hpassed : ∀ line, free ≤ line → line < n → config.shapes.accepts (document.line line) = false)
    (hn : ¬ (free ≤ n ∧ config.shapes.accepts (document.line n) = true)) :
    ∀ line, free ≤ line → line < n + 1 →
      config.shapes.accepts (document.line line) = false := by
  intro line hle hlt
  rcases Nat.lt_or_eq_of_le (Nat.le_of_lt_succ hlt) with hlt | rfl
  · exact hpassed line hle hlt
  · rw [← Bool.not_eq_true]
    exact fun haccepts => hn ⟨hle, haccepts⟩

/-- **The search finds calls that cover the remaining lines**, if no line between the taken ones and
    the remaining ones is recognised. -/
theorem callsFrom_covers {document : Document} {config : Config} {free n : Nat} {lines : List Bytes}
    (hlimits : 0 < config.limits.callLines) (hlines : document.lines.drop n = lines)
    (hpassed : ∀ line, free ≤ line → line < n →
      config.shapes.accepts (document.line line) = false) :
    CoversFrom document config free n (callsFrom document config free n lines) := by
  fun_induction callsFrom document config free n lines with
  | case1 free n => exact .nil (List.drop_eq_nil_iff.mp hlines)
  | case2 free n line lines hopen call ih =>
      obtain ⟨hn, hline, hbehind⟩ := Document.of_drop_eq_cons hlines
      rw [← hline] at hopen
      obtain ⟨hfree, -, -, -, -, hlies⟩ := callAt_bounds document hlimits hn hopen.1
      have hcall : call.IsAround document config n :=
        isAround_callAt hlimits hn hopen.1 hopen.2 hpassed
      refine .cons rfl hcall hlies hfree (ih hbehind ?_)
      intro line hle hlt
      have hbelow := hcall.le_stop
      omega
  | case3 free n line lines hopen ih =>
      obtain ⟨hn, hline, hbehind⟩ := Document.of_drop_eq_cons hlines
      rw [← hline] at hopen
      exact .skip (ih hbehind (accepts_eq_false_of_lt_succ hpassed hopen)) hopen

/-- Every call is one around a line, below the lines that were taken when it was found. -/
theorem exists_callAt_of_mem_callsFrom {document : Document} {config : Config} {free n : Nat}
    {lines : List Bytes} {call : Span} (h : call ∈ callsFrom document config free n lines) :
    ∃ trigger floor, floor ≤ trigger ∧ trigger < n + lines.length ∧
      call = callAt document config.limits trigger floor := by
  fun_induction callsFrom document config free n lines with
  | case1 free n => exact absurd h (by simp)
  | case2 free n line lines hopen first ih =>
      rcases List.mem_cons.mp h with rfl | hmem
      · exact ⟨n, free, hopen.1, Nat.lt_add_of_pos_right (Nat.succ_pos _), rfl⟩
      · obtain ⟨trigger, floor, hfloor, htrigger, heq⟩ := ih hmem
        exact ⟨trigger, floor, hfloor, by rw [List.length_cons]; omega, heq⟩
  | case3 free n line lines _ ih =>
      obtain ⟨trigger, floor, hfloor, htrigger, heq⟩ := ih h
      exact ⟨trigger, floor, hfloor, by rw [List.length_cons]; omega, heq⟩

/-! ## Documents -/

/-- The calls of a document lie on its lines, whatever the bounds are. -/
theorem lines_of_mem_calls {document : Document} {config : Config} {call : Span}
    (h : call ∈ calls document config) :
    call.start.line ≤ call.stop.line ∧ call.stop.line < document.lineCount := by
  obtain ⟨trigger, floor, hfloor, htrigger, rfl⟩ := exists_callAt_of_mem_callsFrom h
  rw [Nat.zero_add] at htrigger
  exact callAt_lines document config.limits htrigger hfloor

theorem coversFrom_calls (document : Document) {config : Config}
    (hlines : 0 < config.limits.callLines) :
    CoversFrom document config 0 0 (calls document config) :=
  callsFrom_covers hlines rfl (by simp)

/-- **The calls of a document cover its recognised lines.** They share no line with each other, every
    recognised line lies in exactly one of them, and each of them lies in the document, around the
    first recognised line in it, as far up and down as the bounds allow. -/
theorem calls_cover (document : Document) {config : Config}
    (hlimits : config.limits.check = .ok config.limits) :
    (calls document config).Pairwise (fun first second => first.stop.line < second.start.line) ∧
    (∀ line < document.lineCount, config.shapes.accepts (document.line line) = true →
      ∃ call ∈ calls document config, call.coversLine line = true ∧
        ∀ other ∈ calls document config, other.coversLine line = true → other = call) ∧
    ∀ call ∈ calls document config,
      (∃ trigger, call.IsAround document config trigger) ∧
      call.lineCount ≤ config.limits.callLookback + config.limits.callLines ∧
      call.LiesIn document := by
  have hlines : 0 < config.limits.callLines := (Limits.check_eq_ok_iff.mp hlimits).2 .callLines
  have hcovers : CoversFrom document config 0 0 (calls document config) :=
    callsFrom_covers hlines rfl (by simp)
  refine ⟨hcovers.pairwise, ?_, ?_⟩
  · intro line hline haccepts
    obtain ⟨call, hmem, hcall⟩ :=
      hcovers.exists_of_accepts line (Nat.zero_le _) (Nat.zero_le _) hline haccepts
    refine ⟨call, hmem, hcall, ?_⟩
    intro other hother hline'
    rw [Span.coversLine_iff] at hcall hline'
    rcases eq_or_of_pairwise hcovers.pairwise hother hmem with heq | hlt | hlt
    · exact heq
    · omega
    · omega
  · intro call hmem
    obtain ⟨trigger, hcall⟩ := hcovers.isAround hmem
    refine ⟨⟨trigger, hcall⟩, ?_, hcovers.liesIn call hmem⟩
    have hlookback := hcall.lookback_le
    have hstop := hcall.stop_lt
    rw [Span.lineCount]
    omega

/-- A call that is recognised by its second line, and ends on the third one. -/
theorem calls_cover_chained :
    ({} : Config).limits.check = .ok ({} : Config).limits ∧
    ∃ call ∈ calls ⟨[Bytes.ofString "log", Bytes.ofString ".Debug(1)", Bytes.ofString ";"]⟩ {},
      call = ⟨⟨0, 0⟩, ⟨2, 1⟩⟩ ∧ call.lineCount ≤ 205 := by
  have hlimits : ({} : Config).limits.check = .ok ({} : Config).limits := rfl
  have hmem : ⟨⟨0, 0⟩, ⟨2, 1⟩⟩
      ∈ calls ⟨[Bytes.ofString "log", Bytes.ofString ".Debug(1)", Bytes.ofString ";"]⟩ {} := by
    decide +kernel
  exact ⟨hlimits, _, hmem, rfl, ((calls_cover _ hlimits).2.2 _ hmem).2.1⟩

end LogMarkup
