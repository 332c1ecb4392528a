import LogMarkup.Proofs.Call.Cover
import LogMarkup.Proofs.Call.Walk
import Mathlib.Data.List.Nodup
import Mathlib.Data.Nat.Find

/-!
# `LogMarkup.Proofs.Call.Nesting` — the parentheses in the extent of a call

A call ends at the first parenthesis by which no fewer are closed than were opened. Where every parenthesis
that is closed was opened in the call's lines, that is the one by which all of them are closed. But a call
can start in the middle of an expression, with parentheses to close that were opened further up. These
count, too, so that the numbers can be equal while a parenthesis is still open: for each one that stays
open, one was closed in front of it that had not been opened.

## Contents
- **Nesting.** `openers` and `closers`, `IsNested` and `IsPair`, with `exists_lone`, for more closing
  parentheses than opening ones, and `isPair_or_lone`.
- **The walk.** `openers_walk_le`, by induction over the walk, and `isPair_or_lone_of_mem_walk`.
- **Documents.** `position_stop_le`; `calls_nested` — every parenthesis that is opened in a call is closed in
  it, unless one in front of it is closed that was opened above the call — and `calls_cut_short`, where one
  is not.
-/

namespace LogMarkup

open Ascii

/-! ## Nesting -/

/-- The number of opening parentheses of a walk. -/
def openers (items : List PlacedItem) : Nat :=
  items.countP fun placed => placed.item.kind = .plain openParen

/-- The number of closing parentheses of a walk. -/
def closers (items : List PlacedItem) : Nat :=
  items.countP fun placed => placed.item.kind = .plain closeParen

/-- As many parentheses are closed as are opened, and none before it is opened. -/
structure IsNested (items : List PlacedItem) : Prop where
  openers_eq : openers items = closers items
  closers_le : ∀ n, closers (items.take n) ≤ openers (items.take n)

instance (items : List PlacedItem) : Decidable (IsNested items) :=
  decidable_of_iff (openers items = closers items ∧
      ∀ n < items.length, closers (items.take n) ≤ openers (items.take n)) <| by
    refine ⟨fun h => ⟨h.1, fun n => ?_⟩, fun h => ⟨h.openers_eq, fun n _ => h.closers_le n⟩⟩
    rcases Nat.lt_or_ge n items.length with hlt | hge
    · exact h.2 n hlt
    · rw [List.take_of_length_le hge]
      exact Nat.le_of_eq h.1.symm

/-- Two parentheses of a walk that belong together: those between the two are nested. -/
structure IsPair (items : List PlacedItem) (opener closer : PlacedItem) : Prop where
  opener_kind : opener.item.kind = .plain openParen
  closer_kind : closer.item.kind = .plain closeParen
  nested : ∃ front inside behind,
    items = front ++ opener :: (inside ++ closer :: behind) ∧ IsNested inside

section

variable {items front inside behind : List PlacedItem} {opener closer placed : PlacedItem}

theorem openers_nil : openers [] = 0 := rfl

theorem closers_nil : closers [] = 0 := rfl

theorem openers_append (first second : List PlacedItem) :
    openers (first ++ second) = openers first + openers second :=
  List.countP_append

theorem closers_append (first second : List PlacedItem) :
    closers (first ++ second) = closers first + closers second :=
  List.countP_append

theorem openers_cons (placed : PlacedItem) (items : List PlacedItem) :
    openers (placed :: items)
      = openers items + if placed.item.kind = .plain openParen then 1 else 0 := by
  simp only [openers, List.countP_cons, decide_eq_true_eq]

theorem closers_cons (placed : PlacedItem) (items : List PlacedItem) :
    closers (placed :: items)
      = closers items + if placed.item.kind = .plain closeParen then 1 else 0 := by
  simp only [closers, List.countP_cons, decide_eq_true_eq]

theorem kind_ne_closeParen (h : placed.item.kind = .plain openParen) :
    placed.item.kind ≠ .plain closeParen := by
  rw [h]
  decide

/-- Where more parentheses are closed than opened, there is one that closes none: all in front of it are
    nested. -/
theorem exists_lone (h : openers items < closers items) :
    ∃ inside closer behind, items = inside ++ closer :: behind ∧ IsNested inside ∧
      closer.item.kind = .plain closeParen := by
  have hexists : ∃ n, openers (items.take n) < closers (items.take n) :=
    ⟨items.length, by rwa [List.take_length]⟩
  -- The shortest beginning in which too many are closed ends with the parenthesis.
  have hleast := fun m => @Nat.find_min _ _ hexists m
  have hmore := Nat.find_spec hexists
  generalize Nat.find hexists = n at hleast hmore
  cases n with
  | zero => exact absurd hmore (by simp [openers, closers])
  | succ n =>
      have hbefore : closers (items.take n) ≤ openers (items.take n) :=
        Nat.le_of_not_lt (hleast n (Nat.lt_succ_self n))
      have hlt : n < items.length := by
        by_contra hle
        rw [List.take_of_length_le (by omega)] at hmore hbefore
        omega
      have htake : items.take (n + 1) = items.take n ++ [items[n]] :=
        List.take_succ_eq_append_getElem hlt
      have hsplit : items = items.take n ++ items[n] :: items.drop (n + 1) := by
        rw [← List.drop_eq_getElem_cons hlt, List.take_append_drop]
      rw [htake, openers_append, closers_append] at hmore
      have hkind : items[n].item.kind = .plain closeParen := by
        by_contra hother
        rw [closers_cons, closers_nil, if_neg hother] at hmore
        omega
      have hopen : items[n].item.kind ≠ .plain openParen := fun h => kind_ne_closeParen h hkind
      rw [openers_cons, closers_cons, openers_nil, closers_nil, if_neg hopen, if_pos hkind] at hmore
      refine ⟨items.take n, items[n], items.drop (n + 1), hsplit, ⟨by omega, ?_⟩, hkind⟩
      intro m
      rw [List.take_take]
      exact Nat.le_of_not_lt (hleast _ (by omega))

/-- An item that a walk has only once splits it in one way. -/
theorem eq_of_split {front' behind' : List PlacedItem} (hnodup : (front ++ placed :: behind).Nodup)
    (heq : front ++ placed :: behind = front' ++ placed :: behind') :
    front = front' ∧ behind = behind' := by
  have hnot := (List.nodup_cons.mp (List.nodup_middle.mp hnodup)).1
  rw [List.mem_append, not_or] at hnot
  obtain ⟨hfront, -, hbehind⟩ := (List.append_cons_inj_of_notMem hnot.1 hnot.2).mp heq
  exact ⟨hfront, hbehind⟩

/-- A parenthesis behind nested ones closes none of them. -/
theorem not_isPair_of_isNested (hnodup : (inside ++ closer :: behind).Nodup) (h : IsNested inside)
    (opener : PlacedItem) : ¬ IsPair (inside ++ closer :: behind) opener closer := by
  rintro ⟨hopener, -, front, between, rest, heq, hnested⟩
  rw [← List.cons_append, ← List.append_assoc] at heq
  have hfront := (eq_of_split hnodup heq).1
  -- One more would be opened than closed, from that parenthesis on.
  have hall := h.openers_eq
  have hbefore := h.closers_le front.length
  rw [hfront, List.take_left] at hbefore
  rw [hfront, openers_append, closers_append] at hall
  have hinside := hnested.openers_eq
  rw [openers_cons, closers_cons, if_pos hopener, if_neg (kind_ne_closeParen hopener)] at hall
  omega

/-- A parenthesis in front of nested ones is closed by none of them. -/
theorem not_isPair_of_isNested_drop (hnodup : items.Nodup) {n : Nat} (hget : items[n]? = some opener)
    (h : IsNested (items.drop (n + 1))) (closer : PlacedItem) : ¬ IsPair items opener closer := by
  rintro ⟨-, hcloser, before, between, rest, heq, hnested⟩
  obtain ⟨hlt, hopener⟩ := List.getElem?_eq_some_iff.mp hget
  have hsplit : items = items.take n ++ opener :: items.drop (n + 1) := by
    rw [← hopener, ← List.drop_eq_getElem_cons hlt, List.take_append_drop]
  have hbehind := (eq_of_split (hsplit ▸ hnodup) (hsplit.symm.trans heq)).2
  -- One more would be closed than opened, up to that parenthesis.
  have hopen : closer.item.kind ≠ .plain openParen := fun hkind => kind_ne_closeParen hkind hcloser
  have hall := h.closers_le (between.length + 1)
  rw [hbehind, List.append_cons, List.take_left' (by simp), openers_append, closers_append,
    openers_cons, closers_cons, openers_nil, closers_nil, if_neg hopen, if_pos hcloser] at hall
  have hbetween := hnested.openers_eq
  omega

theorem IsPair.mem (h : IsPair items opener closer) : closer ∈ items := by
  obtain ⟨front, inside, behind, rfl, -⟩ := h.nested
  exact List.mem_append_right _ (List.mem_cons_of_mem _ (List.mem_append_right _ List.mem_cons_self))

/-- **A parenthesis that is opened is closed**, if as many are closed in all, or else one in front of it is
    closed that was not opened. -/
theorem isPair_or_lone (hnodup : items.Nodup) (hcount : openers items ≤ closers items)
    (hsplit : items = front ++ opener :: behind) (hkind : opener.item.kind = .plain openParen) :
    (∃ closer, IsPair items opener closer) ∨
      ∃ closer ∈ front, closer.item.kind = .plain closeParen ∧
        ∀ other, ¬ IsPair items other closer := by
  rcases Nat.lt_or_ge (openers front) (closers front) with hmore | hfew
  · obtain ⟨inside, closer, rest, hfront, hnested, hcloser⟩ := exists_lone hmore
    have hitems : items = inside ++ closer :: (rest ++ opener :: behind) := by
      rw [hsplit, hfront, List.append_assoc, List.cons_append]
    refine .inr ⟨closer, ?_, hcloser, ?_⟩
    · rw [hfront]
      exact List.mem_append_right _ List.mem_cons_self
    · rw [hitems] at hnodup ⊢
      exact not_isPair_of_isNested hnodup hnested
  · rw [hsplit, openers_append, closers_append, openers_cons, closers_cons, if_pos hkind,
      if_neg (kind_ne_closeParen hkind)] at hcount
    have hmore : openers behind < closers behind := by omega
    obtain ⟨inside, closer, rest, hbehind, hnested, hcloser⟩ := exists_lone hmore
    exact .inl ⟨closer, hkind, hcloser, front, inside, rest, hbehind ▸ hsplit, hnested⟩

end

/-! ## The walk -/

section

variable {text : Bytes} {trigger opened closed start stop : Nat}

theorem nodup_walk (trigger opened closed start : Nat) (text : Bytes) :
    (walk trigger opened closed start text).Nodup := by
  fun_induction walk trigger opened closed start text with
  | case1 => exact List.nodup_nil
  | case2 => exact List.nodup_singleton _
  | case3 opened closed start b rest item opened' closed' _ ih =>
      refine List.nodup_cons.mpr ⟨?_, ih⟩
      intro hmem
      have hle : start + item.width ≤ start := le_start_of_mem_walk hmem
      have hpos : 0 < item.width := CodeItem.width_first_pos b rest
      omega

theorem ite_add_one {p : Prop} [Decidable p] (n : Nat) :
    (if p then n + 1 else n) = n + if p then 1 else 0 := by
  split <;> rfl

/-- **Where the walk finds the end of a call, no fewer parentheses were closed than opened.** -/
theorem openers_walk_le (h : balance trigger opened closed start text = some stop) :
    openers (walk trigger opened closed start text) + opened
      ≤ closers (walk trigger opened closed start text) + closed := by
  -- What was counted in front of the walk goes into the two numbers that it starts with.
  fun_induction walk trigger opened closed start text with
  | case1 => exact absurd h (by simp [balance])
  | case2 opened closed start b rest item opened' closed' hclose =>
      have hopened : opened' = opened + if item.kind = .plain openParen then 1 else 0 :=
        ite_add_one opened
      have hclosed : closed' = closed + if item.kind = .plain closeParen then 1 else 0 :=
        ite_add_one closed
      have hle := hclose.2.2.2
      rw [openers_cons, closers_cons, openers_nil, closers_nil]
      simp only
      omega
  | case3 opened closed start b rest item opened' closed' hopen ih =>
      have hopened : opened' = opened + if item.kind = .plain openParen then 1 else 0 :=
        ite_add_one opened
      have hclosed : closed' = closed + if item.kind = .plain closeParen then 1 else 0 :=
        ite_add_one closed
      rw [balance_of_not_closes hopen] at h
      have hbehind := ih h
      rw [openers_cons, closers_cons]
      simp only
      omega

/-- **Each parenthesis that the walk sees opened is closed**, if the call is balanced, or else one in front
    of it is closed that the walk has not seen opened. -/
theorem isPair_or_lone_of_mem_walk {opener : PlacedItem}
    (hbalance : balance trigger 0 0 start text = some stop)
    (hmem : opener ∈ walk trigger 0 0 start text) (hkind : opener.item.kind = .plain openParen) :
    (∃ closer ∈ walk trigger 0 0 start text, IsPair (walk trigger 0 0 start text) opener closer) ∨
      ∃ closer ∈ walk trigger 0 0 start text, closer.stop ≤ opener.start ∧
        closer.item.kind = .plain closeParen ∧
        ∀ other, ¬ IsPair (walk trigger 0 0 start text) other closer := by
  have hcount := openers_walk_le hbalance
  have hnodup := nodup_walk trigger 0 0 start text
  have hpairwise := pairwise_walk trigger 0 0 start text
  generalize walk trigger 0 0 start text = walked at hmem hcount hnodup hpairwise ⊢
  obtain ⟨front, behind, hsplit⟩ := List.append_of_mem hmem
  rcases isPair_or_lone hnodup hcount hsplit hkind with
    ⟨closer, hpair⟩ | ⟨closer, hfront, hclose, hlone⟩
  · exact .inl ⟨closer, hpair.mem, hpair⟩
  · rw [hsplit] at hpairwise
    have hstop := (List.pairwise_append.mp hpairwise).2.2 closer hfront opener List.mem_cons_self
    refine .inr ⟨closer, ?_, hstop, hclose, hlone⟩
    rw [hsplit]
    exact List.mem_append_left _ hfront

end

/-! ## Documents -/

/-- The items of a balanced call end in front of the end of the call, or at it. -/
theorem position_stop_le {document : Document} {limits : Limits} {call : Span}
    {trigger floor middle : Nat} {placed : PlacedItem}
    (heq : call = callAt document limits trigger floor)
    (hfirst : call.start.line < min (trigger + limits.callLines) document.lineCount)
    (hbalance : balance (callOrigin document limits trigger floor) 0 0 0
      (callWindow document limits trigger floor).text = some middle)
    (hmem : placed ∈ callWalk document limits trigger floor) :
    (callWindow document limits trigger floor).position placed.stop ≤ call.stop := by
  have hmiddle : placed.stop ≤ middle :=
    (stop_lt_of_mem_walk hbalance hmem).elim Nat.le_of_lt fun h => Nat.le_of_eq h.1
  have hsemicolon : middle ≤ callStop document limits trigger floor := by
    obtain ⟨offset, -, hget, rfl⟩ := exists_of_balance rfl hbalance
    rw [callStop_of_balance hbalance]
    exact (withSemicolon_bounds (List.getElem?_eq_some_iff.mp hget).1).1
  have hstop := callStop_le document limits trigger floor
  have hlast := hmiddle.trans hsemicolon
  rw [← position_callStop heq]
  rw [callWindow_eq heq] at hstop ⊢
  exact (Window.position_le_iff hfirst (hlast.trans hstop) hstop).mpr hlast

/-- **A call does not end in the middle of its own arguments**, unless it closes parentheses that were opened
    above it. If the call is balanced, each parenthesis that is opened in it is closed in it, or in front of
    that one stands a parenthesis that closes none of the call. -/
theorem calls_nested {document : Document} {config : Config} {call : Span}
    (hlimits : config.limits.check = .ok config.limits) (hcall : call ∈ calls document config) :
    ∃ trigger floor, call = callAt document config.limits trigger floor ∧
      call.IsAround document config trigger ∧
      let window := callWindow document config.limits trigger floor
      let walked := callWalk document config.limits trigger floor
      ((callEnd? window.text (callOrigin document config.limits trigger floor)).isSome →
        ∀ opener ∈ walked, opener.item.kind = .plain openParen →
          (∃ closer ∈ walked, IsPair walked opener closer ∧
              window.position closer.stop ≤ call.stop) ∨
            ∃ closer ∈ walked, closer.stop ≤ opener.start ∧
              closer.item.kind = .plain closeParen ∧ ∀ other, ¬ IsPair walked other closer) := by
  have hlines : 0 < config.limits.callLines := (Limits.check_eq_ok_iff.mp hlimits).2 .callLines
  obtain ⟨trigger, floor, -, heq, haround⟩ :=
    (coversFrom_calls document hlines).exists_callAt call hcall
  have hfirst : call.start.line < min (trigger + config.limits.callLines) document.lineCount := by
    obtain ⟨hstart, hbelow⟩ := lines_of_mem_calls hcall
    have hbound := haround.stop_lt
    omega
  refine ⟨trigger, floor, heq, haround, ?_⟩
  intro window walked hsome opener hmem hkind
  obtain ⟨stop, hstop⟩ := Option.isSome_iff_exists.mp hsome
  obtain ⟨middle, hbalance, -⟩ := Option.map_eq_some_iff.mp hstop
  refine (isPair_or_lone_of_mem_walk hbalance hmem hkind).imp_left ?_
  rintro ⟨closer, hcloser, hpair⟩
  exact ⟨closer, hcloser, hpair, position_stop_le heq hfirst hbalance hcloser⟩

/-- Each parenthesis of `f.Debug(g(x), y);` is closed in the call. -/
theorem calls_nested_closed :
    ∃ document : Document, document = ⟨[Bytes.ofString "f.Debug(g(x), y);"]⟩ ∧
      ({} : Config).limits.check = .ok ({} : Config).limits ∧
      ∃ call ∈ calls document {}, ∃ trigger floor,
        call = callAt document ({} : Config).limits trigger floor ∧
        let window := callWindow document ({} : Config).limits trigger floor
        let walked := callWalk document ({} : Config).limits trigger floor
        (callEnd? window.text (callOrigin document ({} : Config).limits trigger floor)).isSome ∧
        ∀ opener ∈ walked, opener.item.kind = .plain openParen →
          (∃ closer ∈ walked, IsPair walked opener closer ∧
              window.position closer.stop ≤ call.stop) ∨
            ∃ closer ∈ walked, closer.stop ≤ opener.start ∧
              closer.item.kind = .plain closeParen ∧ ∀ other, ¬ IsPair walked other closer := by
  refine ⟨_, rfl, ?_⟩
  have hlimits : ({} : Config).limits.check = .ok ({} : Config).limits := rfl
  have hcall : ⟨⟨0, 0⟩, ⟨0, 17⟩⟩ ∈ calls ⟨[Bytes.ofString "f.Debug(g(x), y);"]⟩ {} := by
    decide +kernel
  obtain ⟨trigger, floor, heq, haround, hnested⟩ := calls_nested hlimits hcall
  refine ⟨hlimits, _, hcall, trigger, floor, heq, ?_⟩
  -- A call on the first line does not climb, whatever its floor is.
  obtain rfl : trigger = 0 := Nat.le_zero.mp haround.le_stop
  have hsome : (callEnd? (callWindow ⟨[Bytes.ofString "f.Debug(g(x), y);"]⟩ ({} : Config).limits 0
      floor).text (callOrigin ⟨[Bytes.ofString "f.Debug(g(x), y);"]⟩ ({} : Config).limits 0
        floor)).isSome := by
    rw [callOrigin, callWindow_eq heq]
    decide +kernel
  exact ⟨hsome, hnested hsome⟩

/-- A parenthesis that was opened two lines above is closed in the call, which ends in the middle of its own
    arguments: its first parenthesis is never closed. -/
theorem calls_cut_short :
    ∃ document : Document, document = ⟨[Bytes.ofString "foo(() => \x7b", Bytes.ofString "bar();",
        Bytes.ofString "\x7d).Debug(g(x), y);"]⟩ ∧
      ∃ call ∈ calls document {}, ∀ trigger floor,
        call = callAt document ({} : Config).limits trigger floor →
        call.IsAround document {} trigger →
        let window := callWindow document ({} : Config).limits trigger floor
        let walked := callWalk document ({} : Config).limits trigger floor
        let origin := callOrigin document ({} : Config).limits trigger floor
        (callEnd? window.text origin).isSome ∧
          ∃ opener ∈ walked, opener.item.kind = .plain openParen ∧ origin ≤ opener.start ∧
            window.position opener.stop ≤ call.stop ∧ ∀ closer, ¬ IsPair walked opener closer := by
  refine ⟨_, rfl, ⟨⟨2, 0⟩, ⟨2, 13⟩⟩, by decide +kernel, ?_⟩
  intro trigger floor heq haround window walked origin
  obtain rfl : trigger = 2 := Nat.le_antisymm haround.le_stop haround.start_le
  simp only [window, walked, origin, callWalk, callOrigin, callWindow_eq heq]
  refine ⟨by decide +kernel, ⟨8, .plain openParen, 1⟩, by decide +kernel, rfl, by decide +kernel,
    by decide +kernel, ?_⟩
  exact not_isPair_of_isNested_drop (nodup_walk _ 0 0 0 _) (n := 8) (by decide +kernel)
    (by decide +kernel)

end LogMarkup
