import LogMarkup.Proofs.Call.Extent
import LogMarkup.Proofs.Literal.Decomposition

/-!
# `LogMarkup.Proofs.Call.Walk` — where the search for the end of a call has been

The search for the end of a call steps from item to item until a parenthesis balances the call. The items
that it comes to are its walk. Where it meets a string literal it reads the same one as the search for
literals does, but it also meets comments and character literals, and steps over these as a whole, whereas
the search for literals goes through them byte by byte.

So the two part only where a literal starts inside of a comment or a character literal. If that literal ends
there, too, the two meet again behind it. If it goes on, the search for literals is in a string where the
walk is in code, and nothing further down can be relied on.

## Contents
- **The walk.** `PlacedItem` and `walk`, with `exists_first_of_mem_walk`, `pairwise_walk` and
  `stop_lt_of_mem_walk`.
- **Two searches.** `PlacedItem.Hides` and `IsMisled`, and `mem_walk_or_isMisled` — the walk enters every
  literal in front of the end of the call, or the search for literals was misled.
- **Calls.** `callWalk`, the walk of a call, and `callStop_of_balance`, for calls that are balanced.
-/

namespace LogMarkup

open Ascii

/-! ## The walk -/

/-- An item and its offset in a text. -/
structure PlacedItem where
  start : Nat
  item : CodeItem
deriving Repr, DecidableEq

/-- The offset behind the item. -/
def PlacedItem.stop (placed : PlacedItem) : Nat := placed.start + placed.item.width

/-- The items that `balance` comes to, the last of which is the parenthesis that balances the call, if
    there is one. -/
def walk (trigger opened closed start : Nat) (text : Bytes) : List PlacedItem :=
  match text with
  | [] => []
  | b :: rest =>
    let item := CodeItem.first b rest
    let opened := if item.kind = .plain openParen then opened + 1 else opened
    let closed := if item.kind = .plain closeParen then closed + 1 else closed
    if item.kind = .plain closeParen ∧ trigger ≤ start ∧ 0 < opened ∧ opened ≤ closed then
      [⟨start, item⟩]
    else
      ⟨start, item⟩ :: walk trigger opened closed (start + item.width) (rest.drop (item.width - 1))
termination_by text.length
decreasing_by
  simp only [List.length_drop, List.length_cons]
  omega

section

variable {whole text : Bytes} {trigger opened closed start stop : Nat} {placed : PlacedItem}

/-- Each item of a walk is the one at the head of the text behind its offset. -/
theorem exists_first_of_mem_walk (htext : whole.drop start = text)
    (h : placed ∈ walk trigger opened closed start text) :
    ∃ b rest, whole.drop placed.start = b :: rest ∧ placed.item = CodeItem.first b rest := by
  fun_induction walk trigger opened closed start text with
  | case1 => exact absurd h (by simp)
  | case2 opened closed start b rest item opened' closed' _ =>
      obtain rfl := List.mem_singleton.mp h
      exact ⟨b, rest, htext, rfl⟩
  | case3 opened closed start b rest item opened' closed' _ ih =>
      rcases List.mem_cons.mp h with rfl | hmem
      · exact ⟨b, rest, htext, rfl⟩
      · exact ih (Bytes.drop_add_of_drop_eq_cons htext (CodeItem.width_first_pos b rest)) hmem

theorem le_start_of_mem_walk (h : placed ∈ walk trigger opened closed start text) :
    start ≤ placed.start := by
  fun_induction walk trigger opened closed start text with
  | case1 => exact absurd h (by simp)
  | case2 => exact Nat.le_of_eq (congrArg PlacedItem.start (List.mem_singleton.mp h)).symm
  | case3 opened closed start b rest item opened' closed' _ ih =>
      rcases List.mem_cons.mp h with rfl | hmem
      · exact Nat.le_refl _
      · exact (Nat.le_add_right _ _).trans (ih hmem)

/-- The items of a walk follow one another without sharing a byte. -/
theorem pairwise_walk (trigger opened closed start : Nat) (text : Bytes) :
    (walk trigger opened closed start text).Pairwise fun first second =>
      first.stop ≤ second.start := by
  fun_induction walk trigger opened closed start text with
  | case1 => exact .nil
  | case2 => exact List.pairwise_singleton _ _
  | case3 opened closed start b rest item opened' closed' _ ih =>
      refine List.pairwise_cons.mpr ⟨?_, ih⟩
      intro second hsecond
      exact le_start_of_mem_walk hsecond

/-- **The walk ends with the parenthesis that balances the call**, and all other items end in front of it. -/
theorem stop_lt_of_mem_walk (hbalance : balance trigger opened closed start text = some stop)
    (h : placed ∈ walk trigger opened closed start text) :
    placed.stop < stop ∨ (placed.stop = stop ∧ placed.item = ⟨.plain closeParen, 1⟩) := by
  fun_induction walk trigger opened closed start text with
  | case1 => exact absurd h (by simp)
  | case2 opened closed start b rest item opened' closed' hclose =>
      have hstop : balance trigger opened closed start (b :: rest) = some (start + 1) :=
        balance_of_closes hclose
      have hitem : item = ⟨.plain closeParen, 1⟩ := (CodeItem.first_of_kind_plain hclose.1).2
      obtain rfl := Option.some.inj (hstop.symm.trans hbalance)
      obtain rfl := List.mem_singleton.mp h
      exact .inr ⟨congrArg (fun item => start + CodeItem.width item) hitem, hitem⟩
  | case3 opened closed start b rest item opened' closed' hopen ih =>
      rw [balance_of_not_closes hopen] at hbalance
      rcases List.mem_cons.mp h with rfl | hmem
      · exact .inl (lt_of_balance hbalance)
      · exact ih hbalance hmem

/-! ## Two searches -/

/-- An offset is inside of a comment or a character literal. -/
structure PlacedItem.Hides (placed : PlacedItem) (offset : Nat) : Prop where
  kind : placed.item.kind = .comment ∨ placed.item.kind = .character
  start_lt : placed.start < offset
  lt_stop : offset < placed.stop

/-- Nothing is hidden where an item of the walk starts. -/
theorem not_hides_of_mem_walk {other : PlacedItem}
    (h : placed ∈ walk trigger opened closed start text)
    (hother : other ∈ walk trigger opened closed start text) : ¬ other.Hides placed.start := by
  intro hhides
  have hlow := hhides.start_lt
  have hhigh := hhides.lt_stop
  rcases eq_or_of_pairwise (pairwise_walk trigger opened closed start text) h hother with
    rfl | hbefore | hbehind
  · exact Nat.lt_irrefl _ hlow
  · have hstop : placed.start ≤ placed.stop := Nat.le_add_right _ _
    omega
  · exact absurd hhigh (Nat.not_lt.mpr hbehind)

/-- A comment starts with a slash and a character literal with an apostrophe. -/
theorem PlacedItem.Hides.head_eq {offset : Nat} {b : UInt8} {rest : Bytes}
    (h : placed.Hides offset) (hitem : placed.item = CodeItem.first b rest) :
    b = apostrophe ∨ b = slash := by
  have hkind := h.kind
  rw [hitem] at hkind
  rcases CodeItem.first_cases 0 b rest with ⟨_, -, hfirst⟩ | ⟨-, ⟨hb, -⟩ | ⟨hb, -⟩ | hfirst⟩
  · rw [hfirst] at hkind
    exact absurd hkind (by simp)
  · exact .inl hb
  · exact .inr hb
  · rw [hfirst] at hkind
    exact absurd hkind (by simp)

/-- The search for literals is misled in front of an offset, or at it: one of the literals that it has found
    starts inside of a comment or a character literal. Either it is the one at the offset, or it goes on
    behind the comment or the character literal. -/
def IsMisled (items : List PlacedItem) (literals : List Literal) (offset : Nat) : Prop :=
  ∃ placed ∈ items, ∃ literal ∈ literals, placed.Hides literal.start ∧ literal.start ≤ offset ∧
    (literal.start = offset ∨ placed.stop < literal.stop)

theorem IsMisled.mono {items items' : List PlacedItem} {literals literals' : List Literal}
    {offset : Nat} (h : IsMisled items literals offset) (hitems : items ⊆ items')
    (hliterals : literals ⊆ literals') : IsMisled items' literals' offset := by
  obtain ⟨placed, hplaced, literal, hliteral, hhides⟩ := h
  exact ⟨placed, hitems hplaced, literal, hliterals hliteral, hhides⟩

/-- **A literal that starts in an item is the item, or the item hides it.** -/
theorem CodeItem.first_or_hides {literal : Literal} {b : UInt8} {rest : Bytes}
    (htext : whole.drop start = b :: rest) (hmem : literal ∈ Literal.allFrom start (b :: rest))
    (hlt : literal.start < start + (first b rest).width) :
    (literal.start = start ∧ first b rest = ⟨.literal, literal.width⟩) ∨
      PlacedItem.Hides ⟨start, first b rest⟩ literal.start := by
  rcases first_cases start b rest with ⟨head, hhead, hitem⟩ | ⟨hnone, hkind⟩
  · have hstart := Literal.start_of_read? hhead
    rw [Literal.allFrom, hhead] at hmem
    rw [hitem] at hlt
    rcases List.mem_cons.mp hmem with rfl | hlater
    · exact .inl ⟨hstart, hitem⟩
    · have hle := (Literal.at?_of_mem_allFrom (Literal.drop_stop_of_read? htext hhead) hlater).1
      rw [Literal.stop, hstart] at hle
      exact absurd hlt (Nat.not_lt.mpr hle)
  · have hbehind := Literal.lt_start_of_mem_allFrom htext hnone hmem
    rcases hkind with ⟨-, hcharacter⟩ | ⟨-, hcomment⟩ | hplain
    · exact .inr ⟨.inr hcharacter, hbehind, hlt⟩
    · exact .inr ⟨.inl hcomment, hbehind, hlt⟩
    · rw [hplain] at hlt
      exact absurd hbehind (Nat.not_lt.mpr (Nat.le_of_lt_succ hlt))

/-- **The walk enters every literal that is found in front of the end of the call**, unless the search for
    literals was misled. -/
theorem mem_walk_or_isMisled {literal : Literal} (htext : whole.drop start = text)
    (hmem : literal ∈ Literal.allFrom start text)
    (hfront : ∀ stop, balance trigger opened closed start text = some stop → literal.start < stop) :
    ⟨literal.start, .literal, literal.width⟩ ∈ walk trigger opened closed start text ∨
      IsMisled (walk trigger opened closed start text) (Literal.allFrom start text)
        literal.start := by
  fun_induction walk trigger opened closed start text with
  | case1 => exact absurd hmem (by simp [Literal.allFrom])
  | case2 opened closed start b rest item opened' closed' hclose =>
      -- The parenthesis is one byte and hides nothing, so the literal is behind it.
      have hstop : balance trigger opened closed start (b :: rest) = some (start + 1) :=
        balance_of_closes hclose
      have hitem : item = ⟨.plain closeParen, 1⟩ := (CodeItem.first_of_kind_plain hclose.1).2
      have hlt : literal.start < start + item.width := by
        rw [hitem]
        exact hfront _ hstop
      rcases CodeItem.first_or_hides htext hmem hlt with ⟨-, hliteral⟩ | hhides
      · exact absurd (hitem.symm.trans hliteral) (by simp)
      · have hkind : item.kind = .comment ∨ item.kind = .character := hhides.kind
        rw [hitem] at hkind
        exact absurd hkind (by simp)
  | case3 opened closed start b rest item opened' closed' hopen ih =>
      rw [balance_of_not_closes hopen] at hfront
      have hpos : 0 < item.width := CodeItem.width_first_pos b rest
      have hdrop : (b :: rest).drop item.width = rest.drop (item.width - 1) := List.drop_cons hpos
      rcases Nat.lt_or_ge literal.start (start + item.width) with hin | hbelow
      · rcases CodeItem.first_or_hides htext hmem hin with ⟨hstart, hitem⟩ | hhides
        · rw [hstart]
          exact .inl (List.mem_cons.mpr (.inl (congrArg (PlacedItem.mk start) hitem.symm)))
        · exact .inr ⟨_, List.mem_cons_self, literal, hmem, hhides, Nat.le_refl _, .inl rfl⟩
      rcases Literal.allFrom_eq_append start item.width (b :: rest) with
        ⟨other, hother, hlt, hcross⟩ | ⟨front, hsplit, hbefore⟩
      · -- A literal crosses the end of the item, so it is not the item itself.
        rcases CodeItem.first_or_hides htext hother hlt with ⟨hstart, hitem⟩ | hhides
        · have hwidth : item.width = other.width := congrArg CodeItem.width hitem
          rw [Literal.stop, hstart, hwidth] at hcross
          exact absurd hcross (Nat.lt_irrefl _)
        · exact .inr ⟨_, List.mem_cons_self, other, hother, hhides, by omega, .inr hcross⟩
      · rw [hdrop] at hsplit
        have hlater : literal
            ∈ Literal.allFrom (start + item.width) (rest.drop (item.width - 1)) := by
          rw [hsplit] at hmem
          rcases List.mem_append.mp hmem with hin | hlater
          · have hle := hbefore literal hin
            have hwidth := literal.width_pos
            rw [Literal.stop] at hle
            omega
          · exact hlater
        rw [hsplit]
        refine (ih (Bytes.drop_add_of_drop_eq_cons htext hpos) hlater hfront).imp
          (List.mem_cons_of_mem _) ?_
        intro hmisled
        exact hmisled.mono (List.subset_cons_self _ _) (List.subset_append_right _ _)

end

/-! ## Calls -/

/-- The walk by which the end of a call is looked for. -/
def callWalk (document : Document) (limits : Limits) (trigger floor : Nat) : List PlacedItem :=
  walk (callOrigin document limits trigger floor) 0 0 0
    (callWindow document limits trigger floor).text

theorem callStop_of_balance {document : Document} {limits : Limits} {trigger floor middle : Nat}
    (h : balance (callOrigin document limits trigger floor) 0 0 0
      (callWindow document limits trigger floor).text = some middle) :
    callStop document limits trigger floor
      = withSemicolon (callWindow document limits trigger floor).text middle := by
  rw [callStop, callEnd?, h, Option.map_some, Option.getD_some]

end LogMarkup
