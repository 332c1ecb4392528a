import LogMarkup.Proofs.Call.Extent
import LogMarkup.Proofs.Source.Prefix

/-!
# `LogMarkup.Proofs.Call.Prefix` — the end of a call in the first lines below it

The end of a call is looked for in a run of lines, and that run may go on far below the lines that
somebody is interested in. The walk over the items of the first lines meets the same items as the one
over all of them, until an item reaches over the end of the first lines. So a parenthesis that
balances the call in the first lines does so in all of them, too.

The semicolon behind the parenthesis is different. White space in front of it may go on below the first
lines, and then these do not tell whether the call ends at the parenthesis or somewhere below.

## Contents
- **Items.** `CodeItem.first_append`, the item at the head of the first lines and of all lines.
- **The walk.** `balance_append`.
- **The semicolon.** `callEnd?_append_cases` — the first lines settle where a call ends, or they are
  blank behind what they settle.
- **Windows.** `exists_callStop_eq`, for the first lines of the window of a call.
-/

namespace LogMarkup

open Ascii

variable {behind : Bytes}

/-! ## Items -/

namespace CodeItem

section

variable (hbehind : behind.FollowsLine)

include hbehind

/-- The escape of a character literal is looked for on its line, as long as the byte that is escaped stands
    there. -/
theorem characterWidth_backslash_append (c : UInt8) (text : Bytes) :
    characterWidth (backslash :: c :: (text ++ behind))
      = characterWidth (backslash :: c :: text) := by
  have hreach : ∀ rest : Bytes,
      ((c :: rest).take escapeReach).drop 1 = rest.take (escapeReach - 1) := fun _ => rfl
  have hbelow : Bytes.FollowsLine (behind.take (escapeReach - 1 - text.length)) :=
    hbehind.of_isPrefix (List.take_prefix _ _)
  let inside (b : UInt8) : Bool := b != apostrophe && b != lineFeed
  have hstop : ∀ b, (behind.take (escapeReach - 1 - text.length)).head? = some b →
      inside b = false := by
    intro b hb
    rw [hbelow b hb]
    rfl
  have hsearch : ∀ reach : Bytes,
      reach[(reach.takeWhile inside).length]? = (reach.dropWhile inside).head? := by
    intro reach
    rw [← Bytes.drop_length_takeWhile, List.head?_drop]
  have hbody := Bytes.takeWhile_append_of_head hstop (text.take (escapeReach - 1))
  have hclose : ((text.take (escapeReach - 1)).dropWhile inside
        ++ behind.take (escapeReach - 1 - text.length)).head? = some apostrophe ↔
      ((text.take (escapeReach - 1)).dropWhile inside).head? = some apostrophe :=
    Bytes.head?_append_eq_some_iff hbelow (by decide)
  rw [← Bytes.dropWhile_append_of_head hstop, ← hsearch, ← hsearch, hbody] at hclose
  simp only [characterWidth, if_pos, hreach, List.take_append]
  rw [hbody]
  exact if_congr hclose rfl rfl

/-- A character literal does not go on behind its line, unless it is the line feed that is escaped. -/
theorem characterWidth_append (text : Bytes) :
    characterWidth (text ++ behind) = characterWidth text ∨
      (text = [backslash] ∧ 4 ≤ characterWidth (text ++ behind)) := by
  cases text with
  | nil =>
      refine .inl ?_
      cases behind with
      | nil => rfl
      | cons c behind =>
          obtain rfl := hbehind c rfl
          simp [characterWidth, show ¬ lineFeed = backslash by decide]
  | cons b text =>
      by_cases hbackslash : b = backslash
      · subst hbackslash
        cases text with
        | cons c text => exact .inl (characterWidth_backslash_append hbehind c text)
        | nil =>
            simp only [List.cons_append, List.nil_append, characterWidth, if_pos]
            split
            · exact .inr ⟨trivial, Nat.le_add_left _ _⟩
            · exact .inl rfl
      · refine .inl ?_
        simp only [List.cons_append, characterWidth, if_neg hbackslash,
          Bytes.head?_append_eq_some_iff hbehind (show apostrophe ≠ lineFeed by decide)]

/-- **The item at the head of the first lines is the one of all lines**, or it reaches over the end of the
    first lines, and no parenthesis is left behind it there. -/
theorem first_append (b : UInt8) (rest : Bytes) :
    first b (rest ++ behind) = first b rest ∨
      (rest.length < (first b (rest ++ behind)).width ∧
        (∀ c, (first b (rest ++ behind)).kind ≠ .plain c) ∧ (∀ c, (first b rest).kind ≠ .plain c) ∧
        closeParen ∉ rest.drop ((first b rest).width - 1)) := by
  rcases Literal.read?_append hbehind 0 (b :: rest) with
    ⟨hlong, hshort⟩ | ⟨short, long, hlong, hshort, hextends⟩
  · rw [List.cons_append] at hlong
    simp only [first, hlong, hshort]
    by_cases hapostrophe : b = apostrophe
    · simp only [if_pos hapostrophe]
      rcases characterWidth_append hbehind rest with heq | ⟨rfl, hwide⟩
      · exact .inl (by rw [heq])
      · refine .inr ⟨?_, by simp, by simp, by decide⟩
        exact Nat.lt_of_lt_of_le (by decide) hwide
    · simp only [if_neg hapostrophe]
      refine .inl ?_
      have hstop : ∀ c, behind.head? = some c → (c != lineFeed) = false := by
        intro c hc
        rw [hbehind c hc]
        rfl
      simp only [Bytes.head?_append_eq_some_iff hbehind (show slash ≠ lineFeed by decide),
        Bytes.takeWhile_append_of_head hstop]
  · rw [List.cons_append] at hlong
    simp only [first, hlong, hshort]
    by_cases hsame : long = short
    · exact .inl (by rw [hsame])
    · -- The literal is cut off, so it takes all of the first lines.
      obtain ⟨hstop, hle⟩ := hextends.limit_le_stop hsame
      have hstart := Literal.start_of_read? hlong
      have hstart' := Literal.start_of_read? hshort
      rw [Literal.stop, hstart', List.length_cons] at hstop
      rw [Literal.stop, hstart, List.length_cons] at hle
      have hnil : rest.drop (short.width - 1) = [] := List.drop_eq_nil_iff.mpr (by omega)
      refine .inr ⟨by omega, by simp, by simp, ?_⟩
      rw [hnil]
      exact List.not_mem_nil

end

end CodeItem

/-! ## The walk -/

/-- **A parenthesis that balances a call in the first lines does so in all lines**, and if there is none
    in the first lines, the call ends behind them. -/
theorem balance_append (hbehind : behind.FollowsLine) (trigger opened closed start : Nat)
    (text : Bytes) :
    (∃ stop, balance trigger opened closed start text = some stop ∧
      balance trigger opened closed start (text ++ behind) = some stop) ∨
    (balance trigger opened closed start text = none ∧
      ∀ stop, balance trigger opened closed start (text ++ behind) = some stop →
        start + text.length < stop) := by
  fun_induction balance trigger opened closed start text with
  | case1 opened closed start =>
      refine .inr ⟨rfl, ?_⟩
      intro stop hstop
      exact lt_of_balance hstop
  | case2 opened closed start b rest item opened' closed' hclose =>
      refine .inl ⟨start + 1, rfl, ?_⟩
      rcases CodeItem.first_append hbehind b rest with hsame | ⟨-, -, hplain, -⟩
      · rw [List.cons_append, balance]
        simp only [hsame]
        exact if_pos hclose
      · exact absurd hclose.1 (hplain closeParen)
  | case3 opened closed start b rest item opened' closed' hopen ih =>
      rcases CodeItem.first_append hbehind b rest with hsame | ⟨hwide, hplain, -, hrest⟩
      · -- Both walks go on behind the same item.
        have hwidth : item.width ≤ rest.length + 1 := CodeItem.width_first_le b rest
        have hpos : 0 < item.width := CodeItem.width_first_pos b rest
        have hstep : balance trigger opened closed start (b :: rest ++ behind)
            = balance trigger opened' closed' (start + item.width)
                (rest.drop (item.width - 1) ++ behind) := by
          rw [List.cons_append, balance]
          simp only [hsame]
          rw [← List.drop_append_of_le_length (Nat.sub_le_iff_le_add.mpr hwidth)]
          exact if_neg hopen
        rw [hstep]
        refine ih.imp_right ?_
        rintro ⟨hnone, hlt⟩
        refine ⟨hnone, ?_⟩
        intro stop hstop
        have hbelow := hlt stop hstop
        rw [List.length_drop] at hbelow
        rw [List.length_cons]
        omega
      · -- The walk over all lines goes on below the first ones.
        refine .inr ⟨balance_eq_none hrest, ?_⟩
        intro stop hstop
        rw [List.cons_append, balance] at hstop
        simp only [hplain, false_and, if_false] at hstop
        have hlt := lt_of_balance hstop
        rw [List.length_cons]
        omega

/-! ## The semicolon -/

/-- A semicolon that is looked for up to a mark of the first lines does not depend on the others. -/
theorem withSemicolon_append {text : Bytes} {offset : Nat} {b : UInt8} (behind : Bytes)
    (hoffset : offset ≤ text.length) (hb : b ∈ text.drop offset) (hmark : isSpace b = false) :
    withSemicolon (text ++ behind) offset = withSemicolon text offset := by
  have hne : (text.drop offset).dropWhile isSpace ≠ [] := by
    intro hnil
    have hall := List.dropWhile_eq_nil_iff.mp hnil b hb
    rw [hmark] at hall
    exact absurd hall (by simp)
  have htake : (text.drop offset ++ behind).takeWhile isSpace
      = (text.drop offset).takeWhile isSpace := by
    rw [List.takeWhile_append, if_neg]
    intro hlength
    have hall := List.takeWhile_append_dropWhile (p := isSpace) (l := text.drop offset)
    have htotal := congrArg List.length hall
    rw [List.length_append] at htotal
    exact hne (List.length_eq_zero_iff.mp (by omega))
  have hdrop : (text.drop offset ++ behind).dropWhile isSpace
      = (text.drop offset).dropWhile isSpace ++ behind := by
    rw [List.dropWhile_append, if_neg]
    rwa [List.isEmpty_iff]
  unfold withSemicolon
  simp only [List.drop_append_of_le_length hoffset, htake, hdrop, List.head?_append_of_ne_nil _ hne]

/-- **The first lines settle where a call ends, or they are blank behind what they settle.** -/
theorem callEnd?_append_cases (trigger : Nat) (text : Bytes) :
    (∃ stop ≤ text.length, ∀ behind, Bytes.FollowsLine behind →
      callEnd? (text ++ behind) trigger = some stop) ∨
    ∃ middle ≤ text.length, (∀ b ∈ text.drop middle, isSpace b = true) ∧
      ∀ behind, Bytes.FollowsLine behind →
        middle ≤ (callEnd? (text ++ behind) trigger).getD (text ++ behind).length := by
  cases hbalance : balance trigger 0 0 0 text with
  | none =>
      refine .inr ⟨text.length, Nat.le_refl _, by simp, ?_⟩
      intro behind hbehind
      cases hend : callEnd? (text ++ behind) trigger with
      | none =>
          rw [Option.getD_none, List.length_append]
          exact Nat.le_add_right _ _
      | some stop =>
          obtain ⟨middle, hmiddle, rfl⟩ := Option.map_eq_some_iff.mp hend
          obtain ⟨offset, -, hget, rfl⟩ := exists_of_balance rfl hmiddle
          have hlt : offset < (text ++ behind).length := (List.getElem?_eq_some_iff.mp hget).1
          have hle : offset + 1 ≤ withSemicolon (text ++ behind) (offset + 1) :=
            (withSemicolon_bounds hlt).1
          rcases balance_append hbehind trigger 0 0 0 text with ⟨_, hsome, -⟩ | ⟨-, hbelow⟩
          · rw [hbalance] at hsome
            exact absurd hsome (by simp)
          · have hbehind' := hbelow _ hmiddle
            rw [Option.getD_some]
            omega
  | some middle =>
      obtain ⟨offset, -, hget, rfl⟩ := exists_of_balance rfl hbalance
      have hlt : offset < text.length := (List.getElem?_eq_some_iff.mp hget).1
      have hall : ∀ behind, Bytes.FollowsLine behind →
          callEnd? (text ++ behind) trigger = some (withSemicolon (text ++ behind) (offset + 1)) := by
        intro behind hbehind
        rcases balance_append hbehind trigger 0 0 0 text with ⟨stop, hsome, hsame⟩ | ⟨hnone, -⟩
        · obtain rfl := Option.some.inj (hbalance.symm.trans hsome)
          rw [callEnd?, hsame, Option.map_some]
        · rw [hbalance] at hnone
          exact absurd hnone (by simp)
      by_cases hblank : ∀ b ∈ text.drop (offset + 1), isSpace b = true
      · -- What follows the parenthesis may be a semicolon further down.
        refine .inr ⟨offset + 1, hlt, hblank, ?_⟩
        intro behind hbehind
        rw [hall behind hbehind, Option.getD_some]
        refine (withSemicolon_bounds ?_).1
        rw [List.length_append]
        omega
      · push Not at hblank
        obtain ⟨b, hb, hmark⟩ := hblank
        refine .inl ⟨withSemicolon text (offset + 1), (withSemicolon_bounds hlt).2, ?_⟩
        intro behind hbehind
        rw [hall behind hbehind, withSemicolon_append behind hlt hb (Bool.not_eq_true _ ▸ hmark)]

/-! ## Windows -/

/-- Where a call ends in the first lines of its window and those that go on behind them. -/
theorem exists_callStop_eq {document : Document} {limits : Limits} {trigger floor last : Nat}
    (hfloor : floor ≤ trigger) (htrigger : trigger < min last document.lineCount)
    (hle : last ≤ trigger + limits.callLines) :
    let first := Window.of document (callStart document limits trigger floor) last
    ∃ behind, Bytes.FollowsLine behind ∧
      callStop document limits trigger floor
        = (callEnd? (first.text ++ behind) ((first.lineStart? trigger).getD 0)).getD
            (first.text ++ behind).length := by
  intro first
  obtain ⟨-, -, hstart⟩ := callStart_bounds document limits hfloor
  have hfirst := Nat.lt_of_le_of_lt hstart htrigger
  obtain ⟨behind, hbehind, htext⟩ := Window.exists_text_eq_append hfirst hle
  refine ⟨behind, hbehind, ?_⟩
  rw [← htext, ← Window.lineStart?_eq hfirst hle htrigger]
  rfl

end LogMarkup
