import LogMarkup.Expression.Mode
import LogMarkup.Proofs.Expression.Printing

/-!
# `LogMarkup.Proofs.Expression.Detection` — when a content is read as a template

The search for a hole and the reader of templates walk over the same content in steps of their own. Both
take a backslash with the byte behind it, and both take two opening braces for a pair. But the search leaves
quoted text out, which means nothing to the reader, and the reader leaves brackets out, which mean nothing
to the search. What both agree on is said here without either of them: where a brace opens a hole.

Quoted text does not bring the two out of step. If the braces in it make pairs, the reader is behind them
where the search is; and if not, then the reader has found a hole there.

## Contents
- **Holes.** `Expression.HasHole`, a text in which a hole opens, with its inversions.
- **The search.** `Mode.hasHole_of_decideFrom` — a hole that was found is one.
- **The reader.** `Expression.exists_mark_of_hasHole`, and from both `Mode.exists_mark_openBrace` — a
  content that is read as a template has a hole.
- **Prose.** `Bytes.HasOddRun` and `Mode.IsProse`, with `Mode.passWidth_of_isProse`, and
  `Mode.ofContent_eq_template_iff` — where no apostrophe opens quoted text, an odd run of braces in front of
  a hole head makes a template, and nothing else does.
-/

namespace LogMarkup

open Ascii

/-! ## Holes -/

/-- A text in which a hole opens: a brace that no backslash takes along, and that has no partner left when
    the braces are taken in pairs from the left. -/
inductive Expression.HasHole : Bytes → Prop
  | here {rest : Bytes} : rest.head? ≠ some openBrace → HasHole (openBrace :: rest)
  | doubled {rest : Bytes} : HasHole rest → HasHole (openBrace :: openBrace :: rest)
  | escaped {b : UInt8} {rest : Bytes} : HasHole rest → HasHole (backslash :: b :: rest)
  | plain {b : UInt8} {rest : Bytes} :
      b ≠ openBrace → b ≠ backslash → HasHole rest → HasHole (b :: rest)

namespace Expression.HasHole

variable {b : UInt8} {rest text behind body : Bytes}

theorem of_plain (h : HasHole (b :: rest)) (hopen : b ≠ openBrace) (hbackslash : b ≠ backslash) :
    HasHole rest := by
  cases h with
  | here => exact absurd rfl hopen
  | doubled => exact absurd rfl hopen
  | escaped => exact absurd rfl hbackslash
  | plain _ _ h => exact h

theorem of_escaped (h : HasHole (backslash :: rest)) : HasHole (rest.drop 1) := by
  cases h with
  | escaped h => exact h
  | plain _ hbackslash _ => exact absurd rfl hbackslash

theorem of_doubled (h : HasHole (openBrace :: openBrace :: rest)) : HasHole rest := by
  cases h with
  | here hhead => exact absurd rfl hhead
  | doubled h => exact h
  | plain hopen _ _ => exact absurd rfl hopen

theorem ne_nil (h : HasHole text) : text ≠ [] := by
  cases h <;> exact List.cons_ne_nil _ _

/-- A hole behind a text opens in the whole, too, or else one opens earlier: a brace that the text ends with
    has no partner in what is behind. -/
theorem append_left (hbehind : HasHole behind) (hhead : behind.head? ≠ some openBrace)
    (h : Bytes.IsUnits (· ≠ backslash) (fun b _ => b = backslash) body) : HasHole (body ++ behind) := by
  -- The same for one more brace in front, which the text may or may not have a partner for.
  suffices hboth : HasHole (body ++ behind) ∧ HasHole (openBrace :: (body ++ behind)) from hboth.1
  induction h with
  | nil => exact ⟨hbehind, .here hhead⟩
  | @single b rest hb _ ih =>
      by_cases hopen : b = openBrace
      · subst hopen
        exact ⟨ih.2, .doubled ih.1⟩
      · refine ⟨.plain hopen hb ih.1, .here ?_⟩
        simpa using hopen
  | @pair b c rest hb _ ih =>
      subst hb
      refine ⟨.escaped ih.1, .here ?_⟩
      show some backslash ≠ some openBrace
      decide

end Expression.HasHole

/-! ## The search -/

namespace Mode

/-- What quoted text on one line is made of, in front of its closing quote. -/
theorem takesUnits_moveQuotedOnLine (closer : UInt8) : Enclosed.TakesUnits (moveQuotedOnLine closer) ()
    (fun b => b ≠ backslash ∧ b ≠ lineFeed ∧ b ≠ closer) (fun b _ => b = backslash) := by
  refine ⟨?_, ?_⟩
  · intro b rest next
    unfold moveQuotedOnLine
    split_ifs <;> simp_all
  · intro b c rest next
    unfold moveQuotedOnLine
    split_ifs <;> simp_all

theorem eq_closer_of_moveQuotedOnLine {closer b : UInt8} {state : Unit} {rest : Bytes}
    (h : moveQuotedOnLine closer state b rest = .close) : b = closer := by
  unfold moveQuotedOnLine at h
  split_ifs at h
  assumption

/-- Quoted text that is closed on its line, with its closing quote and what is behind it. -/
theorem exists_eq_of_closed {closer : UInt8} {text : Bytes}
    (h : (Enclosed.read (moveQuotedOnLine closer) () text).closed = true) :
    ∃ behind, text = (Enclosed.read (moveQuotedOnLine closer) () text).content ++ closer :: behind ∧
      Bytes.IsUnits (fun b => b ≠ backslash ∧ b ≠ lineFeed ∧ b ≠ closer) (fun b _ => b = backslash)
        (Enclosed.read (moveQuotedOnLine closer) () text).content := by
  obtain ⟨b, behind, htext, hunits, hclose⟩ :=
    (takesUnits_moveQuotedOnLine closer).closes_behind_units h
  obtain rfl := eq_closer_of_moveQuotedOnLine hclose
  exact ⟨behind, htext, hunits⟩

/-- A hole behind the bytes that the search passes over together opens in the whole text. -/
theorem hasHole_of_passWidth {before rest : Bytes} {b : UInt8}
    (h : Expression.HasHole (rest.drop (passWidth before b rest - 1))) :
    Expression.HasHole (b :: rest) := by
  unfold passWidth at h
  split_ifs at h with hbackslash hdoubled hquote
  · subst hbackslash
    cases rest with
    | nil => exact absurd rfl h.ne_nil
    | cons c rest => exact .escaped h
  · obtain ⟨rfl, hhead⟩ := hdoubled
    obtain ⟨rest, rfl⟩ := List.head?_eq_some_iff.mp hhead
    exact .doubled h
  · obtain ⟨rfl, -⟩ := hquote
    extract_lets enclosed at h
    refine .plain (by decide) hbackslash ?_
    by_cases hclosed : enclosed.closed = true
    · -- What is behind the quoted text is behind its closing quote.
      obtain ⟨behind, hrest, hunits⟩ := exists_eq_of_closed hclosed
      have hdrop : rest.drop (enclosed.content.length + 1) = behind := by
        rw [hrest, ← List.drop_drop, List.drop_left]
        rfl
      rw [if_pos hclosed] at h
      change Expression.HasHole (rest.drop (enclosed.content.length + 1)) at h
      rw [hdrop] at h
      rw [hrest]
      refine Expression.HasHole.append_left (.plain (by decide) hbackslash h) ?_
        (hunits.imp fun _ hb => hb.1)
      show some apostrophe ≠ some openBrace
      decide
    · rwa [if_neg hclosed] at h
  · by_cases hopen : b = openBrace
    · subst hopen
      exact .here fun hhead => hdoubled ⟨rfl, hhead⟩
    · exact .plain hopen hbackslash h

/-- **A hole that the search finds is one.** -/
theorem hasHole_of_decideFrom {before text : Bytes} (h : decideFrom before text = .template) :
    Expression.HasHole text := by
  fun_induction decideFrom before text with
  | case1 => exact absurd h (by simp)
  | case2 before b rest hhole =>
      obtain ⟨rfl, hhead⟩ := hhole
      refine .here fun hopen => ?_
      rw [hopen] at hhead
      exact absurd hhead (by decide)
  | case3 before b rest _ more ih => exact hasHole_of_passWidth (ih h)

end Mode

/-! ## The reader -/

namespace Expression

/-- What the walk over plain text in brackets does with the byte at the head of a text in which a hole
    opens: it stops there, or passes over what the hole does not need. -/
theorem HasHole.bracketed_cases {b : UInt8} {rest : Bytes} (h : HasHole (b :: rest)) (depth : Nat) :
    moveBracketed depth b rest = .stopBefore ∨
      (HasHole rest ∧
        (moveBracketed depth b rest = .close ∨ ∃ next, moveBracketed depth b rest = .single next)) ∨
      (HasHole (rest.drop 1) ∧ moveBracketed depth b rest = .pair depth) := by
  unfold moveBracketed
  by_cases hbackslash : b = backslash
  · subst hbackslash
    exact .inr (.inr ⟨h.of_escaped, if_pos rfl⟩)
  rw [if_neg hbackslash]
  by_cases hopen : b = openBrace
  · subst hopen
    rw [if_pos rfl]
    by_cases hhead : rest.head? = some openBrace
    · obtain ⟨rest, rfl⟩ := List.head?_eq_some_iff.mp hhead
      exact .inr (.inr ⟨h.of_doubled, if_pos rfl⟩)
    · exact .inl (if_neg hhead)
  rw [if_neg hopen]
  refine .inr (.inl ⟨h.of_plain hopen hbackslash, ?_⟩)
  by_cases hbracket : b = openBracket
  · exact .inr ⟨depth + 1, if_pos hbracket⟩
  rw [if_neg hbracket]
  by_cases hclose : b = closeBracket
  · rw [if_pos hclose]
    by_cases hdepth : depth = 0
    · exact .inl (if_pos hdepth)
    · exact .inr ⟨depth - 1, if_neg hdepth⟩
  · exact .inr ⟨depth, if_neg hclose⟩

/-- The walk over plain text in brackets does not pass over a hole. -/
theorem HasHole.drop_bracketed {text : Bytes} (h : HasHole text) (depth : Nat) :
    HasHole (text.drop ((Enclosed.read moveBracketed depth text).content.length
      + if (Enclosed.read moveBracketed depth text).closed then 1 else 0)) := by
  fun_induction Enclosed.read moveBracketed depth text with
  | case1 => exact h
  | case2 depth b rest hmove =>
      have hcases := h.bracketed_cases depth
      rw [hmove] at hcases
      show HasHole rest
      simpa using hcases
  | case3 => exact h
  | case4 depth b rest hmove =>
      have hcases := h.bracketed_cases depth
      rw [hmove] at hcases
      exact absurd hcases (by simp)
  | case5 depth b rest next hmove ih =>
      have hcases := h.bracketed_cases depth
      rw [hmove] at hcases
      have hrest : HasHole rest := by simpa using hcases
      show HasHole ((b :: rest).drop (_ + 1 + _))
      rw [Nat.add_right_comm]
      exact ih hrest
  | case6 depth b next hmove =>
      have hcases := h.bracketed_cases depth
      rw [hmove] at hcases
      have hrest : HasHole [] := (by simpa using hcases : HasHole [] ∧ _).1
      exact absurd rfl hrest.ne_nil
  | case7 depth b next c rest hmove ih =>
      have hcases := h.bracketed_cases depth
      rw [hmove] at hcases
      have hrest : HasHole rest := (by simpa using hcases : HasHole rest ∧ _).1
      show HasHole ((b :: c :: rest).drop (_ + 1 + 1 + _))
      rw [Nat.add_right_comm, Nat.add_right_comm _ 1]
      exact ih hrest

/-- Nor do the bytes of plain text that belong together contain one. -/
theorem HasHole.drop_plainWidth {b : UInt8} {rest : Bytes} (h : HasHole (b :: rest))
    (hstart : ¬ isHoleStart b rest = true) : HasHole (rest.drop (plainWidth b rest - 1)) := by
  -- A brace that opens no hole is the first one of a pair.
  have hpair : b = openBrace → rest.head? = some openBrace := by
    intro hopen
    simpa [isHoleStart, hopen] using hstart
  unfold plainWidth
  by_cases hbackslash : b = backslash
  · subst hbackslash
    rw [if_pos rfl]
    exact h.of_escaped
  rw [if_neg hbackslash]
  by_cases hopen : b = openBrace
  · subst hopen
    obtain ⟨rest, rfl⟩ := List.head?_eq_some_iff.mp (hpair rfl)
    rw [if_pos ⟨by decide, rfl⟩]
    exact h.of_doubled
  have hrest := h.of_plain hopen hbackslash
  by_cases hdoubled : isBrace b = true ∧ rest.head? = some b
  · obtain ⟨rest, rfl⟩ := List.head?_eq_some_iff.mp hdoubled.2
    rw [if_pos hdoubled]
    exact hrest.of_plain hopen hbackslash
  rw [if_neg hdoubled]
  by_cases hbracket : b = openBracket ∧ rest.head? ≠ some openBrace
  · rw [if_pos hbracket]
    have hbehind := hrest.drop_bracketed 0
    extract_lets enclosed
    cases hclosed : enclosed.closed with
    | true =>
        rw [hclosed] at hbehind
        exact hbehind
    | false =>
        rw [hclosed] at hbehind
        exact hbehind
  · rw [if_neg hbracket]
    exact hrest

/-- **The reader finds a hole where one opens.** -/
theorem exists_mark_of_hasHole {before : Option UInt8} {start : Nat} {text : Bytes}
    (h : HasHole text) : ∃ offset, Token.mark offset openBrace ∈ templateTokensFrom before start text := by
  fun_induction templateTokensFrom before start text with
  | case1 => exact absurd rfl h.ne_nil
  | case2 before start b rest hstart body stop ih =>
      obtain rfl : b = openBrace := eq_of_beq (Bool.and_eq_true_iff.mp hstart).1
      exact ⟨start, List.mem_cons_self⟩
  | case3 before start b rest hstart hindex ih =>
      -- A bracket is no part of what opens a hole.
      have hplain : b ≠ openBrace ∧ b ≠ backslash := by
        rcases hindex.1 with rfl | rfl <;> decide
      obtain ⟨offset, hmem⟩ := ih (h.of_plain hplain.1 hplain.2)
      exact ⟨offset, List.mem_cons_of_mem _ hmem⟩
  | case4 before start b rest hstart hindex more ih => exact ih (h.drop_plainWidth hstart)

end Expression

/-- **A content that is read as a template has a hole.** Where the search for a hole has found one, the
    reader of templates finds one, too, so that there is a token for its brace. -/
theorem Mode.exists_mark_openBrace {content : Bytes} (h : ofContent content = .template) :
    ∃ offset, Token.mark offset openBrace ∈ Expression.tokens content := by
  rw [Expression.tokens, h]
  exact Expression.exists_mark_of_hasHole (hasHole_of_decideFrom h)

/-- A hole behind quoted text with two braces in it, which the search passes over and the reader takes for a
    pair. -/
theorem Mode.exists_mark_openBrace_quoted :
    ofContent (Bytes.ofString "'\x7b\x7b' [\x7b@m\x7d]") = .template ∧
      ∃ offset, Token.mark offset openBrace
        ∈ Expression.tokens (Bytes.ofString "'\x7b\x7b' [\x7b@m\x7d]") := by
  have hmode : ofContent (Bytes.ofString "'\x7b\x7b' [\x7b@m\x7d]") = .template := by decide +kernel
  exact ⟨hmode, exists_mark_openBrace hmode⟩

/-! ## Prose -/

/-- Whether a text has a run of opening braces, of odd length and as long as it can be, right in front of a
    byte that a hole starts with. -/
def Bytes.HasOddRun (text : Bytes) : Prop :=
  ∃ before n b behind, text = before ++ (List.replicate n openBrace ++ b :: behind) ∧
    before.getLast? ≠ some openBrace ∧ n % 2 = 1 ∧ Mode.isHoleHead b = true

namespace Bytes

variable {b c : UInt8} {rest before behind : Bytes}

theorem getLast?_ne_of_cons (h : (c :: before).getLast? ≠ some b) : before.getLast? ≠ some b := by
  intro hlast
  rw [List.getLast?_cons, hlast] at h
  exact h rfl

theorem getLast?_cons_ne (hne : before ≠ []) (h : before.getLast? ≠ some b) :
    (c :: before).getLast? ≠ some b := by
  cases before with
  | nil => exact absurd rfl hne
  | cons d before => rwa [List.getLast?_cons_cons]

/-- A hole head behind a brace ends a run of one. -/
theorem hasOddRun_of_isHoleHead (h : rest.head?.any Mode.isHoleHead = true) :
    HasOddRun (openBrace :: rest) := by
  cases rest with
  | nil => exact absurd h (by simp)
  | cons b behind => exact ⟨[], 1, b, behind, rfl, by simp, rfl, h⟩

/-- A pair of braces does not change whether a run is odd. -/
theorem hasOddRun_doubled_iff : HasOddRun (openBrace :: openBrace :: rest) ↔ HasOddRun rest := by
  constructor
  · rintro ⟨before, n, b, behind, htext, hbefore, hodd, hhead⟩
    match before, n with
    | [], 0 => exact absurd hodd (by decide)
    | [], 1 =>
        -- A brace is no hole head.
        obtain rfl : openBrace = b := (List.cons.inj (List.cons.inj htext).2).1
        exact absurd hhead (by decide)
    | [], n + 2 =>
        refine ⟨[], n, b, behind, ?_, by simp, by omega, hhead⟩
        exact (List.cons.inj (List.cons.inj htext).2).2
    | [c], n =>
        obtain rfl : openBrace = c := (List.cons.inj htext).1
        exact absurd rfl hbefore
    | c :: d :: before, n =>
        refine ⟨before, n, b, behind, ?_, ?_, hodd, hhead⟩
        · exact (List.cons.inj (List.cons.inj htext).2).2
        · exact getLast?_ne_of_cons (getLast?_ne_of_cons hbefore)
  · rintro ⟨before, n, b, behind, rfl, hbefore, hodd, hhead⟩
    by_cases hne : before = []
    · subst hne
      exact ⟨[], n + 2, b, behind, rfl, by simp, by omega, hhead⟩
    · refine ⟨openBrace :: openBrace :: before, n, b, behind, rfl, ?_, hodd, hhead⟩
      exact getLast?_cons_ne (List.cons_ne_nil _ _) (getLast?_cons_ne hne hbefore)

/-- A byte that neither begins a pair nor a hole does not belong to an odd run. -/
theorem hasOddRun_cons_iff (hhole : ¬ (c = openBrace ∧ rest.head?.any Mode.isHoleHead = true))
    (hpair : ¬ (c = openBrace ∧ rest.head? = some openBrace)) :
    HasOddRun (c :: rest) ↔ HasOddRun rest := by
  constructor
  · rintro ⟨before, n, b, behind, htext, hbefore, hodd, hhead⟩
    match before, n with
    | [], 0 => exact absurd hodd (by decide)
    | [], 1 =>
        obtain ⟨hc, rfl⟩ := List.cons.inj htext
        exact absurd ⟨hc, hhead⟩ hhole
    | [], n + 2 =>
        obtain ⟨hc, rfl⟩ := List.cons.inj htext
        exact absurd ⟨hc, rfl⟩ hpair
    | d :: before, n =>
        refine ⟨before, n, b, behind, ?_, getLast?_ne_of_cons hbefore, hodd, hhead⟩
        exact (List.cons.inj htext).2
  · rintro ⟨before, n, b, behind, rfl, hbefore, hodd, hhead⟩
    by_cases hne : before = []
    · subst hne
      refine ⟨[c], n, b, behind, rfl, ?_, hodd, hhead⟩
      intro hc
      -- The run is not empty, so that its first brace would make a pair.
      obtain ⟨m, rfl⟩ : ∃ m, n = m + 1 := ⟨n - 1, by omega⟩
      exact hpair ⟨Option.some.inj hc, rfl⟩
    · exact ⟨c :: before, n, b, behind, rfl, getLast?_cons_ne hne hbefore, hodd, hhead⟩

end Bytes

namespace Mode

/-- The word that a text ends with, or nothing if it ends with another byte. -/
def lastWord (text : Bytes) : Bytes := (text.reverse.takeWhile isWord).reverse

/-- Every apostrophe of a content is the last one on its line, or else it stands right behind a word that is
    not reserved. -/
def IsProse (content : Bytes) : Prop :=
  ∀ n < content.length, content[n]? = some apostrophe →
    apostrophe ∉ (content.drop (n + 1)).takeWhile (· != lineFeed) ∨
      (lastWord (content.take n) ≠ [] ∧ isKeyword (lastWord (content.take n)) = false)

instance (content : Bytes) : Decidable (IsProse content) :=
  inferInstanceAs (Decidable (∀ n < content.length, content[n]? = some apostrophe →
    apostrophe ∉ (content.drop (n + 1)).takeWhile (· != lineFeed) ∨
      (lastWord (content.take n) ≠ [] ∧ isKeyword (lastWord (content.take n)) = false)))

theorem isSpace_eq_false_of_isWord {b : UInt8} (h : isWord b = true) : isSpace b = false := by
  simp [isSpace, ne_of_class h (c := space) rfl, ne_of_class h (c := tab) rfl,
    ne_of_class h (c := lineFeed) rfl, ne_of_class h (c := formFeed) rfl,
    ne_of_class h (c := carriageReturn) rfl]

/-- Right behind a word, an operand may stand only if the word is reserved. -/
theorem isOperandPosition_of_lastWord {text : Bytes} (h : lastWord text ≠ []) :
    isOperandPosition text.reverse = isKeyword (lastWord text) := by
  unfold lastWord at h ⊢
  cases hreverse : text.reverse with
  | nil => exact absurd (by rw [hreverse]; rfl) h
  | cons b rest =>
      rw [hreverse] at h
      have hb : isWord b = true := by
        by_contra hb
        rw [List.takeWhile_cons_of_neg hb] at h
        exact h rfl
      rw [isOperandPosition, List.dropWhile_cons_of_neg (by simp [isSpace_eq_false_of_isWord hb])]
      exact if_pos hb

/-- Quoted text without backslashes that is closed on its line has its closing quote on that line. -/
theorem mem_takeWhile_of_closed {closer : UInt8} {text : Bytes} (hplain : backslash ∉ text)
    (hfeed : closer ≠ lineFeed)
    (h : (Enclosed.read (moveQuotedOnLine closer) () text).closed = true) :
    closer ∈ text.takeWhile (· != lineFeed) := by
  obtain ⟨behind, htext, hunits⟩ := exists_eq_of_closed h
  generalize (Enclosed.read (moveQuotedOnLine closer) () text).content = body at htext hunits
  subst htext
  have hbody : ∀ b ∈ body, (b != lineFeed) = true := by
    intro b hb
    have hplainBody : backslash ∉ body := fun hmem => hplain (List.mem_append_left _ hmem)
    exact bne_iff_ne.mpr (hunits.single_of_mem (fun c _ hc hpair => hplainBody (hpair ▸ hc)) b hb).2.1
  rw [List.takeWhile_append_of_pos hbody, List.takeWhile_cons_of_pos (by simpa using hfeed)]
  exact List.mem_append_right _ List.mem_cons_self

/-- In prose the search passes over pairs of braces and single bytes. -/
theorem passWidth_of_isProse {before rest : Bytes} {b : UInt8}
    (hprose : IsProse (before.reverse ++ b :: rest)) (hplain : backslash ∉ b :: rest) :
    passWidth before b rest = if b = openBrace ∧ rest.head? = some openBrace then 2 else 1 := by
  have hbackslash : b ≠ backslash := by
    rintro rfl
    exact hplain List.mem_cons_self
  rw [passWidth, if_neg hbackslash]
  by_cases hdoubled : b = openBrace ∧ rest.head? = some openBrace
  · rw [if_pos hdoubled, if_pos hdoubled]
  rw [if_neg hdoubled, if_neg hdoubled]
  by_cases hquote : b = apostrophe ∧ isOperandPosition before = true
  · obtain ⟨rfl, hoperand⟩ := hquote
    rw [if_pos ⟨rfl, hoperand⟩]
    extract_lets enclosed
    have hhere := hprose before.length (by simp) (by simp)
    rw [← List.length_reverse, List.take_left, ← List.drop_drop, List.drop_left] at hhere
    rcases hhere with hlast | ⟨hword, hname⟩
    · refine if_neg fun hclosed => hlast (mem_takeWhile_of_closed ?_ (by decide) hclosed)
      intro hmem
      exact hplain (List.mem_cons_of_mem _ hmem)
    · have hno := isOperandPosition_of_lastWord hword
      rw [List.reverse_reverse, hoperand, hname] at hno
      exact absurd hno (by simp)
  · rw [if_neg hquote]

/-- **In prose the search finds a hole behind an odd run of braces.** -/
theorem decideFrom_eq_template_iff {before text : Bytes} (hprose : IsProse (before.reverse ++ text))
    (hplain : backslash ∉ text) : decideFrom before text = .template ↔ text.HasOddRun := by
  fun_induction decideFrom before text with
  | case1 before =>
      refine ⟨fun h => absurd h (by simp), ?_⟩
      rintro ⟨before, n, b, behind, htext, -⟩
      exact absurd htext (by simp)
  | case2 before b rest hhole =>
      obtain ⟨rfl, hhead⟩ := hhole
      exact ⟨fun _ => Bytes.hasOddRun_of_isHoleHead hhead, fun _ => rfl⟩
  | case3 before b rest hhole more ih =>
      have hwidth := passWidth_of_isProse hprose hplain
      rw [ih ?_ fun hmem => hplain (List.mem_cons_of_mem _ (List.mem_of_mem_drop hmem))]
      · by_cases hdoubled : b = openBrace ∧ rest.head? = some openBrace
        · rw [if_pos hdoubled] at hwidth
          have hmore : more = 1 := congrArg (· - 1) hwidth
          obtain ⟨rfl, hhead⟩ := hdoubled
          obtain ⟨rest, rfl⟩ := List.head?_eq_some_iff.mp hhead
          rw [hmore]
          exact Bytes.hasOddRun_doubled_iff.symm
        · rw [if_neg hdoubled] at hwidth
          have hmore : more = 0 := congrArg (· - 1) hwidth
          rw [hmore]
          exact (Bytes.hasOddRun_cons_iff hhole hdoubled).symm
      · rw [List.reverse_append, List.reverse_reverse, List.reverse_cons, List.append_assoc,
          List.append_assoc, List.take_append_drop]
        exact hprose

/-- **Apostrophes in prose never hide a hole.** A content without backslashes, in which no apostrophe can
    open quoted text, is read as a template if and only if a hole head stands right behind a run of opening
    braces that is odd, so that one of its braces is left when they are taken in pairs. -/
theorem ofContent_eq_template_iff {content : Bytes} (hplain : backslash ∉ content)
    (hprose : IsProse content) : ofContent content = .template ↔ content.HasOddRun :=
  decideFrom_eq_template_iff hprose hplain

/-- The apostrophes of two words around a run of three braces. -/
theorem ofContent_eq_template_iff_words :
    backslash ∉ Bytes.ofString "It's \x7b\x7b\x7b@m\x7d's" ∧
      IsProse (Bytes.ofString "It's \x7b\x7b\x7b@m\x7d's") ∧
      Bytes.HasOddRun (Bytes.ofString "It's \x7b\x7b\x7b@m\x7d's") := by
  have hplain : backslash ∉ Bytes.ofString "It's \x7b\x7b\x7b@m\x7d's" := by decide +kernel
  have hprose : IsProse (Bytes.ofString "It's \x7b\x7b\x7b@m\x7d's") := by decide +kernel
  have hmode : ofContent (Bytes.ofString "It's \x7b\x7b\x7b@m\x7d's") = .template := by
    decide +kernel
  exact ⟨hplain, hprose, (ofContent_eq_template_iff hplain hprose).mp hmode⟩

end Mode

end LogMarkup
