import LogMarkup.Proofs.Literal.Layout
import LogMarkup.Proofs.Text.Units
import Mathlib.Data.List.Infix

/-!
# `LogMarkup.Proofs.Literal.Grammar` — the grammars of regular, verbatim and raw literals

A literal is closed at the first place where a closer stands, and what a closer is depends on what is in
front of it: a quote may be escaped, or be one of two. The grammars say which contents there are without a
walk that finds their ends. Regular and verbatim content is made of units, and the walk over it takes just
these units. Raw content has no units, since all that matters is where the first run of quotes is that is as
long as the one in front of it. Such a run may not begin in the content, neither as a whole nor with a
quote at its end.

## Contents
- **Openers.** Which texts open a literal of each kind, `Opener.read?_eq_raw_iff` and its like.
- **Contents.** `Literal.IsRegularContent`, `Literal.IsVerbatimContent` and `Literal.IsRawContent`, with one
  lemma for each on what the walk closes behind: `Opener.read_moveInLine_eq_iff` and its like.
- **Literals.** `Literal.IsClosedAt`, one lemma for each kind, and
  `Literal.isClosedAt_iff_isWritten` — the closed literals of these kinds are those of their grammars.
-/

namespace LogMarkup

open Ascii

namespace Opener

/-! ## Openers -/

theorem kind_eq_regular_iff {opener : Opener} : opener.kind = .regular ↔ opener = .regular := by
  cases opener <;> simp [kind]

theorem kind_eq_verbatim_iff {opener : Opener} : opener.kind = .verbatim ↔ opener = .verbatim := by
  cases opener <;> simp [kind]

theorem kind_eq_raw_iff {opener : Opener} :
    opener.kind = .raw ↔ ∃ dollars extraQuotes, opener = .raw dollars extraQuotes := by
  cases opener <;> simp [kind]

/-- One or two quotes open a regular literal. -/
theorem read?_eq_regular_iff {text : Bytes} :
    read? text = some regular ↔ text.run quote = 1 ∨ text.run quote = 2 := by
  constructor
  · intro h
    obtain ⟨extraQuotes, ho, -⟩ | ⟨-, hlow, hhigh⟩ | ⟨ho, -⟩ | ⟨ho, -⟩ | ⟨ho, -⟩ | ⟨ho, -⟩ :=
      read?_cases h
    · exact absurd ho (by simp)
    · omega
    all_goals exact absurd ho (by simp)
  · intro h
    cases text with
    | nil => exact absurd h (by simp [Bytes.run])
    | cons b rest =>
        have hb : b = quote := by
          by_contra hne
          rw [Bytes.run, List.takeWhile_cons_of_neg (by simpa using hne)] at h
          exact absurd h (by simp)
        have hdollars : Bytes.run dollar (b :: rest) = 0 := by
          rw [hb]
          rfl
        simp only [read?, hdollars, List.drop_zero, if_true]
        rw [if_neg (by omega), if_pos (by omega)]

theorem read?_eq_verbatim_iff {text : Bytes} :
    read? text = some verbatim ↔ [atSign, quote] <+: text := by
  constructor
  · exact text_isPrefix
  · rintro ⟨rest, rfl⟩
    have hdollars : Bytes.run dollar ([atSign, quote] ++ rest) = 0 := rfl
    have hquotes : Bytes.run quote ([atSign, quote] ++ rest) = 0 := rfl
    have hsigns : [atSign, quote].isPrefixOf ([atSign, quote] ++ rest) = true := rfl
    simp only [read?, hdollars, List.drop_zero, if_true, hquotes, hsigns]
    rfl

/-- A raw opener takes all the quotes that stand behind its dollar signs. -/
theorem read?_eq_raw_iff {text : Bytes} {dollars extraQuotes : Nat} :
    read? text = some (raw dollars extraQuotes) ↔
      ∃ behind, text = (raw dollars extraQuotes).text ++ behind ∧ behind.head? ≠ some quote := by
  constructor
  · intro h
    obtain ⟨behind, hbehind⟩ := text_isPrefix h
    refine ⟨behind, hbehind.symm, ?_⟩
    obtain ⟨more, ho, hquotes⟩ | ⟨ho, -⟩ | ⟨ho, -⟩ | ⟨ho, -⟩ | ⟨ho, -⟩ | ⟨ho, -⟩ := read?_cases h
    · obtain ⟨rfl, rfl⟩ := Opener.raw.inj ho
      have hnext := Bytes.head?_drop_run quote (text.drop (text.run dollar))
      have hlength : (raw (text.run dollar) extraQuotes).text.length
          = text.run dollar + (extraQuotes + 3) := by
        simp only [Opener.text, List.length_append, List.length_replicate]
      have hdrop := congrArg (List.drop (raw (text.run dollar) extraQuotes).text.length) hbehind
      rw [List.drop_left, hlength] at hdrop
      rwa [hquotes, List.drop_drop, ← hdrop] at hnext
    all_goals exact absurd ho (by simp)
  · rintro ⟨behind, rfl, hbehind⟩
    let quotes := List.replicate (extraQuotes + 3) quote
    have hfirst : (quotes ++ behind).head? ≠ some dollar := by
      show some quote ≠ some dollar
      decide
    have hdrop : (List.replicate dollars dollar ++ (quotes ++ behind)).drop dollars
        = quotes ++ behind := List.drop_left' List.length_replicate
    rw [Opener.text, List.append_assoc, read?, Bytes.run_replicate_append hfirst]
    simp only [hdrop, quotes, Bytes.run_replicate_append hbehind]
    rw [if_pos (Nat.le_add_left 3 extraQuotes), Nat.add_sub_cancel]

end Opener

/-! ## Contents -/

namespace Literal

/-- Content of one line: a quote or a backslash stands in it only behind a backslash, and a line feed not even
    there. -/
def IsRegularContent : Bytes → Prop :=
  Bytes.IsUnits (fun b => b ≠ quote ∧ b ≠ backslash ∧ b ≠ lineFeed)
    (fun b c => b = backslash ∧ c ≠ lineFeed)

/-- Verbatim content: every quote in it is doubled. -/
def IsVerbatimContent : Bytes → Prop :=
  Bytes.IsUnits (fun b => b ≠ quote) (fun b c => b = quote ∧ c = quote)

/-- Content between two runs of as many quotes. -/
structure IsRawContent (quotes : Nat) (content : Bytes) : Prop where
  ne_nil : content ≠ []
  head?_ne : content.head? ≠ some quote
  getLast?_ne : content.getLast? ≠ some quote
  not_infix : ¬ List.replicate quotes quote <:+: content

end Literal

/-- **A run behind a text is the first one of its length** if the text has none, and does not end with a byte
    of the run. -/
theorem Bytes.first_run_iff {n : Nat} {b : UInt8} (hn : 0 < n) (text rest : Bytes) :
    (∀ m < text.length, ¬ List.replicate n b <+: (text ++ (List.replicate n b ++ rest)).drop m) ↔
      text.getLast? ≠ some b ∧ ¬ List.replicate n b <:+: text := by
  constructor
  · intro h
    constructor
    · intro hlast
      obtain ⟨front, rfl⟩ := List.getLast?_eq_some_iff.mp hlast
      apply h front.length (by simp)
      -- With the last byte in front of it the run is longer than it has to be.
      rw [List.append_assoc, List.drop_left, List.singleton_append, ← List.cons_append,
        ← List.replicate_succ, List.replicate_succ', List.append_assoc]
      exact List.prefix_append _ _
    · rintro ⟨front, behind, rfl⟩
      apply h front.length (by simp; omega)
      rw [List.append_assoc, List.append_assoc, List.drop_left]
      exact List.prefix_append _ _
  · rintro ⟨hlast, hinfix⟩ m hm hfound
    rw [List.drop_append_of_le_length (Nat.le_of_lt hm)] at hfound
    by_cases hfit : n ≤ (text.drop m).length
    · have hinside := (List.isPrefix_append_of_length (by simpa using hfit)).mp hfound
      exact hinfix (hinside.isInfix.trans (List.drop_suffix m text).isInfix)
    · -- The run begins with the end of the text, so that the last byte of the text is one of the run.
      have hlength : (text.drop m).length ≤ (List.replicate n b).length := by
        rw [List.length_replicate]
        omega
      have hend := List.prefix_of_prefix_length_le (List.prefix_append _ _) hfound hlength
      have hshown : (text.drop m).getLast? = text.getLast? := by
        rw [List.getLast?_drop, if_neg (Nat.not_le.mpr hm)]
      cases hc : text.getLast? with
      | none =>
          rw [List.getLast?_eq_none_iff.mp hc] at hm
          exact Nat.not_lt_zero m hm
      | some c =>
          have hmem := hend.subset (List.mem_of_getLast? (hshown.trans hc))
          exact hlast (hc.trans (congrArg some (List.eq_of_mem_replicate hmem)))

namespace Opener

variable {text content : Bytes} {depth : Nat}

theorem takesUnits_moveInLine :
    Enclosed.TakesUnits moveInLine 0 (fun b => b ≠ quote ∧ b ≠ backslash ∧ b ≠ lineFeed)
      (fun b c => b = backslash ∧ c ≠ lineFeed) := by
  constructor
  · intro b rest next
    unfold moveInLine
    grind
  · intro b c rest next
    unfold moveInLine
    grind

theorem takesUnits_moveVerbatim :
    Enclosed.TakesUnits moveVerbatim 0 (fun b => b ≠ quote) (fun b c => b = quote ∧ c = quote) := by
  constructor
  · intro b rest next
    unfold moveVerbatim
    grind
  · intro b c rest next
    unfold moveVerbatim
    grind

theorem moveInLine_eq_close_iff {b : UInt8} {rest : Bytes} :
    moveInLine depth b rest = .close ↔ b = quote := by
  constructor
  · exact eq_quote_of_moveInLine
  · rintro rfl
    rfl

theorem moveVerbatim_eq_close_iff {b : UInt8} {rest : Bytes} :
    moveVerbatim depth b rest = .close ↔ b = quote ∧ rest.head? ≠ some quote := by
  unfold moveVerbatim
  grind

/-- A line closes behind regular content. -/
theorem read_moveInLine_eq_iff :
    Enclosed.read moveInLine 0 text = ⟨content, true⟩ ↔
      ∃ rest, text = content ++ quote :: rest ∧ Literal.IsRegularContent content := by
  rw [takesUnits_moveInLine.read_eq_iff]
  constructor
  · rintro ⟨b, rest, htext, hunits, hclose⟩
    obtain rfl := moveInLine_eq_close_iff.mp hclose
    exact ⟨rest, htext, hunits⟩
  · rintro ⟨rest, htext, hunits⟩
    exact ⟨quote, rest, htext, hunits, moveInLine_eq_close_iff.mpr rfl⟩

/-- Verbatim text closes behind verbatim content, at a quote that is not the first one of two. -/
theorem read_moveVerbatim_eq_iff :
    Enclosed.read moveVerbatim 0 text = ⟨content, true⟩ ↔
      ∃ rest, text = content ++ quote :: rest ∧ Literal.IsVerbatimContent content ∧
        rest.head? ≠ some quote := by
  rw [takesUnits_moveVerbatim.read_eq_iff]
  constructor
  · rintro ⟨b, rest, htext, hunits, hclose⟩
    obtain ⟨rfl, hnext⟩ := moveVerbatim_eq_close_iff.mp hclose
    exact ⟨rest, htext, hunits, hnext⟩
  · rintro ⟨rest, htext, hunits, hnext⟩
    exact ⟨quote, rest, htext, hunits, moveVerbatim_eq_close_iff.mpr ⟨rfl, hnext⟩⟩

/-- Raw text closes at the first place where its closer stands. -/
theorem read_moveRaw_eq_iff {closer : Bytes} (hcloser : closer ≠ []) :
    Enclosed.read (moveRaw closer) depth text = ⟨content, true⟩ ↔
      content ++ closer <+: text ∧ ∀ n < content.length, ¬ closer <+: text.drop n := by
  induction text generalizing content with
  | nil =>
      constructor
      · intro h
        exact absurd (congrArg Enclosed.closed h) (by simp [Enclosed.read])
      · intro h
        exact absurd (List.append_eq_nil_iff.mp (List.prefix_nil.mp h.1)).2 hcloser
  | cons b rest ih =>
      have hmove : moveRaw closer depth b rest
          = if closer <+: b :: rest then .close else .single depth := by
        simp only [moveRaw, List.isPrefixOf_iff_prefix]
      rw [Enclosed.read, hmove]
      by_cases hfirst : closer <+: b :: rest
      · -- The closer stands at the head of the text, so that there is no content.
        simp only [if_pos hfirst]
        constructor
        · intro h
          obtain rfl : [] = content := congrArg Enclosed.content h
          refine ⟨hfirst, ?_⟩
          intro n hn
          exact absurd hn (Nat.not_lt_zero n)
        · rintro ⟨-, hnone⟩
          cases content with
          | nil => rfl
          | cons c content => exact absurd hfirst (hnone 0 (Nat.succ_pos _))
      · simp only [if_neg hfirst]
        constructor
        · intro h
          have hclosed : (Enclosed.read (moveRaw closer) depth rest).closed = true :=
            congrArg Enclosed.closed h
          obtain rfl : b :: (Enclosed.read (moveRaw closer) depth rest).content = content :=
            congrArg Enclosed.content h
          obtain ⟨hfound, hnone⟩ := ih.mp (by rw [← hclosed])
          refine ⟨(List.prefix_cons_inj b).mpr hfound, ?_⟩
          intro n hn
          cases n with
          | zero => exact hfirst
          | succ n => exact hnone n (Nat.lt_of_succ_lt_succ hn)
        · rintro ⟨hfound, hnone⟩
          cases content with
          | nil => exact absurd hfound hfirst
          | cons c content =>
              obtain ⟨rfl, hinner⟩ := List.cons_prefix_cons.mp hfound
              rw [ih.mpr ⟨hinner, fun n hn => hnone (n + 1) (Nat.succ_lt_succ hn)⟩]
              rfl

/-- Where the closer is a run of quotes, raw text closes behind content that neither has such a run nor ends
    with a quote. -/
theorem read_moveRaw_run_eq_iff {n : Nat} (hn : 0 < n) :
    Enclosed.read (moveRaw (List.replicate n quote)) depth text = ⟨content, true⟩ ↔
      ∃ rest, text = content ++ List.replicate n quote ++ rest ∧
        content.getLast? ≠ some quote ∧ ¬ List.replicate n quote <:+: content := by
  have hne : List.replicate n quote ≠ [] := List.ne_nil_of_length_pos (by simpa using hn)
  rw [read_moveRaw_eq_iff hne]
  constructor
  · rintro ⟨⟨rest, rfl⟩, hfirst⟩
    rw [List.append_assoc] at hfirst
    exact ⟨rest, rfl, (Bytes.first_run_iff hn content rest).mp hfirst⟩
  · rintro ⟨rest, rfl, hfirst⟩
    refine ⟨List.prefix_append _ _, ?_⟩
    rw [List.append_assoc]
    exact (Bytes.first_run_iff hn content rest).mpr hfirst

end Opener

/-! ## Literals -/

namespace Literal

/-- A closed literal of a kind starts at an offset of a text. It has the given content, and the last byte of
    its closer stands at the offset `last`. -/
def IsClosedAt (text : Bytes) (offset : Nat) (kind : LiteralKind) (content : Bytes) (last : Nat) :
    Prop :=
  ∃ literal, at? text offset = some literal ∧ literal.kind = kind ∧ literal.closed = true ∧
    literal.content = content ∧ literal.last = last

variable {text content : Bytes} {offset last : Nat} {kind : LiteralKind}

/-- A closed literal is an opener, the content that its rules close behind, and a closer. -/
theorem isClosedAt_iff_exists_opener :
    IsClosedAt text offset kind content last ↔
      ∃ opener : Opener, opener.kind = kind ∧ Opener.read? (text.drop offset) = some opener ∧
        Enclosed.read opener.move 0 ((text.drop offset).drop opener.text.length) = ⟨content, true⟩ ∧
        last + 1 = offset + opener.text.length + content.length + opener.closer.length := by
  constructor
  · rintro ⟨literal, hat, hkind, hclosed, rfl, rfl⟩
    obtain ⟨hstart, hopener, hread⟩ := read?_eq_some_iff.mp hat
    refine ⟨literal.opener, hkind, hopener, by rw [hread, hclosed], ?_⟩
    rw [last_add_one, stop_eq, hclosed, if_pos rfl, contentStop, contentStart, hstart]
  · rintro ⟨opener, hkind, hopener, hread, hlast⟩
    have hat : at? text offset = some ⟨offset, opener, content, true⟩ :=
      read?_eq_some_iff.mpr ⟨rfl, hopener, hread⟩
    refine ⟨_, hat, hkind, rfl, rfl, Nat.succ.inj ?_⟩
    rw [Nat.succ_eq_add_one, last_add_one, stop_eq, Nat.succ_eq_add_one, hlast]
    rfl

/-- One or two quotes, content of one line behind the first of them, and a quote. -/
theorem isClosedAt_regular_iff :
    IsClosedAt text offset .regular content last ↔
      (Bytes.run quote (text.drop offset) = 1 ∨ Bytes.run quote (text.drop offset) = 2) ∧
      ∃ rest, text.drop (offset + 1) = content ++ quote :: rest ∧ IsRegularContent content ∧
        last = offset + 1 + content.length := by
  have hlast : last + 1 = offset + Opener.regular.text.length + content.length
      + Opener.regular.closer.length ↔ last = offset + 1 + content.length :=
    Nat.add_right_cancel_iff
  rw [isClosedAt_iff_exists_opener]
  simp only [Opener.kind_eq_regular_iff, exists_eq_left, Opener.read?_eq_regular_iff, hlast,
    List.drop_drop]
  rw [Opener.move, Opener.read_moveInLine_eq_iff]
  constructor
  · rintro ⟨hquotes, ⟨rest, htext, hcontent⟩, rfl⟩
    exact ⟨hquotes, rest, htext, hcontent, rfl⟩
  · rintro ⟨hquotes, rest, htext, hcontent, rfl⟩
    exact ⟨hquotes, ⟨rest, htext, hcontent⟩, rfl⟩

/-- An at sign and a quote, content with doubled quotes, and a quote that is not the first one of two. -/
theorem isClosedAt_verbatim_iff :
    IsClosedAt text offset .verbatim content last ↔
      ∃ rest, text.drop offset = [atSign, quote] ++ content ++ quote :: rest ∧
        IsVerbatimContent content ∧ rest.head? ≠ some quote ∧
        last = offset + 2 + content.length := by
  have hlast : last + 1 = offset + Opener.verbatim.text.length + content.length
      + Opener.verbatim.closer.length ↔ last = offset + 2 + content.length :=
    Nat.add_right_cancel_iff
  rw [isClosedAt_iff_exists_opener]
  simp only [Opener.kind_eq_verbatim_iff, exists_eq_left, Opener.read?_eq_verbatim_iff, hlast]
  rw [Opener.move, Opener.read_moveVerbatim_eq_iff]
  constructor
  · rintro ⟨⟨behind, hopener⟩, ⟨rest, htext, hcontent, hnext⟩, rfl⟩
    refine ⟨rest, ?_, hcontent, hnext, rfl⟩
    rw [← hopener, Opener.text, List.drop_left] at htext
    rw [← hopener, htext, List.append_assoc]
  · rintro ⟨rest, htext, hcontent, hnext, rfl⟩
    rw [List.append_assoc] at htext
    refine ⟨⟨_, htext.symm⟩, ⟨rest, ?_, hcontent, hnext⟩, rfl⟩
    rw [htext]
    rfl

/-- Dollar signs, at least three quotes, raw content, and as many quotes again. -/
theorem isClosedAt_raw_iff :
    IsClosedAt text offset .raw content last ↔
      ∃ dollars quotes rest, 3 ≤ quotes ∧
        text.drop offset = List.replicate dollars dollar ++ List.replicate quotes quote ++ content
          ++ List.replicate quotes quote ++ rest ∧
        IsRawContent quotes content ∧
        last + 1 = offset + dollars + quotes + content.length + quotes := by
  have hlength (dollars extraQuotes : Nat) :
      (Opener.raw dollars extraQuotes).text.length = dollars + (extraQuotes + 3) := by
    simp only [Opener.text, List.length_append, List.length_replicate]
  rw [isClosedAt_iff_exists_opener]
  constructor
  · rintro ⟨opener, hkind, hopener, hread, hlast⟩
    obtain ⟨dollars, extraQuotes, rfl⟩ := Opener.kind_eq_raw_iff.mp hkind
    obtain ⟨behind, htext, hbehind⟩ := Opener.read?_eq_raw_iff.mp hopener
    rw [htext, List.drop_left, Opener.move, Opener.read_moveRaw_run_eq_iff (Nat.succ_pos _)]
      at hread
    obtain ⟨rest, rfl, hend, hinfix⟩ := hread
    -- No quote stands behind the opener, so that the closer does not stand there either.
    have hne : content ≠ [] := by
      rintro rfl
      exact hbehind rfl
    have hhead : content.head? ≠ some quote := by
      obtain ⟨b, more, rfl⟩ := List.exists_cons_of_ne_nil hne
      exact hbehind
    refine ⟨dollars, extraQuotes + 3, rest, Nat.le_add_left _ _, ?_, ⟨hne, hhead, hend, hinfix⟩, ?_⟩
    · simp only [htext, Opener.text, List.append_assoc]
    · rw [hlast, hlength, Opener.closer, List.length_replicate, Nat.add_assoc offset dollars]
  · rintro ⟨dollars, quotes, rest, hthree, htext, hcontent, hlast⟩
    obtain ⟨extraQuotes, rfl⟩ := Nat.exists_eq_add_of_le' hthree
    have hopener : text.drop offset = (Opener.raw dollars extraQuotes).text
        ++ (content ++ List.replicate (extraQuotes + 3) quote ++ rest) := by
      simp only [htext, Opener.text, List.append_assoc]
    refine ⟨.raw dollars extraQuotes, rfl, Opener.read?_eq_raw_iff.mpr ⟨_, hopener, ?_⟩, ?_, ?_⟩
    · obtain ⟨b, more, rfl⟩ := List.exists_cons_of_ne_nil hcontent.ne_nil
      exact hcontent.head?_ne
    · rw [hopener, List.drop_left]
      exact (Opener.read_moveRaw_run_eq_iff (Nat.succ_pos _)).mpr
        ⟨rest, rfl, hcontent.getLast?_ne, hcontent.not_infix⟩
    · rw [hlast, hlength, Opener.closer, List.length_replicate, Nat.add_assoc offset dollars]

/-- **The closed literals of a text are those of the grammars.** For every content there is a regular, verbatim
    or raw literal with it at an offset exactly if the text goes on there as the grammar of this kind says,
    and the literal ends with the last byte of the closer. -/
theorem isClosedAt_iff_isWritten (text : Bytes) (offset : Nat) (content : Bytes) (last : Nat) :
    (IsClosedAt text offset .regular content last ↔
      (Bytes.run quote (text.drop offset) = 1 ∨ Bytes.run quote (text.drop offset) = 2) ∧
      ∃ rest, text.drop (offset + 1) = content ++ quote :: rest ∧ IsRegularContent content ∧
        last = offset + 1 + content.length) ∧
    (IsClosedAt text offset .verbatim content last ↔
      ∃ rest, text.drop offset = [atSign, quote] ++ content ++ quote :: rest ∧
        IsVerbatimContent content ∧ rest.head? ≠ some quote ∧
        last = offset + 2 + content.length) ∧
    (IsClosedAt text offset .raw content last ↔
      ∃ dollars quotes rest, 3 ≤ quotes ∧
        text.drop offset = List.replicate dollars dollar ++ List.replicate quotes quote ++ content
          ++ List.replicate quotes quote ++ rest ∧
        IsRawContent quotes content ∧
        last + 1 = offset + dollars + quotes + content.length + quotes) :=
  ⟨isClosedAt_regular_iff, isClosedAt_verbatim_iff, isClosedAt_raw_iff⟩

end Literal

end LogMarkup
