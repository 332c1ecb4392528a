import LogMarkup.Proofs.Literal.Decomposition

/-!
# `LogMarkup.Proofs.Literal.Prefix` — the literals of a text and of its first lines

Whoever looks at a document reads some of its lines and joins them. Two texts that start on the same
line are then a text and its first lines, and the question is what the two have in common. No opener
and no closer has a line feed, so a line feed behind a text decides nothing in front of it. So both
texts have the same literals, except that the last one of the shorter text may be cut off there.

## Contents
- **What is behind a line.** `Bytes.FollowsLine`, with `Bytes.isPrefix_append_iff`.
- **Openers and contents.** `Opener.read?_append`, and `Enclosed.read_append` for walks that do not look
  behind a line.
- **Literals.** `Literal.Extends`, how a literal of the shorter text and one of the longer text belong
  together, and `Literal.Agree` for all of them, with `Literal.exists_extends` and
  `Literal.exists_extends_of_lt`.
-/

namespace LogMarkup

open Ascii

/-! ## What is behind a line -/

namespace Bytes

/-- The text behind some lines: nothing, or a line feed and further lines. -/
def FollowsLine (behind : Bytes) : Prop := ∀ b, behind.head? = some b → b = lineFeed

variable {behind : Bytes}

theorem FollowsLine.nil : FollowsLine [] := by
  intro b h
  exact absurd h (by simp)

theorem FollowsLine.lineFeed_cons (rest : Bytes) : FollowsLine (lineFeed :: rest) := by
  intro b h
  exact (Option.some.inj h).symm

theorem FollowsLine.of_isPrefix {first : Bytes} (h : FollowsLine behind) (hfirst : first <+: behind) :
    FollowsLine first := by
  intro b hb
  obtain ⟨rest, rfl⟩ := hfirst
  cases first with
  | nil => exact absurd hb (by simp)
  | cons c first => exact h b hb

variable (hbehind : FollowsLine behind)

include hbehind

/-- A text without a line feed begins the whole text if it begins the first lines. -/
theorem isPrefix_append_iff {part text : Bytes} (hfeed : lineFeed ∉ part) :
    part <+: text ++ behind ↔ part <+: text := by
  refine ⟨?_, fun h => h.trans (List.prefix_append text behind)⟩
  intro h
  induction text generalizing part with
  | nil =>
      cases part with
      | nil => exact List.nil_prefix
      | cons b part =>
          obtain ⟨rest, hrest⟩ := h
          have hhead : behind.head? = some b := by
            rw [← List.nil_append behind, ← hrest]
            rfl
          rw [hbehind b hhead] at hfeed
          exact absurd List.mem_cons_self hfeed
  | cons c text ih =>
      cases part with
      | nil => exact List.nil_prefix
      | cons b part =>
          obtain ⟨rfl, hpart⟩ := List.cons_prefix_cons.mp h
          exact (List.prefix_cons_inj b).mpr
            (ih (fun hmem => hfeed (List.mem_cons_of_mem _ hmem)) hpart)

theorem head?_append_eq_some_iff {text : Bytes} {b : UInt8} (hb : b ≠ lineFeed) :
    (text ++ behind).head? = some b ↔ text.head? = some b := by
  cases text with
  | nil =>
      constructor
      · intro h
        exact absurd (hbehind b h) hb
      · intro h
        exact absurd h (by simp)
  | cons c text => exact Iff.rfl

theorem run_append {text : Bytes} {b : UInt8} (hb : b ≠ lineFeed) :
    (text ++ behind).run b = text.run b := by
  have hstop : ∀ c, behind.head? = some c → (c == b) = false := by
    intro c hc
    rw [hbehind c hc]
    exact beq_eq_false_iff_ne.mpr hb.symm
  rw [run, run, takeWhile_append_of_head hstop]

end Bytes

/-! ## Openers and contents -/

theorem Bytes.run_le_length (b : UInt8) (text : Bytes) : text.run b ≤ text.length :=
  (List.takeWhile_prefix _).length_le

/-- The opener at the head of the first lines is the one at the head of the whole text. -/
theorem Opener.read?_append {text behind : Bytes} (hbehind : behind.FollowsLine) :
    read? (text ++ behind) = read? text := by
  have hdollars : (text ++ behind).run dollar = text.run dollar :=
    Bytes.run_append hbehind (by decide)
  have hdrop : (text ++ behind).drop (text.run dollar) = text.drop (text.run dollar) ++ behind :=
    List.drop_append_of_le_length (Bytes.run_le_length _ _)
  have hquotes : Bytes.run quote (text.drop (text.run dollar) ++ behind)
      = Bytes.run quote (text.drop (text.run dollar)) := Bytes.run_append hbehind (by decide)
  have hsigns : ∀ part text : Bytes, lineFeed ∉ part →
      part.isPrefixOf (text ++ behind) = part.isPrefixOf text := by
    intro part text hfeed
    rw [Bool.eq_iff_iff, List.isPrefixOf_iff_prefix, List.isPrefixOf_iff_prefix]
    exact Bytes.isPrefix_append_iff hbehind hfeed
  unfold read?
  simp only [hdollars, hdrop, hquotes]
  rw [hsigns _ text (by decide), hsigns _ text (by decide), hsigns _ _ (by decide)]

namespace Enclosed

variable {σ : Type} {move : σ → UInt8 → Bytes → Move σ} {behind : Bytes}

/-- The decisions of a walk do not depend on what is behind a line, except that the last byte of the line
    may be taken alone that would have been one of a pair. -/
def IgnoresBehind (move : σ → UInt8 → Bytes → Move σ) (behind : Bytes) : Prop :=
  ∀ state b rest, move state b (rest ++ behind) = move state b rest ∨
    (rest = [] ∧ (∃ next, move state b [] = .pair next) ∧ move state b behind = .stopAfter)

theorem IgnoresBehind.move_append (hmove : IgnoresBehind move behind) {state : σ} {b : UInt8}
    {rest : Bytes} (hpair : ∀ next, move state b rest ≠ .pair next) :
    move state b (rest ++ behind) = move state b rest := by
  rcases hmove state b rest with hsame | ⟨rfl, ⟨next, hnext⟩, -⟩
  · exact hsame
  · exact absurd hnext (hpair next)

/-- **A walk over the first lines goes as far as one over the whole text**, unless it reaches their
    end. -/
theorem read_append (hmove : IgnoresBehind move behind) (state : σ) (text : Bytes) :
    read move state (text ++ behind) = read move state text ∨
      ((read move state text).closed = false ∧ (read move state text).content = text ∧
        text <+: (read move state (text ++ behind)).content) := by
  fun_induction read move state text with
  | case1 => exact .inr ⟨rfl, rfl, List.nil_prefix⟩
  | case2 state b rest hclose =>
      refine .inl ?_
      rw [List.cons_append, read, hmove.move_append (by simp [hclose]), hclose]
  | case3 state b rest hstop =>
      refine .inl ?_
      rw [List.cons_append, read, hmove.move_append (by simp [hstop]), hstop]
  | case4 state b rest hstop =>
      refine .inl ?_
      rw [List.cons_append, read, hmove.move_append (by simp [hstop]), hstop]
  | case5 state b rest next hsingle ih =>
      rw [List.cons_append, read, hmove.move_append (by simp [hsingle]), hsingle]
      rcases ih with heq | ⟨hopen, hcontent, hbegins⟩
      · exact .inl (congrArg (push b) heq)
      · exact .inr ⟨hopen, congrArg (b :: ·) hcontent, (List.prefix_cons_inj b).mpr hbegins⟩
  | case6 state b next hpair =>
      -- The last byte is one of a pair, and the other one would stand behind the line.
      rcases hmove state b [] with hsame | ⟨-, -, hstop⟩
      · refine .inr ⟨rfl, rfl, ?_⟩
        rw [List.cons_append, read, hsame, hpair]
        cases behind with
        | nil => exact List.prefix_rfl
        | cons c behind => exact (List.prefix_cons_inj b).mpr List.nil_prefix
      · rw [List.cons_append, List.nil_append, read, hstop]
        exact .inl rfl
  | case7 state b next c rest hpair ih =>
      rcases hmove state b (c :: rest) with hsame | ⟨hnil, -, -⟩
      · rw [List.cons_append, read, hsame, hpair]
        rcases ih with heq | ⟨hopen, hcontent, hbegins⟩
        · exact .inl (congrArg (fun enclosed => (push c enclosed).push b) heq)
        · exact .inr ⟨hopen, congrArg (b :: c :: ·) hcontent,
            (List.prefix_cons_inj b).mpr ((List.prefix_cons_inj c).mpr hbegins)⟩
      · exact absurd hnil (by simp)

end Enclosed

namespace Opener

variable {behind : Bytes}

theorem moveInLine_append (depth : Nat) (b : UInt8) (rest : Bytes) :
    moveInLine depth b (rest ++ behind) = moveInLine depth b rest ∨
      (rest = [] ∧ (∃ next, moveInLine depth b [] = .pair next) ∧
        moveInLine depth b behind = .stopAfter) := by
  unfold moveInLine
  by_cases hbackslash : b = backslash
  · simp only [if_pos hbackslash]
    cases rest with
    | cons c rest => exact .inl rfl
    | nil =>
        -- Behind a backslash at the end of the text there may be a line feed, or nothing.
        by_cases hfeed : behind.head? = some lineFeed
        · refine .inr ⟨rfl, ⟨depth, rfl⟩, ?_⟩
          rw [if_pos hfeed]
        · refine .inl ?_
          rw [List.nil_append, if_neg hfeed]
          rfl
  · simp only [if_neg hbackslash]
    exact .inl trivial

variable (hbehind : behind.FollowsLine)

include hbehind

theorem moveVerbatim_append (depth : Nat) (b : UInt8) (rest : Bytes) :
    moveVerbatim depth b (rest ++ behind) = moveVerbatim depth b rest := by
  unfold moveVerbatim
  simp only [Bytes.head?_append_eq_some_iff hbehind (show quote ≠ lineFeed by decide)]

theorem moveBrace_append {depth : Nat} {b : UInt8} (hbrace : isBrace b = true) (rest : Bytes) :
    moveBrace depth b (rest ++ behind) = moveBrace depth b rest := by
  have hne : b ≠ lineFeed := by
    rintro rfl
    exact absurd hbrace (by decide)
  unfold moveBrace
  simp only [Bytes.head?_append_eq_some_iff hbehind hne]

theorem moveRaw_append (more depth : Nat) (b : UInt8) (rest : Bytes) :
    moveRaw (List.replicate more quote) depth b (rest ++ behind)
      = moveRaw (List.replicate more quote) depth b rest := by
  have hfeed : lineFeed ∉ List.replicate more quote := by
    intro hmem
    exact absurd (List.eq_of_mem_replicate hmem) (by decide)
  have hcloser : (List.replicate more quote).isPrefixOf (b :: (rest ++ behind))
      = (List.replicate more quote).isPrefixOf (b :: rest) := by
    rw [Bool.eq_iff_iff, List.isPrefixOf_iff_prefix, List.isPrefixOf_iff_prefix, ← List.cons_append]
    exact Bytes.isPrefix_append_iff hbehind hfeed
  unfold moveRaw
  rw [hcloser]

/-- No rule looks behind a line. -/
theorem ignoresBehind (opener : Opener) : Enclosed.IgnoresBehind opener.move behind := by
  intro depth b rest
  cases opener with
  | regular => exact moveInLine_append depth b rest
  | verbatim => exact .inl (moveVerbatim_append hbehind depth b rest)
  | raw dollars extraQuotes => exact .inl (moveRaw_append hbehind _ depth b rest)
  | interpolated =>
      simp only [move, moveInterpolated]
      by_cases hbrace : isBrace b = true
      · simp only [if_pos hbrace]
        exact .inl (moveBrace_append hbehind hbrace rest)
      · simp only [if_neg hbrace]
        split
        · exact moveInLine_append 0 b rest
        · exact .inl rfl
  | verbatimInterpolated dollarFirst =>
      refine .inl ?_
      simp only [move, moveVerbatimInterpolated]
      by_cases hbrace : isBrace b = true
      · simp only [if_pos hbrace]
        exact moveBrace_append hbehind hbrace rest
      · simp only [if_neg hbrace, moveVerbatim_append hbehind]

end Opener

/-! ## Literals -/

namespace Literal

/-- A literal of the first lines, which end at the offset `limit`, and the one of the whole text that
    starts where it does. They are the same, unless the one of the first lines is left open there. -/
structure Extends (limit : Nat) (short long : Literal) : Prop where
  start_eq : long.start = short.start
  opener_eq : long.opener = short.opener
  eq_or_open : long = short ∨ (short.closed = false ∧ short.contentStop = limit ∧
    ∃ more, Bytes.FollowsLine more ∧ long.content = short.content ++ more)

theorem Extends.contentStart_eq {limit : Nat} {short long : Literal} (h : Extends limit short long) :
    long.contentStart = short.contentStart := by
  rw [contentStart, contentStart, h.start_eq, h.opener_eq]

/-- The literals of the first lines and of the whole text belong together, those of the whole text that
    start behind the first lines left aside. -/
structure Agree (limit : Nat) (shorts longs : List Literal) : Prop where
  exists_long : ∀ short ∈ shorts, ∃ long ∈ longs, Extends limit short long
  exists_short : ∀ long ∈ longs, long.start < limit → ∃ short ∈ shorts, Extends limit short long

namespace Agree

variable {limit : Nat} {short long : Literal} {shorts longs : List Literal}

/-- What starts behind the first lines needs no literal of theirs. -/
theorem of_le (h : ∀ long ∈ longs, limit ≤ long.start) : Agree limit [] longs := by
  refine ⟨by simp, ?_⟩
  intro long hmem hlt
  exact absurd hlt (Nat.not_lt.mpr (h long hmem))

theorem cons (h : Extends limit short long) (hrest : Agree limit shorts longs) :
    Agree limit (short :: shorts) (long :: longs) := by
  refine ⟨?_, ?_⟩
  · intro other hmem
    rcases List.mem_cons.mp hmem with rfl | hmem
    · exact ⟨long, List.mem_cons_self, h⟩
    · obtain ⟨found, hfound, hextends⟩ := hrest.exists_long other hmem
      exact ⟨found, List.mem_cons_of_mem _ hfound, hextends⟩
  · intro other hmem hlt
    rcases List.mem_cons.mp hmem with rfl | hmem
    · exact ⟨short, List.mem_cons_self, h⟩
    · obtain ⟨found, hfound, hextends⟩ := hrest.exists_short other hmem hlt
      exact ⟨found, List.mem_cons_of_mem _ hfound, hextends⟩

end Agree

variable {behind : Bytes} (hbehind : behind.FollowsLine)

include hbehind

/-- At the head of the first lines there is a literal if there is one at the head of the whole text, and
    the two belong together. -/
theorem read?_append (start : Nat) (text : Bytes) :
    (read? start (text ++ behind) = none ∧ read? start text = none) ∨
      ∃ short long, read? start (text ++ behind) = some long ∧ read? start text = some short ∧
        Extends (start + text.length) short long := by
  have hopener : Opener.read? (text ++ behind) = Opener.read? text := Opener.read?_append hbehind
  cases hread : Opener.read? text with
  | none =>
      rw [hread] at hopener
      refine .inl ⟨?_, ?_⟩
      · simp only [read?, hopener]
      · simp only [read?, hread]
  | some opener =>
      rw [hread] at hopener
      have hlength : opener.text.length ≤ text.length := (Opener.text_isPrefix hread).length_le
      have hdrop : (text ++ behind).drop opener.text.length
          = text.drop opener.text.length ++ behind := List.drop_append_of_le_length hlength
      let cut := Enclosed.read opener.move 0 (text.drop opener.text.length)
      let whole := Enclosed.read opener.move 0 (text.drop opener.text.length ++ behind)
      have hwalk : whole = cut ∨ (cut.closed = false ∧ cut.content = text.drop opener.text.length ∧
          text.drop opener.text.length <+: whole.content) :=
        Enclosed.read_append (opener.ignoresBehind hbehind) 0 (text.drop opener.text.length)
      refine .inr ⟨⟨start, opener, cut.content, cut.closed⟩,
        ⟨start, opener, whole.content, whole.closed⟩, ?_, ?_, rfl, rfl, ?_⟩
      · simp only [read?, hopener, hdrop]
        rfl
      · simp only [read?, hread]
        rfl
      · rcases hwalk with heq | ⟨hopen, hcontent, more, hmore⟩
        · exact .inl (by rw [heq])
        · refine .inr ⟨hopen, ?_, more, ?_, ?_⟩
          · show start + opener.text.length + cut.content.length = start + text.length
            rw [hcontent, List.length_drop]
            omega
          · -- What is taken beyond the first lines is a beginning of what is behind them.
            have hbegins : whole.content <+: text.drop opener.text.length ++ behind :=
              Enclosed.content_isPrefix 0 _
            rw [← hmore] at hbegins
            exact hbehind.of_isPrefix ((List.prefix_append_right_inj _).mp hbegins)
          · show whole.content = cut.content ++ more
            rw [hcontent, hmore]

omit hbehind in
theorem Extends.limit_le_stop {limit : Nat} {short long : Literal} (h : Extends limit short long)
    (hopen : long ≠ short) : short.stop = limit ∧ limit ≤ long.stop := by
  rcases h.eq_or_open with heq | ⟨hclosed, hlimit, more, -, hcontent⟩
  · exact absurd heq hopen
  · have hstop := short.stop_eq
    rw [hclosed, if_neg Bool.false_ne_true, List.length_nil, Nat.add_zero] at hstop
    have hlong := long.stop_eq
    simp only [contentStop, contentStart, h.start_eq, h.opener_eq, hcontent, List.length_append]
      at hlimit hstop hlong
    omega

/-- The search in the first lines finds what the one in the whole text finds there. -/
theorem agree_allFrom {whole text : Bytes} {start : Nat}
    (hrest : whole.drop start = text ++ behind) :
    Agree (start + text.length) (allFrom start text) (allFrom start (text ++ behind)) := by
  fun_induction allFrom start text with
  | case1 start =>
      refine .of_le ?_
      intro long hmem
      exact (at?_of_mem_allFrom hrest hmem).1
  | case2 start b rest hnone ih =>
      rcases read?_append hbehind start (b :: rest) with ⟨hwhole, -⟩ | ⟨_, _, -, hsome, -⟩
      · rw [List.cons_append] at hwhole ⊢
        rw [allFrom, hwhole, List.length_cons, Nat.add_comm rest.length, ← Nat.add_assoc]
        exact ih (Bytes.drop_add_of_drop_eq_cons hrest Nat.one_pos)
      · rw [hnone] at hsome
        exact absurd hsome (by simp)
  | case3 start b rest short hshort ih =>
      obtain ⟨long, hlong, hextends⟩ : ∃ long, read? start (b :: (rest ++ behind)) = some long ∧
          Extends (start + (b :: rest).length) short long := by
        rcases read?_append hbehind start (b :: rest) with ⟨-, hnone⟩ | ⟨_, long, hlong, hsome, h⟩
        · rw [hshort] at hnone
          exact absurd hnone (by simp)
        · obtain rfl := Option.some.inj (hshort.symm.trans hsome)
          exact ⟨long, hlong, h⟩
      have hstart := start_of_read? hshort
      have hwidth : short.width ≤ rest.length + 1 := (text_isPrefix hshort).length_le
      have hpos := short.width_pos
      have hwhole := drop_stop_of_read? hrest hlong
      rw [List.cons_append, allFrom, hlong]
      refine .cons hextends ?_
      by_cases hsame : long = short
      · -- The same literal stands in both texts, and both searches go on behind it.
        have hdrop : (rest ++ behind).drop (long.width - 1)
            = rest.drop (short.width - 1) ++ behind := by
          rw [hsame]
          exact List.drop_append_of_le_length (by omega)
        have hlimit : start + (b :: rest).length
            = short.stop + (rest.drop (short.width - 1)).length := by
          rw [stop, hstart, List.length_drop, List.length_cons]
          omega
        rw [hlimit, hdrop, hsame]
        exact ih (by rw [← hdrop, ← hsame]; exact hwhole)
      · -- The literal takes the rest of the first lines, so that nothing else is found there.
        obtain ⟨hstop, hle⟩ := hextends.limit_le_stop hsame
        have hnil : rest.drop (short.width - 1) = [] := by
          refine List.drop_eq_nil_iff.mpr ?_
          rw [stop, hstart, List.length_cons] at hstop
          omega
        rw [hnil, allFrom]
        refine .of_le ?_
        intro other hmem
        exact hle.trans (at?_of_mem_allFrom hwhole hmem).1

/-- **Every literal of the first lines is one of the whole text**, or is cut off there. -/
theorem exists_extends {text : Bytes} {short : Literal} (h : short ∈ all text) :
    ∃ long ∈ all (text ++ behind), Extends text.length short long := by
  have hagree := (agree_allFrom hbehind (List.drop_zero (l := text ++ behind))).exists_long short h
  rwa [Nat.zero_add] at hagree

/-- **Every literal of the whole text that starts in the first lines is one of theirs**, or is cut off
    there. -/
theorem exists_extends_of_lt {text : Bytes} {long : Literal} (h : long ∈ all (text ++ behind))
    (hlt : long.start < text.length) : ∃ short ∈ all text, Extends text.length short long := by
  have hagree := agree_allFrom hbehind (List.drop_zero (l := text ++ behind))
  rw [Nat.zero_add] at hagree
  exact hagree.exists_short long h hlt

end Literal

end LogMarkup
