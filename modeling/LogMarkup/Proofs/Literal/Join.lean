import LogMarkup.Proofs.Literal.Decomposition
import LogMarkup.Proofs.Literal.Prefix

/-!
# `LogMarkup.Proofs.Literal.Join` — the literals of two texts, one behind the other

A text is scanned from different lines on, and its literals should not depend on where the scan starts.
They do if it starts inside of a literal, but not if it starts on a line in front of which no literal is
open. The reason is that no decision of a walk looks over a line feed: a pair, a run of signs or quotes, a
closer, each of these ends in front of it. So what the walks over the upper lines have found they find
again when further lines follow, and the search comes to the first of these lines with nothing in hand.

## Contents
- **Decisions.** `Enclosed.HeedsLines`, with `Opener.heedsLines` and `Enclosed.read_append_of_mem`.
- **One literal.** `Literal.read?_append_of_mem`, for a literal with a line feed behind it.
- **Moving right.** `Literal.moveRight` and `Literal.IsMoved`, with `Literal.allFrom_add`.
- **All literals.** `Bytes.EndsLine` and `Literal.allFrom_append`, by induction on the search;
  `Literal.all_append_line`, for whole texts.
-/

namespace LogMarkup

open Ascii

/-! ## Decisions -/

/-- The decisions of a walk that never looks over a line feed. -/
def Enclosed.HeedsLines {σ : Type} (move : σ → UInt8 → Bytes → Move σ) : Prop :=
  ∀ state b rest behind, lineFeed ∈ b :: rest → move state b (rest ++ behind) = move state b rest

namespace Opener

/-- A line feed itself is decided on without a look at what follows. -/
theorem move_lineFeed (opener : Opener) (depth : Nat) (rest rest' : Bytes) :
    opener.move depth lineFeed rest = opener.move depth lineFeed rest' := by
  cases opener <;> rfl

theorem heedsLines_moveInLine : Enclosed.HeedsLines moveInLine := by
  intro depth b rest behind hfeed
  by_cases hbackslash : b = backslash
  · have hne : rest ≠ [] := by
      rintro rfl
      rw [List.mem_singleton, hbackslash] at hfeed
      exact absurd hfeed (by decide)
    obtain ⟨c, more, rfl⟩ := List.exists_cons_of_ne_nil hne
    rfl
  · unfold moveInLine
    rw [if_neg hbackslash, if_neg hbackslash]

/-- **No rule looks over a line feed.** -/
theorem heedsLines (opener : Opener) : Enclosed.HeedsLines opener.move := by
  intro depth b rest behind hfeed
  rcases List.mem_cons.mp hfeed with rfl | hrest
  · exact opener.move_lineFeed depth (rest ++ behind) rest
  · -- Both texts go on with a line feed behind the same bytes.
    obtain ⟨front, more, rfl⟩ := List.append_of_mem hrest
    have hlong : Bytes.FollowsLine (lineFeed :: (more ++ behind)) := .lineFeed_cons _
    have hshort : Bytes.FollowsLine (lineFeed :: more) := .lineFeed_cons _
    have hverbatim (depth : Nat) : moveVerbatim depth b (front ++ lineFeed :: (more ++ behind))
        = moveVerbatim depth b (front ++ lineFeed :: more) := by
      rw [moveVerbatim_append hlong, moveVerbatim_append hshort]
    have hbraces (h : isBrace b = true) (depth : Nat) :
        moveBrace depth b (front ++ lineFeed :: (more ++ behind))
          = moveBrace depth b (front ++ lineFeed :: more) := by
      rw [moveBrace_append hlong h, moveBrace_append hshort h]
    have hline (depth : Nat) : moveInLine depth b (front ++ lineFeed :: more ++ behind)
        = moveInLine depth b (front ++ lineFeed :: more) :=
      heedsLines_moveInLine depth b (front ++ lineFeed :: more) behind hfeed
    rw [List.append_assoc, List.cons_append] at hline ⊢
    cases opener with
    | regular => exact hline depth
    | verbatim => exact hverbatim depth
    | raw dollars extraQuotes =>
        simp only [move]
        rw [moveRaw_append hlong, moveRaw_append hshort]
    | interpolated =>
        simp only [move, moveInterpolated]
        by_cases hbrace : isBrace b = true
        · rw [if_pos hbrace, if_pos hbrace]
          exact hbraces hbrace depth
        · rw [if_neg hbrace, if_neg hbrace, hline]
    | verbatimInterpolated dollarFirst =>
        simp only [move, moveVerbatimInterpolated]
        by_cases hbrace : isBrace b = true
        · rw [if_pos hbrace, if_pos hbrace]
          exact hbraces hbrace depth
        · rw [if_neg hbrace, if_neg hbrace, hverbatim]

/-- The opener at the head of a line does not depend on the lines below. -/
theorem read?_append_of_mem {text : Bytes} (h : lineFeed ∈ text) (behind : Bytes) :
    read? (text ++ behind) = read? text := by
  obtain ⟨front, more, rfl⟩ := List.append_of_mem h
  rw [List.append_assoc, List.cons_append]
  calc read? (front ++ lineFeed :: (more ++ behind))
      = read? front := read?_append (.lineFeed_cons _)
    _ = read? (front ++ lineFeed :: more) := (read?_append (.lineFeed_cons _)).symm

end Opener

/-- **A walk with a line feed behind its content** has made up its mind, whatever follows further down. -/
theorem Enclosed.read_append_of_mem {σ : Type} {move : σ → UInt8 → Bytes → Move σ}
    (hmove : HeedsLines move) {state : σ} {text : Bytes}
    (h : lineFeed ∈ text.drop (read move state text).content.length) (behind : Bytes) :
    read move state (text ++ behind) = read move state text := by
  have hahead : ∀ {n : Nat} {text : Bytes}, lineFeed ∈ text.drop n → lineFeed ∈ text :=
    fun h => List.mem_of_mem_drop h
  fun_induction read move state text with
  | case1 => exact absurd h (by simp)
  | case2 state b rest hclose =>
      rw [List.cons_append, read, hmove state b rest behind (hahead h), hclose]
  | case3 state b rest hstop =>
      rw [List.cons_append, read, hmove state b rest behind (hahead h), hstop]
  | case4 state b rest hstop =>
      rw [List.cons_append, read, hmove state b rest behind (hahead h), hstop]
  | case5 state b rest next hsingle ih =>
      rw [List.cons_append, read, hmove state b rest behind (hahead h), hsingle]
      exact congrArg (push b) (ih h)
  | case6 state b next hpair => exact absurd h (by simp)
  | case7 state b next c rest hpair ih =>
      rw [List.cons_append, read, hmove state b (c :: rest) behind (hahead h), hpair]
      exact congrArg (fun enclosed => (push c enclosed).push b) (ih h)

/-! ## One literal -/

namespace Literal

/-- Whether a literal starts at the head of a line does not depend on the lines below. -/
theorem read?_append_eq_none {start : Nat} {text : Bytes} (h : read? start text = none)
    (hfeed : lineFeed ∈ text) (behind : Bytes) : read? start (text ++ behind) = none := by
  have hopener := Opener.read?_append_of_mem hfeed behind
  unfold read? at h ⊢
  rw [hopener]
  split at h
  · rfl
  · exact absurd h (by simp)

/-- **A literal with a line feed behind it** is read whatever follows further down. -/
theorem read?_append_of_mem {start : Nat} {text : Bytes} {literal : Literal}
    (h : read? start text = some literal) (hfeed : lineFeed ∈ text.drop literal.width)
    (behind : Bytes) : read? start (text ++ behind) = some literal := by
  have hlength : literal.opener.text.length ≤ text.length :=
    (Opener.text_isPrefix (read?_eq_some_iff.mp h).2.1).length_le
  obtain ⟨hstart, hopener, hread⟩ := read?_eq_some_iff.mp h
  apply read?_eq_some_iff.mpr
  refine ⟨hstart, ?_, ?_⟩
  · rw [Opener.read?_append_of_mem (List.mem_of_mem_drop hfeed)]
    exact hopener
  · -- The line feed stands behind the closer, and so behind the content.
    have hwidth : literal.width = literal.opener.text.length + literal.content.length
        + (if literal.closed then literal.opener.closer else []).length := by
      simp only [width, Literal.text, List.length_append]
    rw [hwidth, ← List.drop_drop, ← List.drop_drop] at hfeed
    rw [List.drop_append_of_le_length hlength, Enclosed.read_append_of_mem literal.opener.heedsLines]
    · exact hread
    · rw [hread]
      exact List.mem_of_mem_drop hfeed

/-! ## Moving right -/

/-- The literal of a text in which `n` more bytes stand in front. -/
def moveRight (n : Nat) (literal : Literal) : Literal :=
  { literal with start := literal.start + n }

/-- Two literals that are the same but for their offsets, and those differ by `n` bytes. -/
structure IsMoved (n : Nat) (literal moved : Literal) : Prop where
  start_eq : moved.start = literal.start + n
  contentStart_eq : moved.contentStart = literal.contentStart + n
  contentStop_eq : moved.contentStop = literal.contentStop + n
  last_eq : moved.last = literal.last + n
  kind_eq : moved.kind = literal.kind
  content_eq : moved.content = literal.content
  closed_eq : moved.closed = literal.closed

theorem stop_moveRight (n : Nat) (literal : Literal) :
    (literal.moveRight n).stop = literal.stop + n := by
  show literal.start + n + literal.width = literal.start + literal.width + n
  omega

theorem isMoved_moveRight (n : Nat) (literal : Literal) : IsMoved n literal (literal.moveRight n) := by
  have hcontent : (literal.moveRight n).contentStart = literal.contentStart + n := by
    show literal.start + n + literal.opener.text.length = literal.start + literal.opener.text.length + n
    omega
  have hstop : (literal.moveRight n).contentStop = literal.contentStop + n := by
    show (literal.moveRight n).contentStart + literal.content.length
      = literal.contentStart + literal.content.length + n
    omega
  have hlast : (literal.moveRight n).last = literal.last + n := by
    have h := literal.last_add_one
    have h' := (literal.moveRight n).last_add_one
    rw [stop_moveRight] at h'
    omega
  exact ⟨rfl, hcontent, hstop, hlast, rfl, rfl, rfl⟩

theorem read?_add (n start : Nat) (text : Bytes) :
    read? (start + n) text = (read? start text).map (moveRight n) := by
  unfold read?
  split <;> rfl

/-- The search finds the same literals further right. -/
theorem allFrom_add (n start : Nat) (text : Bytes) :
    allFrom (start + n) text = (allFrom start text).map (moveRight n) := by
  fun_induction allFrom start text with
  | case1 start => rw [allFrom, List.map_nil]
  | case2 start b rest hnone ih =>
      rw [allFrom, read?_add, hnone]
      show allFrom (start + n + 1) rest = _
      rw [Nat.add_right_comm]
      exact ih
  | case3 start b rest literal hliteral ih =>
      rw [allFrom, read?_add, hliteral]
      show literal.moveRight n :: allFrom (literal.moveRight n).stop (rest.drop (literal.width - 1))
        = literal.moveRight n :: _
      rw [stop_moveRight, ih]

end Literal

/-! ## All literals -/

/-- Whole lines: nothing, or a text that ends with a line feed. -/
def Bytes.EndsLine (text : Bytes) : Prop := ∀ b, text.getLast? = some b → b = lineFeed

namespace Bytes.EndsLine

variable {text : Bytes} {n : Nat}

theorem drop (h : text.EndsLine) (n : Nat) : EndsLine (text.drop n) := by
  intro b hb
  rw [List.getLast?_drop] at hb
  split at hb
  · exact absurd hb (by simp)
  · exact h b hb

theorem lineFeed_mem (h : text.EndsLine) (hne : text ≠ []) : lineFeed ∈ text := by
  obtain ⟨b, hb⟩ := Option.isSome_iff_exists.mp (List.getLast?_isSome.mpr hne)
  rw [h b hb] at hb
  exact List.mem_of_getLast? hb

/-- A line feed stands behind everything that does not reach to the end. -/
theorem lineFeed_mem_drop (h : text.EndsLine) (hn : n < text.length) : lineFeed ∈ text.drop n := by
  apply (h.drop n).lineFeed_mem
  rw [Ne, List.drop_eq_nil_iff]
  omega

end Bytes.EndsLine

namespace Literal

variable {upper : Bytes}

/-- **The search in whole lines goes on as a search in the lines below**, if no literal takes the last line
    feed. -/
theorem allFrom_append {start : Nat} (hend : upper.EndsLine)
    (hfree : ∀ literal ∈ allFrom start upper, literal.stop < start + upper.length) (lower : Bytes) :
    allFrom start (upper ++ lower) = allFrom start upper ++ allFrom (start + upper.length) lower := by
  fun_induction allFrom start upper with
  | case1 start => rfl
  | case2 start b rest hnone ih =>
      have hfeed : lineFeed ∈ b :: rest := hend.lineFeed_mem (List.cons_ne_nil b rest)
      have hlength : start + (b :: rest).length = start + 1 + rest.length := by
        rw [List.length_cons]
        omega
      have hread : read? start (b :: (rest ++ lower)) = none := read?_append_eq_none hnone hfeed lower
      rw [hlength] at hfree ⊢
      rw [List.cons_append, allFrom, hread]
      exact ih (hend.drop 1) hfree
  | case3 start b rest literal hliteral ih =>
      have hstart := start_of_read? hliteral
      have hpos := literal.width_pos
      have hshort : literal.width < (b :: rest).length := by
        have hstop := hfree literal List.mem_cons_self
        rw [stop, hstart] at hstop
        omega
      have hfeed : lineFeed ∈ (b :: rest).drop literal.width := hend.lineFeed_mem_drop hshort
      have hread : read? start (b :: (rest ++ lower)) = some literal :=
        read?_append_of_mem hliteral hfeed lower
      -- The search goes on behind the literal, in a text that is shorter by its width.
      have hdrop : (b :: rest).drop literal.width = rest.drop (literal.width - 1) :=
        List.drop_cons hpos
      rw [List.length_cons] at hshort
      have hlength : start + (b :: rest).length
          = literal.stop + (rest.drop (literal.width - 1)).length := by
        rw [stop, hstart, List.length_drop, List.length_cons]
        omega
      rw [hlength] at hfree ⊢
      rw [List.cons_append, allFrom, hread]
      show literal :: allFrom literal.stop ((rest ++ lower).drop (literal.width - 1)) = _
      rw [List.drop_append_of_le_length (by omega), ih]
      · rfl
      · rw [← hdrop]
        exact hend.drop literal.width
      · intro other hother
        exact hfree other (List.mem_cons_of_mem _ hother)

/-- **String literals can be looked for from any line on in front of which none is open.** If a text ends with
    a line feed that is in no literal of it, then with more text behind it has the same literals, and behind
    them those of the other text, each as many bytes further right as stand in front, and otherwise the
    same. -/
theorem all_append_line {upper lower : Bytes} (hend : upper.getLast? = some lineFeed)
    (hfree : ∀ literal ∈ all upper,
      ¬ (literal.start ≤ upper.length - 1 ∧ upper.length - 1 ≤ literal.last)) :
    all (upper ++ lower) = all upper ++ (all lower).map (moveRight upper.length) ∧
      ∀ literal ∈ all lower, IsMoved upper.length literal (literal.moveRight upper.length) := by
  have hlines : upper.EndsLine := by
    intro b hb
    rw [hend] at hb
    exact (Option.some.inj hb).symm
  have hstop : ∀ literal ∈ allFrom 0 upper, literal.stop < 0 + upper.length := by
    intro literal hmem
    have hout := hfree literal hmem
    have hle := stop_le_length hmem
    have hlast := literal.last_add_one
    have hlow := (delimits_of_mem_all hmem).start_le_last
    omega
  refine ⟨?_, fun literal _ => isMoved_moveRight upper.length literal⟩
  calc all (upper ++ lower)
      = all upper ++ allFrom (0 + upper.length) lower := allFrom_append hlines hstop lower
    _ = all upper ++ (all lower).map (moveRight upper.length) := by rw [allFrom_add]; rfl

/-- A sign that opens nothing, and a string that its line cuts off, with a string of two lines behind. -/
theorem all_append_line_cut :
    ∃ upper lower : Bytes, upper = Bytes.ofString "$ + \"a\n" ∧
      lower = Bytes.ofString "@\"b\n\"\"c\" + \"d" ∧
      upper.getLast? = some lineFeed ∧
      (∀ literal ∈ all upper,
        ¬ (literal.start ≤ upper.length - 1 ∧ upper.length - 1 ≤ literal.last)) ∧
      all (upper ++ lower) = all upper ++ (all lower).map (moveRight upper.length) ∧
      (all lower).length = 2 := by
  have hend : (Bytes.ofString "$ + \"a\n").getLast? = some lineFeed := by decide +kernel
  have hfree : ∀ literal ∈ all (Bytes.ofString "$ + \"a\n"),
      ¬ (literal.start ≤ (Bytes.ofString "$ + \"a\n").length - 1 ∧
        (Bytes.ofString "$ + \"a\n").length - 1 ≤ literal.last) := by decide +kernel
  exact ⟨_, _, rfl, rfl, hend, hfree, (all_append_line hend hfree).1, by decide +kernel⟩

end Literal

end LogMarkup
