import LogMarkup.Proofs.Checked.Template

/-!
# `LogMarkup.Proofs.Expression.Extent` — the extents of holes, and the tokens in them

A template is plain text but for its holes. Each hole goes from its opening brace to the closing one that
is found for it, or to the end of the content, and in between it has tokens of all kinds. Outside of holes
there are only the brackets of indexes. So the tokens of a template fall into groups, one for each hole, and
single brackets between the groups.

The groups are not marked in the sequence of tokens: they are told by where the tokens start. This works
since the tokens of a template, and the holes as well, follow one another.

## Contents
- **One hole.** `HoleExtent`, with `HoleExtent.IsHole` and the tokens in it, `HoleExtent.Encloses`.
- **Outside of holes.** `Token.IsIndexMark`.
- **Sequences.** `HoleRow`, tokens and the extents of holes that follow one another, with one lemma for each
  way to put something in front.
- **Templates.** `Expression.exists_holeRow`, and from it `Mode.template_tokens_in_holes` — the tokens of a
  template are those of its holes, and brackets of indexes.
-/

namespace LogMarkup

open Ascii

/-! ## One hole -/

/-- Where a hole is in a template: the offsets of its opening brace and of its closing one, if it has one. -/
structure HoleExtent where
  opening : Nat
  closing? : Option Nat
deriving Repr, DecidableEq

namespace HoleExtent

/-- The offset where the inside of a hole ends: that of the closing brace, or the end of the content. -/
def insideStop (content : Bytes) (hole : HoleExtent) : Nat := hole.closing?.getD content.length

/-- The offset behind a hole. -/
def stop (content : Bytes) (hole : HoleExtent) : Nat :=
  hole.closing?.elim content.length fun closing => closing + 1

/-- Whether a token starts in a hole. -/
def has (content : Bytes) (hole : HoleExtent) (token : Token) : Bool :=
  hole.opening ≤ token.start && token.start < hole.stop content

/-- The tokens of the braces at the end of a hole, which are one or none. -/
def closers (hole : HoleExtent) : List Token :=
  hole.closing?.toList.map fun closing => Token.mark closing closeBrace

/-- A hole starts with a brace, and ends with the brace that the search from there finds. -/
structure IsHole (content : Bytes) (hole : HoleExtent) : Prop where
  opens : content[hole.opening]? = some openBrace
  search_eq : Checked.matchingBrace content hole.opening = .ok hole.closing?
  closes : ∀ closing ∈ hole.closing?, content[closing]? = some closeBrace
  opening_lt : hole.opening < hole.insideStop content

/-- Tokens that are strictly between the braces of a hole. -/
def IsInside (content : Bytes) (hole : HoleExtent) (token : Token) : Prop :=
  hole.opening < token.start ∧ token.start < token.stop ∧ token.stop ≤ hole.insideStop content

/-- Of all tokens, those of a hole are its opening brace, what is inside, and its closing brace. -/
def Encloses (content : Bytes) (hole : HoleExtent) (tokens : List Token) : Prop :=
  ∃ inside, tokens.filter (hole.has content)
      = Token.mark hole.opening openBrace :: (inside ++ hole.closers) ∧
    ∀ token ∈ inside, hole.IsInside content token

variable {content : Bytes} {hole : HoleExtent} {token : Token}

theorem has_iff : hole.has content token = true ↔
    hole.opening ≤ token.start ∧ token.start < hole.stop content := by
  simp [has]

theorem insideStop_le_stop : hole.insideStop content ≤ hole.stop content := by
  unfold insideStop stop
  cases hole.closing? with
  | none => exact Nat.le_refl _
  | some closing => exact Nat.le_succ _

/-- The tokens of a hole start in it. -/
theorem IsHole.has_of_mem (h : hole.IsHole content) {inside : List Token}
    (hinside : ∀ token ∈ inside, hole.IsInside content token)
    (hmem : token ∈ Token.mark hole.opening openBrace :: (inside ++ hole.closers)) :
    hole.has content token = true := by
  have hle : hole.insideStop content ≤ hole.stop content := insideStop_le_stop
  have hopening := h.opening_lt
  rw [has_iff]
  rcases List.mem_cons.mp hmem with rfl | hmem
  · show hole.opening ≤ hole.opening ∧ hole.opening < hole.stop content
    omega
  rcases List.mem_append.mp hmem with hmem | hmem
  · obtain ⟨hlow, hlt, hhigh⟩ := hinside token hmem
    omega
  · obtain ⟨closing, hclosing, rfl⟩ := List.mem_map.mp hmem
    have hsome := Option.mem_toList.mp hclosing
    simp only [insideStop, stop, Option.mem_def.mp hsome, Option.getD_some, Option.elim_some]
      at hopening ⊢
    show hole.opening ≤ closing ∧ closing < closing + 1
    omega

end HoleExtent

/-! ## Outside of holes -/

/-- A bracket right behind a word character or a closing bracket. -/
def Token.IsIndexMark (content : Bytes) (token : Token) : Prop :=
  ∃ n before b, token = Token.mark (n + 1) b ∧ (b = openBracket ∨ b = closeBracket) ∧
    content[n + 1]? = some b ∧ content[n]? = some before ∧
    (isWord before = true ∨ before = closeBracket)

/-! ## Sequences -/

/-- Tokens and the extents of holes, both at or behind an offset: the holes follow one another, each has
    its tokens, and what is in none of them is the bracket of an index. -/
structure HoleRow (content : Bytes) (low : Nat) (holes : List HoleExtent) (tokens : List Token) :
    Prop where
  isHole : ∀ hole ∈ holes, hole.IsHole content
  low_le_opening : ∀ hole ∈ holes, low ≤ hole.opening
  low_le_start : ∀ token ∈ tokens, low ≤ token.start
  pairwise : holes.Pairwise fun first second => first.stop content ≤ second.opening
  encloses : ∀ hole ∈ holes, hole.Encloses content tokens
  isIndexMark : ∀ token ∈ tokens, (∀ hole ∈ holes, hole.has content token = false) →
    token.IsIndexMark content

namespace HoleRow

variable {content : Bytes} {low mid : Nat} {hole : HoleExtent} {holes : List HoleExtent}
  {token : Token} {tokens : List Token}

theorem nil : HoleRow content low [] [] :=
  ⟨by simp, by simp, by simp, .nil, by simp, by simp⟩

/-- A row may be said to start earlier. -/
theorem mono (h : HoleRow content mid holes tokens) (hle : low ≤ mid) :
    HoleRow content low holes tokens := by
  refine ⟨h.isHole, ?_, ?_, h.pairwise, h.encloses, h.isIndexMark⟩
  · intro hole hmem
    exact hle.trans (h.low_le_opening hole hmem)
  · intro token hmem
    exact hle.trans (h.low_le_start token hmem)

/-- Tokens in front of a row belong to none of its holes. -/
theorem filter_append (h : HoleRow content mid holes tokens) {front : List Token}
    (hfront : ∀ token ∈ front, token.start < mid) (hmem : hole ∈ holes) :
    (front ++ tokens).filter (hole.has content) = tokens.filter (hole.has content) := by
  have hnone : front.filter (hole.has content) = [] := by
    refine List.filter_eq_nil_iff.mpr fun token htoken hhas => ?_
    have hlow := h.low_le_opening hole hmem
    have hstart := hfront token htoken
    have hopening := (HoleExtent.has_iff.mp hhas).1
    omega
  rw [List.filter_append, hnone, List.nil_append]

/-- The bracket of an index in front of a row. -/
theorem cons_indexMark (h : HoleRow content mid holes tokens) (hlow : low ≤ token.start)
    (hmid : token.start < mid) (hmark : token.IsIndexMark content) :
    HoleRow content low holes (token :: tokens) := by
  refine ⟨h.isHole, ?_, ?_, h.pairwise, ?_, ?_⟩
  · intro hole hmem
    have hopening := h.low_le_opening hole hmem
    omega
  · refine List.forall_mem_cons.mpr ⟨hlow, ?_⟩
    intro other hmem
    have hstart := h.low_le_start other hmem
    omega
  · intro hole hmem
    have hfront : ∀ other ∈ [token], other.start < mid := List.forall_mem_singleton.mpr hmid
    have hfilter := h.filter_append hfront hmem
    obtain ⟨inside, hinside, hall⟩ := h.encloses hole hmem
    exact ⟨inside, hfilter.trans hinside, hall⟩
  · refine List.forall_mem_cons.mpr ⟨fun _ => hmark, ?_⟩
    exact h.isIndexMark

/-- A hole with its tokens in front of a row. -/
theorem cons_hole (hhole : hole.IsHole content) (hlow : low ≤ hole.opening) {inside : List Token}
    (hinside : ∀ token ∈ inside, hole.IsInside content token)
    (h : HoleRow content (hole.stop content) holes tokens) :
    HoleRow content low (hole :: holes)
      (Token.mark hole.opening openBrace :: (inside ++ hole.closers) ++ tokens) := by
  have hgroup : ∀ token ∈ Token.mark hole.opening openBrace :: (inside ++ hole.closers),
      hole.has content token = true := fun token hmem => hhole.has_of_mem hinside hmem
  have hopening := hhole.opening_lt.trans_le HoleExtent.insideStop_le_stop
  refine ⟨?_, ?_, ?_, ?_, ?_, ?_⟩
  · exact List.forall_mem_cons.mpr ⟨hhole, h.isHole⟩
  · refine List.forall_mem_cons.mpr ⟨hlow, ?_⟩
    intro other hmem
    have hother := h.low_le_opening other hmem
    omega
  · intro token hmem
    rcases List.mem_append.mp hmem with hmem | hmem
    · exact hlow.trans (HoleExtent.has_iff.mp (hgroup token hmem)).1
    · have hstart := h.low_le_start token hmem
      omega
  · exact List.pairwise_cons.mpr ⟨h.low_le_opening, h.pairwise⟩
  · refine List.forall_mem_cons.mpr ⟨?_, ?_⟩
    · refine ⟨inside, ?_, hinside⟩
      have hnone : tokens.filter (hole.has content) = [] := by
        refine List.filter_eq_nil_iff.mpr fun token hmem hhas => ?_
        have hstart := h.low_le_start token hmem
        have hstop := (HoleExtent.has_iff.mp hhas).2
        omega
      rw [List.filter_append, hnone, List.append_nil, List.filter_eq_self.mpr hgroup]
    · intro other hmem
      have hfront : ∀ token ∈ Token.mark hole.opening openBrace :: (inside ++ hole.closers),
          token.start < hole.stop content :=
        fun token htoken => (HoleExtent.has_iff.mp (hgroup token htoken)).2
      obtain ⟨inner, hinner, hall⟩ := h.encloses other hmem
      exact ⟨inner, (h.filter_append hfront hmem).trans hinner, hall⟩
  · intro token hmem hout
    obtain ⟨hfirst, hothers⟩ := List.forall_mem_cons.mp hout
    rcases List.mem_append.mp hmem with hmem | hmem
    · rw [hgroup token hmem] at hfirst
      exact absurd hfirst (by simp)
    · exact h.isIndexMark token hmem hothers

/-- Only the last hole of a row may lack its closing brace. -/
theorem isSome_closing? (h : HoleRow content low holes tokens) :
    ∀ hole ∈ holes.dropLast, hole.closing?.isSome = true := by
  intro hole hmem
  have hne : holes ≠ [] := by
    rintro rfl
    exact absurd hmem List.not_mem_nil
  have hpairwise := h.pairwise
  rw [← List.dropLast_append_getLast hne] at hpairwise
  have hle : hole.stop content ≤ (holes.getLast hne).opening :=
    (List.pairwise_append.mp hpairwise).2.2 hole hmem _ (List.mem_singleton_self _)
  have hlast := (List.getElem?_eq_some_iff.mp (h.isHole _ (List.getLast_mem hne)).opens).1
  cases hclosing : hole.closing? with
  | some closing => rfl
  | none =>
      simp only [HoleExtent.stop, hclosing, Option.elim_none] at hle
      omega

end HoleRow

/-! ## Templates -/

/-- The extent of the hole whose opening brace has an offset and stands in front of a text. -/
def HoleExtent.of (opening : Nat) (rest : Bytes) : HoleExtent :=
  ⟨opening, Checked.closingOf (opening + 1) (Expression.hole rest)⟩

namespace HoleExtent

theorem closing?_of (start : Nat) (rest : Bytes) : (of start rest).closing? =
    if (Expression.hole rest).closed then some (start + 1 + (Expression.hole rest).content.length)
    else none := rfl

section

variable {content rest : Bytes} {start : Nat} (htext : content.drop start = openBrace :: rest)

include htext

/-- The body of a hole is what is between its braces, or all that is behind the opening one. -/
theorem insideStop_of :
    (of start rest).insideStop content = start + 1 + (Expression.hole rest).content.length := by
  rw [insideStop, closing?_of]
  cases hclosed : (Expression.hole rest).closed with
  | true => rfl
  | false =>
      have hlength := Bytes.length_of_drop_eq_cons htext
      have hall : (Expression.hole rest).content = rest :=
        Enclosed.content_eq_of_open Expression.neverStops_moveHole hclosed
      rw [hall]
      show content.length = start + 1 + rest.length
      omega

theorem isHole_of (hvalid : Utf8.isValid content = true) : (of start rest).IsHole content := by
  have hlt := Bytes.lt_of_drop_eq_cons htext
  have hrest : content.drop (start + 1) = rest := Bytes.drop_add_of_drop_eq_cons htext Nat.one_pos
  refine ⟨Bytes.getElem?_of_drop_eq_cons htext, Checked.matchingBrace_eq htext, ?_, ?_⟩
  · intro closing hclosing
    rw [closing?_of] at hclosing
    split at hclosing
    · next hclosed =>
        obtain rfl := Option.some.inj hclosing
        obtain ⟨behind, hdrop⟩ := (Expression.row_hole hvalid hrest hlt).2.2 hclosed
        exact Bytes.getElem?_of_drop_eq_cons hdrop
    · exact absurd hclosing (by simp)
  · rw [insideStop_of htext]
    show start < start + 1 + (Expression.hole rest).content.length
    omega

/-- The tokens of the body of a hole are inside of it. -/
theorem isInside_of_mem_bodyTokens (hvalid : Utf8.isValid content = true) :
    ∀ token ∈ Expression.bodyTokens (start + 1) (Expression.hole rest).content,
      (of start rest).IsInside content token := by
  intro token hmem
  have hlt := Bytes.lt_of_drop_eq_cons htext
  have hrest : content.drop (start + 1) = rest := Bytes.drop_add_of_drop_eq_cons htext Nat.one_pos
  obtain ⟨hrow, hbound, -⟩ := Expression.row_hole hvalid hrest hlt
  refine ⟨hrow.le_start token hmem, (hrow.standsIn token hmem).start_lt_stop, ?_⟩
  rw [insideStop_of htext]
  exact hbound token hmem

end

end HoleExtent

namespace Expression

/-- The byte in front of a bracket that indexes something. -/
theorem exists_before_of_isIndexed {content : Bytes} {start : Nat} (hle : start ≤ content.length)
    (h : isIndexed (content.take start).getLast? = true) :
    ∃ n before, start = n + 1 ∧ content[n]? = some before ∧
      (isWord before = true ∨ before = closeBracket) := by
  cases start with
  | zero => exact absurd h (by simp [isIndexed])
  | succ n =>
      rw [List.take_succ_eq_append_getElem hle, List.getLast?_concat] at h
      refine ⟨n, content[n], rfl, List.getElem?_eq_getElem hle, ?_⟩
      simpa [isIndexed] using h

/-- **The tokens of a template fall into its holes**, but for the brackets of indexes. -/
theorem exists_holeRow {content text : Bytes} {before : Option UInt8} {start : Nat}
    (hvalid : Utf8.isValid content = true) (htext : content.drop start = text)
    (hbefore : (content.take start).getLast? = before) :
    ∃ holes, HoleRow content start holes (templateTokensFrom before start text) := by
  fun_induction templateTokensFrom before start text with
  | case1 before start => exact ⟨[], .nil⟩
  | case2 before start b rest hstart body stop ih =>
      -- A hole, and behind its closing brace the rest of the template.
      obtain rfl : b = openBrace := eq_of_beq (Bool.and_eq_true_iff.mp hstart).1
      have hhole := HoleExtent.isHole_of htext hvalid
      have hinside := HoleExtent.isInside_of_mem_bodyTokens htext hvalid
      by_cases hclosed : body.closed = true
      · rw [if_pos hclosed]
        have hclosing : (HoleExtent.of start rest).closing? = some stop := if_pos hclosed
        have hclosers : (HoleExtent.of start rest).closers = [Token.mark stop closeBrace] := by
          rw [HoleExtent.closers, hclosing]
          rfl
        have hstop : (HoleExtent.of start rest).stop content = stop + 1 := by
          rw [HoleExtent.stop, hclosing]
          rfl
        have hrest : content.drop (start + 1) = rest :=
          Bytes.drop_add_of_drop_eq_cons htext Nat.one_pos
        obtain ⟨behind, hdrop⟩ := (row_hole hvalid hrest (Bytes.lt_of_drop_eq_cons htext)).2.2 hclosed
        have hbehind : content.drop (stop + 1) = rest.drop (body.content.length + 1) := by
          rw [← hrest, List.drop_drop, ← Nat.add_assoc]
        obtain ⟨holes, htail⟩ := ih hbehind (Bytes.getLast?_take_add hdrop 0)
        rw [← hstop] at htail
        have hrow := HoleRow.cons_hole hhole (Nat.le_refl start) hinside htail
        rw [hclosers, hstop, List.cons_append, List.append_assoc] at hrow
        exact ⟨_, hrow⟩
      · rw [if_neg hclosed]
        have hclosers : (HoleExtent.of start rest).closers = [] := by
          rw [HoleExtent.closers, HoleExtent.closing?_of, if_neg hclosed]
          rfl
        have hrow := HoleRow.cons_hole hhole (Nat.le_refl start) hinside .nil
        rw [hclosers, List.append_nil] at hrow
        exact ⟨_, hrow⟩
  | case3 before start b rest hstart hindex ih =>
      have hlt := Bytes.lt_of_drop_eq_cons htext
      have hlast := Bytes.getLast?_take_add htext 0
      obtain ⟨holes, hrow⟩ := ih (Bytes.drop_add_of_drop_eq_cons htext Nat.one_pos) hlast
      obtain ⟨n, c, rfl, hc, hclass⟩ := exists_before_of_isIndexed (Nat.le_of_lt hlt) (hbefore ▸ hindex.2)
      have hmark : (Token.mark (n + 1) b).IsIndexMark content :=
        ⟨n, c, b, rfl, hindex.1, Bytes.getElem?_of_drop_eq_cons htext, hc, hclass⟩
      exact ⟨holes, hrow.cons_indexMark (Nat.le_refl _) (Nat.lt_succ_self _) hmark⟩
  | case4 before start b rest hstart hindex more ih =>
      have hlast := Bytes.getLast?_take_add htext more
      have hdrop : content.drop (start + 1 + more) = rest.drop more := by
        rw [Nat.add_assoc, Bytes.drop_add_of_drop_eq_cons htext (by omega), Nat.add_sub_cancel_left]
      obtain ⟨holes, hrow⟩ := ih hdrop hlast
      exact ⟨holes, hrow.mono (by omega)⟩

end Expression

/-- **The tokens of a template are those of its holes, and brackets of indexes.** The holes follow one
    another, and only the last one may go on to the end of the content. Each starts with the token of its
    opening brace and ends with that of the closing brace that the search from the opening one finds, and
    its other tokens are strictly in between. What is in no hole is a bracket right behind a word character
    or a closing bracket. -/
theorem Mode.template_tokens_in_holes {content : Bytes} (hvalid : Utf8.isValid content = true) :
    ∃ holes : List HoleExtent,
      (holes.Pairwise fun first second => first.stop content ≤ second.opening) ∧
      (∀ hole ∈ holes.dropLast, hole.closing?.isSome = true) ∧
      (∀ hole ∈ holes, hole.IsHole content ∧ hole.Encloses content (template.tokens content)) ∧
      ∀ token ∈ template.tokens content, (∀ hole ∈ holes, hole.has content token = false) →
        token.IsIndexMark content := by
  have htokens : ∃ holes, HoleRow content 0 holes (template.tokens content) :=
    Expression.exists_holeRow hvalid List.drop_zero rfl
  obtain ⟨holes, hrow⟩ := htokens
  refine ⟨holes, hrow.pairwise, hrow.isSome_closing?, ?_, hrow.isIndexMark⟩
  intro hole hmem
  exact ⟨hrow.isHole hole hmem, hrow.encloses hole hmem⟩

/-- Behind an index and a closed hole, a hole that is not closed. -/
theorem Mode.template_tokens_in_holes_unclosed :
    Utf8.isValid (Bytes.ofString "p[0] \x7ba\x7d \x7bb") = true ∧
      ∃ hole : HoleExtent, hole.has (Bytes.ofString "p[0] \x7ba\x7d \x7bb") (Token.mark 9 openBrace) ∧
        hole.IsHole (Bytes.ofString "p[0] \x7ba\x7d \x7bb") ∧
        hole.Encloses (Bytes.ofString "p[0] \x7ba\x7d \x7bb")
          (template.tokens (Bytes.ofString "p[0] \x7ba\x7d \x7bb")) := by
  have hvalid : Utf8.isValid (Bytes.ofString "p[0] \x7ba\x7d \x7bb") = true := by decide
  have hmem : Token.mark 9 openBrace
      ∈ template.tokens (Bytes.ofString "p[0] \x7ba\x7d \x7bb") := by decide +kernel
  obtain ⟨holes, -, -, hall, hout⟩ := template_tokens_in_holes hvalid
  refine ⟨hvalid, ?_⟩
  by_contra hnone
  -- The brace would be the bracket of an index.
  obtain ⟨n, before, b, hmark, hbracket, -⟩ := hout _ hmem fun hole hhole => by
    by_contra hhas
    exact hnone ⟨hole, by simpa using hhas, hall hole hhole⟩
  have hvalue : [openBrace] = [b] := congrArg Token.value hmark
  rw [← List.singleton_inj.mp hvalue] at hbracket
  exact absurd hbracket (by decide)

end LogMarkup
