import LogMarkup.Expression.Mode
import LogMarkup.Proofs.Expression.Placement
import LogMarkup.Proofs.Text.Row

/-!
# `LogMarkup.Proofs.Expression.Scanner` — the tokens of a content follow one another

The scanners of expressions and templates call each other with the place that they have reached and
the text behind it. Each of them keeps one promise: its tokens stand in the content, start at or behind
that place, and follow one another. A hole is read as a text of its own, cut off in front of the closing
brace, so that no scanner can carry a token beyond it, whatever it looks at.

## Contents
- **Single steps.** What the walks over numbers and holes decide at a byte.
- **Expressions.** `Expression.row_tokensFrom`.
- **Holes.** One lemma for each scanner of a hole, up to `Expression.row_bodyTokens`, and
  `Expression.row_hole` for the place of the hole in its template.
- **Templates.** `Expression.row_templateTokensFrom`.
- **Contents.** `Mode.row_tokens` and `Expression.isRow_regions`, and from them `Mode.tokens_placed` —
  tokens and regions are ordered, disjoint and in bounds.
-/

namespace LogMarkup

open Ascii Token

section

variable {content text : Bytes} {start : Nat}

/-! ## Single steps -/

theorem Lexeme.Fits.width_pos {lexeme : Lexeme} (h : lexeme.Fits text) : 0 < lexeme.width := by
  cases lexeme with
  | skip more => exact Nat.succ_pos more
  | shown kind part => exact List.length_pos_iff.mpr h.2.ne_nil
  | quoted enclosed =>
      rw [width]
      split <;> omega

namespace Expression

/-- The number behind the comma of an alignment is ASCII, where there is one. -/
theorem isAsciiHead_width (hne : width text ≠ []) : Bytes.IsAsciiHead (width text) text := by
  unfold width at hne ⊢
  split at hne
  · exact absurd rfl hne
  · next b rest =>
      split at hne
      · next hsign =>
          rw [if_pos hsign]
          refine Bytes.isAsciiHead_takeWhile rest ?_ fun _ => lt_of_isDigit
          rcases hsign with rfl | rfl <;> decide
      · next hsign =>
          rw [if_neg hsign]
          refine ⟨List.takeWhile_prefix _, hne, ?_⟩
          intro c hc
          exact lt_of_isDigit (List.mem_takeWhile_imp hc)

theorem eq_closeBrace_of_moveHole {state : HoleState} {b : UInt8} {rest : Bytes}
    (h : moveHole state b rest = .close) : b = closeBrace := by
  unfold moveHole at h
  split at h
  · exact absurd h (by simp)
  split at h
  · exact absurd h (by simp)
  split at h
  · exact absurd h (by simp)
  split at h
  · exact absurd h (by simp)
  split at h
  · assumption
  · exact absurd h (by simp)

theorem neverStops_moveHole : Enclosed.NeverStops moveHole := by
  intro state b rest
  unfold moveHole
  repeat' split
  all_goals simp

end Expression

/-! ## Expressions -/

variable (hvalid : Utf8.isValid content = true)

include hvalid

/-- The token of a lexeme covers exactly what the lexeme takes. -/
theorem Lexeme.standsIn_of_token? {lexeme : Lexeme} {token : Token} (hfits : lexeme.Fits text)
    (htext : content.drop start = text) (htoken : lexeme.token? start = some token) :
    token.StandsIn content ∧ token.start = start ∧ token.stop = start + lexeme.width := by
  cases lexeme with
  | skip more => exact absurd htoken (by simp [token?])
  | shown kind part =>
      obtain rfl := Option.some.inj htoken
      exact ⟨standsIn_ofText hvalid htext hfits.1 hfits.2, rfl, rfl⟩
  | quoted enclosed =>
      obtain rfl := Option.some.inj htoken
      obtain ⟨closer, rest, rfl, hquote, rfl⟩ := hfits
      exact ⟨standsIn_quoted hvalid htext hquote rfl, rfl, rfl⟩

namespace Expression

/-- **The tokens of an expression follow one another.** -/
theorem row_tokensFrom (htext : content.drop start = text) :
    Row content start (tokensFrom start text) := by
  fun_induction tokensFrom start text with
  | case1 start => exact .nil
  | case2 start b rest lexeme ih =>
      have hfits : lexeme.Fits (b :: rest) := Lexeme.fits_first b rest
      have hrow := ih (Bytes.drop_add_of_drop_eq_cons htext hfits.width_pos)
      -- Whether or not the lexeme has a token, what is behind it starts where it stops.
      cases htoken : lexeme.token? start with
      | none => exact hrow.mono (Nat.le_add_right _ _)
      | some token =>
          obtain ⟨hstands, hstart, hstop⟩ := Lexeme.standsIn_of_token? hvalid hfits htext htoken
          rw [← hstop] at hrow ⊢
          exact .cons hstands (Nat.le_of_eq hstart.symm) hrow

/-! ## Holes -/

theorem standsIn_mark {b : UInt8} {rest : Bytes} (htext : content.drop start = b :: rest)
    (hb : b < 0x80) : (mark start b).StandsIn content :=
  standsIn_ofText hvalid htext (by simp) (Bytes.isAsciiHead_singleton rest hb)

theorem row_formatTokens (htext : content.drop start = text) :
    Row content start (formatTokens start text) := by
  unfold formatTokens
  split
  · exact .nil
  · next b rest =>
      split
      · next hcolon =>
          have hb : b < 0x80 := hcolon ▸ (by decide)
          refine .cons (standsIn_mark hvalid htext hb) (Nat.le_refl _) ?_
          split
          · exact .nil
          · next hne =>
              have hbound := Utf8.isBoundary_succ hvalid (Bytes.getElem?_of_drop_eq htext 0) hb
              have hrest := Bytes.drop_add_of_drop_eq_cons htext Nat.one_pos
              exact .singleton (standsIn_rest hvalid hrest (by simp) hne hbound) (Nat.le_refl _)
      · exact row_tokensFrom hvalid htext

/-- What starts behind a number, which may be missing, follows the number. -/
theorem row_number_append {number : Bytes} {mid : Nat} {tokens : List Token}
    (htext : content.drop start = text) (hnumber : number ≠ [] → Bytes.IsAsciiHead number text)
    (hmid : start + number.length ≤ mid) (hrow : Row content mid tokens) :
    Row content start
      ((if number = [] then [] else [Token.ofText .number start number]) ++ tokens) := by
  by_cases hne : number = []
  · rw [if_pos hne]
    exact hrow.mono ((Nat.le_add_right _ _).trans hmid)
  · rw [if_neg hne]
    exact .cons (standsIn_ofText hvalid htext (by simp) (hnumber hne)) (Nat.le_refl _)
      (hrow.mono hmid)

theorem row_alignmentTokens (htext : content.drop start = text) :
    Row content start (alignmentTokens start text) := by
  unfold alignmentTokens
  extract_lets blanks number behind blanksBehind
  have hnumber : content.drop (start + blanks) = text.drop blanks := by
    rw [← List.drop_drop, htext]
  have hbehind : content.drop (start + blanks + number.length + blanksBehind)
      = behind.drop blanksBehind := by
    rw [← List.drop_drop, ← List.drop_drop, hnumber]
    exact congrArg (List.drop blanksBehind) List.drop_drop
  refine .mono ?_ (Nat.le_add_right start blanks)
  exact row_number_append hvalid hnumber isAsciiHead_width (Nat.le_add_right _ _)
    (row_formatTokens hvalid hbehind)

theorem row_tailTokens (htext : content.drop start = text) :
    Row content start (tailTokens start text) := by
  unfold tailTokens
  extract_lets blanks
  have hdrop : content.drop (start + blanks) = text.drop blanks := by
    rw [← List.drop_drop, htext]
  refine .mono ?_ (Nat.le_add_right start blanks)
  split
  · exact .nil
  · next b rest heq =>
      rw [heq] at hdrop
      split
      · next hcomma =>
          refine .cons (standsIn_mark hvalid hdrop (hcomma ▸ (by decide))) (Nat.le_refl _) ?_
          exact row_alignmentTokens hvalid (Bytes.drop_add_of_drop_eq_cons hdrop Nat.one_pos)
      · exact row_formatTokens hvalid hdrop

/-- A name at the head of a hole, and its tail. -/
theorem row_namedTokens {kind : TokenKind} {b : UInt8} {p : UInt8 → Bool} {rest : Bytes}
    (htext : content.drop start = b :: rest) (hkind : kind ≠ .string) (hb : b < 0x80)
    (hp : ∀ c, p c = true → c < 0x80) :
    Row content start (namedTokens kind start (b :: rest.takeWhile p) (rest.dropWhile p)) :=
  .cons (standsIn_ofText hvalid htext hkind (Bytes.isAsciiHead_takeWhile rest hb hp))
    (Nat.le_refl _) (row_tailTokens hvalid (Bytes.drop_word p htext))

/-- **The tokens of the body of a hole follow one another.** -/
theorem row_bodyTokens (htext : content.drop start = text) :
    Row content start (bodyTokens start text) := by
  unfold bodyTokens
  split
  · exact .nil
  · next b rest =>
      split
      · next hhash =>
          have hb : b < 0x80 := hhash ▸ (by decide)
          refine .cons (standsIn_ofText hvalid htext (by simp)
            (Bytes.isAsciiHead_takeWhile rest hb fun _ => lt_of_isLetter)) (Nat.le_refl _) ?_
          exact row_tokensFrom hvalid (Bytes.drop_word isLetter htext)
      split
      · next hat =>
          split
          · exact row_namedTokens hvalid htext (by simp) (hat ▸ (by decide)) fun _ => lt_of_isLower
          · refine .mono ?_ (Nat.le_add_right start 1)
            exact row_tailTokens hvalid (Bytes.drop_add_of_drop_eq_cons htext Nat.one_pos)
      split
      · next hdollar =>
          exact row_namedTokens hvalid htext (by simp) (hdollar.1 ▸ (by decide))
            fun _ => lt_of_isWord
      split
      · next hword =>
          exact row_namedTokens hvalid htext (by simp) (lt_of_isWord hword.1) fun _ => lt_of_isWord
      · exact row_tokensFrom hvalid htext

end Expression

end

namespace Expression

/-- The text in front of a boundary is read as if nothing stood behind it. -/
theorem row_bodyTokens_of_isPrefix {content body : Bytes} {start : Nat}
    (hbody : body <+: content.drop start)
    (hstop : Utf8.IsBoundary content (start + body.length)) :
    Row content start (bodyTokens start body) ∧
      ∀ token ∈ bodyTokens start body, token.stop ≤ start + body.length := by
  have htake : (content.take (start + body.length)).drop start = body := by
    rw [List.drop_take, Nat.add_sub_cancel_left]
    exact (List.prefix_iff_eq_take.mp hbody).symm
  -- The body is read in the content that ends with it, which keeps its tokens in front of the stop.
  have hrow := row_bodyTokens hstop.isValid_take htake
  refine ⟨hrow.of_take hstop, ?_⟩
  intro token hmem
  have hle := (hrow.standsIn token hmem).stop_le
  rwa [List.length_take_of_le hstop.le_length] at hle

/-- The tokens of a hole end in front of its closing brace, or else with the content. -/
theorem row_hole {content rest : Bytes} {start : Nat} (hvalid : Utf8.isValid content = true)
    (htext : content.drop start = rest) (hstart : start ≤ content.length) :
    Row content start (bodyTokens start (hole rest).content) ∧
      (∀ token ∈ bodyTokens start (hole rest).content,
        token.stop ≤ start + (hole rest).content.length) ∧
      ((hole rest).closed = true →
        ∃ behind, content.drop (start + (hole rest).content.length) = closeBrace :: behind) := by
  have hbody : (hole rest).content <+: content.drop start :=
    htext ▸ Enclosed.content_isPrefix _ rest
  cases hclosed : (hole rest).closed with
  | true =>
      obtain ⟨last, b, behind, hrest, hmove⟩ := Enclosed.closes_of_closed hclosed
      obtain rfl := eq_closeBrace_of_moveHole hmove
      have hdrop : content.drop (start + (hole rest).content.length) = closeBrace :: behind := by
        rw [← List.drop_drop, htext]
        exact (congrArg (List.drop (hole rest).content.length) hrest).trans List.drop_left
      have hget : content[start + (hole rest).content.length]? = some closeBrace :=
        Bytes.getElem?_of_drop_eq hdrop 0
      obtain ⟨hrow, hbound⟩ :=
        row_bodyTokens_of_isPrefix hbody (Utf8.isBoundary_of_ascii hvalid hget (by decide))
      exact ⟨hrow, hbound, fun _ => ⟨behind, hdrop⟩⟩
  | false =>
      have hrest : (hole rest).content = rest :=
        Enclosed.content_eq_of_open neverStops_moveHole hclosed
      have hlength := congrArg List.length htext
      rw [List.length_drop] at hlength
      have hstop : start + (hole rest).content.length = content.length := by
        rw [hrest, ← hlength, Nat.add_sub_cancel' hstart]
      obtain ⟨hrow, hbound⟩ :=
        row_bodyTokens_of_isPrefix hbody (hstop ▸ Utf8.isBoundary_length hvalid)
      exact ⟨hrow, hbound, fun h => absurd h (by simp)⟩

/-! ## Templates -/

/-- **The tokens of a template follow one another.** -/
theorem row_templateTokensFrom {content text : Bytes} {before : Option UInt8} {start : Nat}
    (hvalid : Utf8.isValid content = true) (htext : content.drop start = text) :
    Row content start (templateTokensFrom before start text) := by
  fun_induction templateTokensFrom before start text with
  | case1 before start => exact .nil
  | case2 before start b rest hstart body stop ih =>
      -- A hole opens: its brace, its body, and behind a closing brace the rest of the template.
      have hb : b < 0x80 := by
        rw [eq_of_beq (Bool.and_eq_true_iff.mp hstart).1]
        decide
      have hrest : content.drop (start + 1) = rest :=
        Bytes.drop_add_of_drop_eq_cons htext Nat.one_pos
      have hlength := Bytes.length_of_drop_eq_cons htext
      obtain ⟨hbody, hbound, hclose⟩ := row_hole hvalid hrest (by omega)
      refine .cons (standsIn_mark hvalid htext hb) (Nat.le_refl _) ?_
      refine hbody.append ?_ (Nat.le_add_right _ _) hbound
      split
      · next hclosed =>
          obtain ⟨behind, hdrop⟩ := hclose hclosed
          refine .cons (standsIn_mark hvalid hdrop (by decide)) (Nat.le_refl _) (ih ?_)
          rw [← hrest, List.drop_drop, ← Nat.add_assoc]
      · exact .nil
  | case3 before start b rest hstart hindex ih =>
      -- A bracket of an index is a token of its own.
      have hb : b < 0x80 := by
        rcases hindex.1 with rfl | rfl <;> decide
      refine .cons (standsIn_mark hvalid htext hb) (Nat.le_refl _) (ih ?_)
      exact Bytes.drop_add_of_drop_eq_cons htext Nat.one_pos
  | case4 before start b rest hstart hindex more ih =>
      -- Plain text is passed over.
      refine .mono (ih ?_) (Nat.add_assoc start 1 more ▸ Nat.le_add_right _ _)
      rw [Nat.add_assoc, Bytes.drop_add_of_drop_eq_cons htext (by omega), Nat.add_sub_cancel_left]

end Expression

/-! ## Contents -/

/-- A token without a region is left out, and the region of any other one covers it. -/
theorem Token.span_of_region? {token : Token} {region : Region} (h : token.region? = some region) :
    region.start = token.start ∧ region.stop = token.stop := by
  obtain ⟨classification, -, rfl⟩ := Option.map_eq_some_iff.mp h
  exact ⟨rfl, rfl⟩

section

variable {content : Bytes} (hvalid : Utf8.isValid content = true)

include hvalid

/-- **The tokens of a content follow one another, whatever the mode.** -/
theorem Mode.row_tokens (mode : Mode) : Row content 0 (mode.tokens content) := by
  cases mode with
  | template => exact Expression.row_templateTokensFrom hvalid rfl
  | expression => exact Expression.row_tokensFrom hvalid rfl

/-- **The regions of an expression are pieces of its content in a row.** -/
theorem Expression.isRow_regions :
    IsRow 0 content.length ((Expression.regions content).map Region.offsets) := by
  have hrow := (Mode.ofContent content).row_tokens hvalid
  -- Every region covers a token of the mode that suits the content.
  have htoken : ∀ region ∈ Expression.regions content,
      ∃ token ∈ (Mode.ofContent content).tokens content,
        region.start = token.start ∧ region.stop = token.stop := by
    intro region hregion
    obtain ⟨token, hmem, hspan⟩ := List.mem_filterMap.mp hregion
    exact ⟨token, hmem, span_of_region? hspan⟩
  refine ⟨?_, ?_, ?_, List.pairwise_map.mpr ?_⟩
  · rw [List.forall_mem_map]
    intro region hregion
    obtain ⟨token, hmem, hstart, hstop⟩ := htoken region hregion
    show region.start < region.stop
    rw [hstart, hstop]
    exact (hrow.standsIn token hmem).start_lt_stop
  · intro piece _
    exact Nat.zero_le _
  · rw [List.forall_mem_map]
    intro region hregion
    obtain ⟨token, hmem, -, hstop⟩ := htoken region hregion
    show region.stop ≤ content.length
    rw [hstop]
    exact (hrow.standsIn token hmem).stop_le
  · refine List.Pairwise.filterMap _ ?_ hrow.pairwise
    intro first second hle region hfirst region' hsecond
    show region.stop ≤ region'.start
    rw [(span_of_region? hfirst).2, (span_of_region? hsecond).1]
    exact hle

end

/-- **Tokens and regions are ordered, disjoint and in bounds.** Whatever the mode, each token of a
    content is a piece of it between two characters, and starts at or behind the end of the one in
    front of it. So do the regions of the content, in the mode that suits it. -/
theorem Mode.tokens_placed (mode : Mode) {content : Bytes} (hvalid : Utf8.isValid content = true) :
    (mode.tokens content).Pairwise (fun first second => first.stop ≤ second.start) ∧
    (∀ token ∈ mode.tokens content, token.StandsIn content) ∧
    (Expression.regions content).Pairwise (fun first second => first.stop ≤ second.start) ∧
    ∀ region ∈ Expression.regions content,
      region.start < region.stop ∧ region.stop ≤ content.length := by
  have hrow := mode.row_tokens hvalid
  have hregions := Expression.isRow_regions hvalid
  refine ⟨hrow.pairwise, hrow.standsIn, List.pairwise_map.mp hregions.pairwise, ?_⟩
  intro region hregion
  have hmem := List.mem_map_of_mem (f := Region.offsets) hregion
  exact ⟨hregions.lt _ hmem, hregions.le_high _ hmem⟩

/-- A quoted character of two bytes stays in one piece. -/
theorem Mode.tokens_placed_quoted :
    Utf8.isValid (Bytes.ofString "f('é')") = true ∧
    ∃ token ∈ Mode.expression.tokens (Bytes.ofString "f('é')"),
      token.start = 2 ∧ token.stop = 6 ∧ token.StandsIn (Bytes.ofString "f('é')") := by
  have hvalid : Utf8.isValid (Bytes.ofString "f('é')") = true := by decide
  have hmem : ⟨.string, Bytes.ofString "é", 2, 6⟩
      ∈ Mode.expression.tokens (Bytes.ofString "f('é')") := by decide +kernel
  exact ⟨hvalid, _, hmem, rfl, rfl, (Mode.tokens_placed .expression hvalid).2.1 _ hmem⟩

end LogMarkup
