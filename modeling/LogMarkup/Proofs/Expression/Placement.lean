import LogMarkup.Proofs.Expression.Lexeme
import LogMarkup.Proofs.Text.Boundary

/-!
# `LogMarkup.Proofs.Expression.Placement` — where a token stands in its content

A token carries two offsets and a value. In its content the offsets lie between two characters, and
the value is what stands between them, save that quoted text is told without its quotes.

## Contents
- **One token.** `Token.IsQuoted`, `Token.StandsIn`, and `Token.StandsIn.of_take` for contents that
  are cut off at a boundary.
- **Sequences.** `Token.Row`, tokens that follow one another, with `Token.Row.cons` and
  `Token.Row.append`.
- **Sources of tokens.** `Token.standsIn_ofText`, `Token.standsIn_rest` and `Token.standsIn_quoted`:
  a scanner that has reached some text may make a token of a piece of ASCII text at its head, of all of
  it, or of quoted text.
-/

namespace LogMarkup

open Ascii

/-! ## One token -/

namespace Token

/-- The value of quoted text is what stands between the quotes: it starts behind the opening quote and
    goes on to the closing one, which is the last byte of the token, or without one to its end. -/
inductive IsQuoted (content : Bytes) (token : Token) : Prop
  | closed (closer : UInt8) (quote : isQuote closer = true)
      (opens : content[token.start]? = some closer)
      (room : token.start + 1 < token.stop)
      (closes : content[token.stop - 1]? = some closer)
      (value : token.value = content.extract (token.start + 1) (token.stop - 1))
      (body : IsQuotable closer token.value)
  | unclosed (closer : UInt8) (quote : isQuote closer = true)
      (opens : content[token.start]? = some closer)
      (value : token.value = content.extract (token.start + 1) token.stop)
      (body : IsUnclosed closer token.value)

/-- How a token stands in the content that it was read from. -/
structure StandsIn (content : Bytes) (token : Token) : Prop where
  start_lt_stop : token.start < token.stop
  stop_le : token.stop ≤ content.length
  start_isBoundary : Utf8.IsBoundary content token.start
  stop_isBoundary : Utf8.IsBoundary content token.stop
  /-- The value is the text of the token, except that quoted text leaves its quotes out. -/
  value_eq : token.kind ≠ .string → token.value = content.extract token.start token.stop
  isQuoted : token.kind = .string → token.IsQuoted content

/-- A token of a content that is cut off at a boundary is one of the whole content. -/
theorem StandsIn.of_take {content : Bytes} {limit : Nat} {token : Token}
    (hlimit : Utf8.IsBoundary content limit) (h : token.StandsIn (content.take limit)) :
    token.StandsIn content := by
  have hle := h.stop_le
  rw [List.length_take_of_le hlimit.le_length] at hle
  -- What stands in front of the cut is the same in both contents.
  have hextract : ∀ start stop, stop ≤ limit →
      (content.take limit).extract start stop = content.extract start stop := by
    intro start stop hstop
    rw [List.extract_eq_take_drop, List.extract_eq_take_drop, List.drop_take, List.take_take,
      Nat.min_eq_left (by omega)]
  have hget : ∀ {offset : Nat} {b : UInt8}, (content.take limit)[offset]? = some b →
      content[offset]? = some b := by
    intro offset b hb
    rw [List.getElem?_take] at hb
    split at hb
    · exact hb
    · exact absurd hb (by simp)
  refine ⟨h.start_lt_stop, hle.trans hlimit.le_length, hlimit.of_take h.start_isBoundary,
    hlimit.of_take h.stop_isBoundary, ?_, ?_⟩
  · intro hkind
    rw [h.value_eq hkind, hextract _ _ hle]
  · intro hkind
    cases h.isQuoted hkind with
    | closed closer hquote hopens hroom hcloses hvalue hbody =>
        rw [hextract _ _ (by omega)] at hvalue
        exact .closed closer hquote (hget hopens) hroom (hget hcloses) hvalue hbody
    | unclosed closer hquote hopens hvalue hbody =>
        rw [hextract _ _ hle] at hvalue
        exact .unclosed closer hquote (hget hopens) hvalue hbody

/-! ## Sequences -/

/-- Tokens of a content that start at or behind an offset and follow one another. -/
structure Row (content : Bytes) (start : Nat) (tokens : List Token) : Prop where
  standsIn : ∀ token ∈ tokens, token.StandsIn content
  le_start : ∀ token ∈ tokens, start ≤ token.start
  pairwise : tokens.Pairwise fun first second => first.stop ≤ second.start

namespace Row

variable {content : Bytes} {start mid : Nat} {token : Token} {tokens first second : List Token}

theorem nil : Row content start [] :=
  ⟨by simp, by simp, .nil⟩

/-- A row may be said to start earlier. -/
theorem mono (h : Row content mid tokens) (hle : start ≤ mid) : Row content start tokens :=
  ⟨h.standsIn, fun token hmem => hle.trans (h.le_start token hmem), h.pairwise⟩

/-- Two rows make one, if no token of the first one reaches into the second one. -/
theorem append (h₁ : Row content start first) (h₂ : Row content mid second) (hle : start ≤ mid)
    (hmid : ∀ token ∈ first, token.stop ≤ mid) : Row content start (first ++ second) := by
  refine ⟨?_, ?_, List.pairwise_append.mpr ⟨h₁.pairwise, h₂.pairwise, ?_⟩⟩
  · intro token hmem
    exact (List.mem_append.mp hmem).elim (h₁.standsIn token) (h₂.standsIn token)
  · intro token hmem
    exact (List.mem_append.mp hmem).elim (h₁.le_start token) ((h₂.mono hle).le_start token)
  · intro token hmem other hother
    exact (hmid token hmem).trans (h₂.le_start other hother)

theorem singleton (h : token.StandsIn content) (hle : start ≤ token.start) :
    Row content start [token] :=
  ⟨by simpa using h, by simpa using hle, List.pairwise_singleton _ _⟩

theorem cons (h : token.StandsIn content) (hle : start ≤ token.start)
    (hrow : Row content token.stop tokens) : Row content start (token :: tokens) :=
  (singleton h hle).append hrow (hle.trans (Nat.le_of_lt h.start_lt_stop)) (by simp)

theorem of_take {limit : Nat} (hlimit : Utf8.IsBoundary content limit)
    (h : Row (content.take limit) start tokens) : Row content start tokens :=
  ⟨fun token hmem => (h.standsIn token hmem).of_take hlimit, h.le_start, h.pairwise⟩

end Row

end Token

/-! ## Sources of tokens -/

section

variable {content : Bytes} {start stop : Nat}

variable (hvalid : Utf8.isValid content = true)

include hvalid

/-- A piece of ASCII text makes a token wherever it stands. -/
theorem Token.standsIn_ofText {kind : TokenKind} {part text : Bytes}
    (htext : content.drop start = text) (hkind : kind ≠ .string) (hpart : part.IsAsciiHead text) :
    (Token.ofText kind start part).StandsIn content := by
  obtain ⟨behind, rfl⟩ := hpart.isPrefix
  have hpos := List.length_pos_iff.mpr hpart.ne_nil
  have hget : ∀ n, (hn : n < part.length) → content[start + n]? = some part[n] := by
    intro n hn
    rw [Bytes.getElem?_of_drop_eq htext, List.getElem?_append_left hn, List.getElem?_eq_getElem hn]
  -- The last byte of the part is ASCII, so that a character starts behind it.
  have hstop := Utf8.isBoundary_succ hvalid (hget (part.length - 1) (by omega))
    (hpart.lt_of_mem _ (List.getElem_mem _))
  rw [Nat.add_assoc, Nat.sub_add_cancel hpos] at hstop
  refine ⟨?_, hstop.le_length, ?_, hstop, ?_, fun h => absurd h hkind⟩
  · show start < start + part.length
    omega
  · exact Utf8.isBoundary_of_ascii hvalid (hget 0 hpos) (hpart.lt_of_mem _ (List.getElem_mem _))
  · intro _
    exact (Bytes.extract_of_isPrefix (htext ▸ hpart.isPrefix)).symm

/-- All the text behind a boundary makes a token. -/
theorem Token.standsIn_rest {kind : TokenKind} {text : Bytes} (htext : content.drop start = text)
    (hkind : kind ≠ .string) (hne : text ≠ []) (hstart : Utf8.IsBoundary content start) :
    (Token.ofText kind start text).StandsIn content := by
  have hpos := List.length_pos_iff.mpr hne
  have hlength : text.length = content.length - start := by
    rw [← htext, List.length_drop]
  have hstop : start + text.length = content.length := by omega
  refine ⟨?_, Nat.le_of_eq hstop, hstart, ?_, ?_, fun h => absurd h hkind⟩
  · show start < start + text.length
    omega
  · show Utf8.IsBoundary content (start + text.length)
    rw [hstop]
    exact Utf8.isBoundary_length hvalid
  · intro _
    exact (Bytes.extract_of_isPrefix (htext ▸ List.prefix_rfl)).symm

/-- Quoted text makes a token wherever its opening quote stands. -/
theorem Token.standsIn_quoted {closer : UInt8} {rest : Bytes}
    (htext : content.drop start = closer :: rest) (hquote : isQuote closer = true)
    (hstop : stop = start +
      (Lexeme.quoted (Enclosed.read (moveQuoted closer) () rest)).width) :
    Token.StandsIn content
      ⟨.string, (Enclosed.read (moveQuoted closer) () rest).content, start, stop⟩ := by
  have hget := Bytes.getElem?_of_drop_eq htext
  have hopens : content[start]? = some closer := hget 0
  have hvalue : content.extract (start + 1)
      (start + 1 + (Enclosed.read (moveQuoted closer) () rest).content.length)
        = (Enclosed.read (moveQuoted closer) () rest).content := by
    refine Bytes.extract_of_isPrefix ?_
    rw [Bytes.drop_add_of_drop_eq_cons htext Nat.one_pos]
    exact Enclosed.content_isPrefix () rest
  have hstart := Utf8.isBoundary_of_ascii hvalid hopens (lt_of_isQuote hquote)
  cases hclosed : (Enclosed.read (moveQuoted closer) () rest).closed with
  | true =>
      have hbody := isQuotable_of_closed hclosed
      obtain ⟨last, b, behind, hrest, hmove⟩ := Enclosed.closes_of_closed hclosed
      obtain rfl := eq_closer_of_moveQuoted hmove
      simp only [Lexeme.width, hclosed, if_true] at hstop
      generalize (Enclosed.read (moveQuoted b) () rest).content = value at *
      have hcloses : content[start + 1 + value.length]? = some b := by
        rw [Nat.add_assoc, hget, Nat.add_comm, List.getElem?_cons_succ, hrest,
          List.getElem?_append_right (Nat.le_refl _), Nat.sub_self]
        rfl
      have hbound := Utf8.isBoundary_succ hvalid hcloses (lt_of_isQuote hquote)
      obtain rfl : stop = start + 1 + value.length + 1 := by omega
      refine ⟨?_, hbound.le_length, hstart, hbound, fun h => absurd rfl h, fun _ => ?_⟩
      · show start < start + 1 + value.length + 1
        omega
      · refine .closed b hquote hopens ?_ hcloses hvalue.symm hbody
        show start + 1 < start + 1 + value.length + 1
        omega
  | false =>
      -- No decision of this walk stops it early, so the text ends with the content.
      have hbody := isUnclosed_of_open hclosed
      have hrest := Enclosed.content_eq_of_open neverStops_moveQuoted hclosed
      simp only [Lexeme.width, hclosed, hrest] at hstop hvalue ⊢
      have hlength := Bytes.length_of_drop_eq_cons htext
      obtain rfl : stop = content.length := by
        simp only [Bool.false_eq_true, if_false] at hstop
        omega
      rw [Nat.add_right_comm, hlength] at hvalue
      refine ⟨?_, Nat.le_refl _, hstart, Utf8.isBoundary_length hvalid, fun h => absurd rfl h,
        fun _ => .unclosed closer hquote hopens hvalue.symm hbody⟩
      show start < content.length
      omega

end

end LogMarkup
