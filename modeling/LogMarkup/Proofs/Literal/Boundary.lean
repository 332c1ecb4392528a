import LogMarkup.Proofs.Literal.Layout
import LogMarkup.Proofs.Text.Boundary

/-!
# `LogMarkup.Proofs.Literal.Boundary` — literals are cut out between characters

The walk over a literal goes byte by byte, and a backslash may take only the first byte of a character
along. But a walk never ends there: it ends in front of a quote or a line feed, or with the text. So
the offsets of a literal lie between characters, and its content is a text again.

## Contents
- **Where a literal ends.** `Opener.stopsAt_lineFeed` and `Literal.contentStop_of_open`.
- **Boundaries.** `Literal.isBoundary_contentStart` and `Literal.isBoundary_contentStop`, and
  `Literal.isValid_content`.
-/

namespace LogMarkup

open Ascii

/-! ## Where a literal ends -/

namespace Opener

theorem moveBrace_stopsAt (b : UInt8) : Enclosed.StopsAt moveBrace b := by
  intro depth c rest
  unfold moveBrace
  split
  · simp
  · split <;> simp

theorem moveInLine_stopsAt : Enclosed.StopsAt moveInLine lineFeed := by
  intro depth b rest
  unfold moveInLine
  by_cases hbackslash : b = backslash
  · rw [if_pos hbackslash]
    split
    · next hhead => exact ⟨by simp, fun _ => hhead⟩
    · simp
  · rw [if_neg hbackslash]
    split
    · simp
    · split
      · next hfeed => exact ⟨fun _ => hfeed, by simp⟩
      · simp

theorem moveVerbatim_stopsAt (b : UInt8) : Enclosed.StopsAt moveVerbatim b := by
  intro depth c rest
  unfold moveVerbatim
  split
  · split <;> simp
  · simp

/-- Only the end of a line stops the walk over a literal. -/
theorem stopsAt_lineFeed (opener : Opener) : Enclosed.StopsAt opener.move lineFeed := by
  cases opener with
  | regular => exact moveInLine_stopsAt
  | verbatim => exact moveVerbatim_stopsAt lineFeed
  | raw dollars extraQuotes =>
      intro depth b rest
      simp only [move, moveRaw]
      split <;> simp
  | interpolated =>
      intro depth b rest
      simp only [move, moveInterpolated]
      split
      · exact moveBrace_stopsAt lineFeed depth b rest
      · split
        · exact moveInLine_stopsAt 0 b rest
        · split <;> simp
  | verbatimInterpolated dollarFirst =>
      intro depth b rest
      simp only [move, moveVerbatimInterpolated]
      split
      · exact moveBrace_stopsAt lineFeed depth b rest
      · split
        · exact moveVerbatim_stopsAt lineFeed 0 b rest
        · simp

/-- Every opener ends with a quote. -/
theorem exists_text_eq_append_quote (opener : Opener) :
    ∃ front, opener.text = front ++ [quote] := by
  cases opener with
  | regular => exact ⟨[], rfl⟩
  | verbatim => exact ⟨[atSign], rfl⟩
  | raw dollars extraQuotes =>
      refine ⟨List.replicate dollars dollar ++ List.replicate (extraQuotes + 2) quote, ?_⟩
      rw [text, List.append_assoc, ← List.replicate_succ']
  | interpolated => exact ⟨[dollar], rfl⟩
  | verbatimInterpolated dollarFirst =>
      cases dollarFirst with
      | true => exact ⟨[dollar, atSign], rfl⟩
      | false => exact ⟨[atSign, dollar], rfl⟩

/-- Every opener is made of ASCII characters that are not blank. -/
theorem mem_text {opener : Opener} {b : UInt8} (h : b ∈ opener.text) :
    b = quote ∨ b = atSign ∨ b = dollar := by
  cases opener with
  | regular => exact .inl (List.mem_singleton.mp h)
  | verbatim =>
      simp only [text, List.mem_cons, List.not_mem_nil, or_false] at h
      rcases h with rfl | rfl <;> simp
  | raw dollars extraQuotes =>
      rcases List.mem_append.mp h with hdollar | hquote
      · exact .inr (.inr (List.eq_of_mem_replicate hdollar))
      · exact .inl (List.eq_of_mem_replicate hquote)
  | interpolated =>
      simp only [text, List.mem_cons, List.not_mem_nil, or_false] at h
      rcases h with rfl | rfl <;> simp
  | verbatimInterpolated dollarFirst =>
      cases dollarFirst <;> simp only [text, List.mem_cons, List.not_mem_nil, or_false] at h <;>
        rcases h with rfl | rfl | rfl <;> simp

/-- Every closer is made of quotes. -/
theorem exists_closer_eq (opener : Opener) :
    ∃ more, opener.closer = List.replicate (more + 1) quote := by
  cases opener with
  | raw dollars extraQuotes => exact ⟨extraQuotes + 2, rfl⟩
  | _ => exact ⟨0, rfl⟩

end Opener

namespace Literal

variable {text : Bytes} {literal : Literal}

variable (h : at? text literal.start = some literal)

include h

/-- A literal without a closer goes on to the end of the text or of a line. -/
theorem contentStop_of_open (hopen : literal.closed = false) :
    literal.contentStop = text.length ∨ text[literal.contentStop]? = some lineFeed := by
  obtain ⟨-, -, hread⟩ := read?_eq_some_iff.mp h
  rw [List.drop_drop, ← contentStart] at hread
  have hclosed : (Enclosed.read literal.opener.move 0 (text.drop literal.contentStart)).closed
      = false := by
    rw [hread]
    exact hopen
  have hlast := (delimits_of_at? h).contentStop_le
  have hlength := (delimits_of_at? h).last_lt
  rcases Enclosed.content_eq_or_of_open literal.opener.stopsAt_lineFeed hclosed with
    hall | ⟨behind, hbehind⟩
  · have hcontent : literal.content.length = (text.drop literal.contentStart).length := by
      rw [hread] at hall
      rw [← hall]
    rw [List.length_drop] at hcontent
    refine .inl ?_
    unfold contentStop at hlast ⊢
    omega
  · rw [hread] at hbehind
    refine .inr ?_
    rw [contentStop, Bytes.getElem?_of_drop_eq hbehind]
    simp

/-! ## Boundaries -/

/-- The bytes of the opener stand in the text. -/
theorem getElem?_opener {offset : Nat} {b : UInt8} (hb : literal.opener.text[offset]? = some b) :
    text[literal.start + offset]? = some b := by
  obtain ⟨behind, hbehind⟩ := text_isPrefix h
  rw [Bytes.getElem?_of_drop_eq hbehind.symm, Literal.text, List.append_assoc, List.append_assoc,
    List.getElem?_append_left (List.getElem?_eq_some_iff.mp hb).1]
  exact hb

/-- A literal starts with a quote or a sign. -/
theorem getElem?_start :
    ∃ b, text[literal.start]? = some b ∧ (b = quote ∨ b = atSign ∨ b = dollar) := by
  obtain ⟨b, rest, hopener⟩ := List.exists_cons_of_length_pos literal.opener.length_text_pos
  have hhead : literal.opener.text[0]? = some b := by
    rw [hopener]
    rfl
  exact ⟨b, getElem?_opener h hhead, Opener.mem_text (List.mem_of_getElem? hhead)⟩

/-- Behind a content there is the first quote of the closer. -/
theorem getElem?_contentStop (hclosed : literal.closed = true) :
    text[literal.contentStop]? = some quote := by
  obtain ⟨more, hcloser⟩ := literal.opener.exists_closer_eq
  obtain ⟨behind, hbehind⟩ := text_isPrefix h
  rw [Literal.text, if_pos hclosed, hcloser, List.append_assoc] at hbehind
  have hoffset : literal.contentStop
      = literal.start + (literal.opener.text ++ literal.content).length := by
    rw [List.length_append, ← Nat.add_assoc]
    rfl
  rw [hoffset, Bytes.getElem?_of_drop_eq hbehind.symm, List.getElem?_append_right (Nat.le_refl _),
    Nat.sub_self, List.replicate_succ]
  rfl

variable (hvalid : Utf8.isValid text = true)

include hvalid

theorem isBoundary_contentStart : Utf8.IsBoundary text literal.contentStart := by
  obtain ⟨front, hfront⟩ := literal.opener.exists_text_eq_append_quote
  have hquote : text[literal.start + front.length]? = some quote := by
    refine getElem?_opener h ?_
    rw [hfront, List.getElem?_append_right (Nat.le_refl _), Nat.sub_self]
    rfl
  have hbound := Utf8.isBoundary_succ hvalid hquote (by decide)
  rwa [contentStart, hfront, List.length_append, List.length_singleton, ← Nat.add_assoc]

theorem isBoundary_contentStop : Utf8.IsBoundary text literal.contentStop := by
  cases hclosed : literal.closed with
  | true => exact Utf8.isBoundary_of_ascii hvalid (getElem?_contentStop h hclosed) (by decide)
  | false =>
      rcases contentStop_of_open h hclosed with hend | hfeed
      · rw [hend]
        exact Utf8.isBoundary_length hvalid
      · exact Utf8.isBoundary_of_ascii hvalid hfeed (by decide)

/-- **The content of a literal is a text.** -/
theorem isValid_content : Utf8.isValid literal.content = true := by
  have hdelimits := delimits_of_at? h
  rw [hdelimits.content_eq]
  exact (isBoundary_contentStart h hvalid).isValid_extract (isBoundary_contentStop h hvalid)
    hdelimits.contentStart_le_contentStop

end Literal

end LogMarkup
