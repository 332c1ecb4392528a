import LogMarkup.Message.Region
import LogMarkup.Proofs.Checked.Basic
import LogMarkup.Proofs.Message.Escape
import LogMarkup.Proofs.Message.Property

/-!
# `LogMarkup.Proofs.Checked.Message` — message templates, offset by offset

By offsets, the doubled braces of a template are covered hole by hole: a brace that opens a hole is taken
together with all that stands in front of the next brace, and with that brace if it closes the hole. The
holes themselves are found by a search that only hands out parts of the text.

## Contents
- **Covering.** `holeBody` and `coverEscapesFrom_true`, by which the two readings agree;
  `Checked.coverEscapes` and `Checked.coverEscapes_eq`.
- **Properties.** `Checked.properties`, `Checked.segments` and `Checked.messageRegions`, each with its
  equation.
-/

namespace LogMarkup

open Ascii

/-! ## Covering -/

/-- What a hole takes behind its opening brace: the text in front of the next brace, and the brace itself
    if it is a closing one. -/
def holeBody : Bytes → Bytes
  | [] => []
  | b :: rest =>
    if b = closeBrace then [b] else if b = openBrace then [] else b :: holeBody rest

theorem holeBody_isPrefix (text : Bytes) : holeBody text <+: text := by
  fun_induction holeBody text with
  | case1 => exact List.prefix_rfl
  | case2 rest => exact List.prefix_append [closeBrace] rest
  | case3 rest => exact List.nil_prefix
  | case4 b rest _ _ ih => exact (List.prefix_cons_inj b).mpr ih

/-- Where a search for the next brace finds the end of a hole. -/
theorem length_holeBody (text : Bytes) :
    match text.findIdx? isBrace with
    | none => (holeBody text).length = text.length
    | some n => ∃ b, text[n]? = some b ∧
        (holeBody text).length = if b = closeBrace then n + 1 else n := by
  fun_induction holeBody text with
  | case1 => rfl
  | case2 rest => exact ⟨closeBrace, rfl, rfl⟩
  | case3 rest h => exact ⟨openBrace, rfl, rfl⟩
  | case4 b rest hclose hopen ih =>
      have hb : isBrace b = false := isBrace_eq_false_iff.mpr ⟨hopen, hclose⟩
      rw [List.findIdx?_cons, hb]
      cases hrest : rest.findIdx? isBrace with
      | none =>
          rw [hrest] at ih
          exact congrArg (· + 1) ih
      | some n =>
          rw [hrest] at ih
          obtain ⟨c, hc, hlength⟩ := ih
          refine ⟨c, hc, ?_⟩
          rw [List.length_cons, hlength]
          split <;> rfl

/-- **Inside of a hole all is kept up to its end.** -/
theorem coverEscapesFrom_true (rest : Bytes) : coverEscapesFrom true rest
    = holeBody rest ++ coverEscapesFrom false (rest.drop (holeBody rest).length) := by
  fun_induction holeBody rest with
  | case1 => rfl
  | case2 rest =>
      cases rest with
      | nil => rfl
      | cons c rest => simp [coverEscapesFrom, show closeBrace ≠ openBrace by decide]
  | case3 rest h =>
      cases rest <;> rfl
  | case4 b rest hclose hopen ih =>
      rw [List.length_cons, List.drop_succ_cons, List.cons_append, ← ih]
      cases rest with
      | nil => rfl
      | cons c rest => simp [coverEscapesFrom, hclose, hopen]

namespace Checked

/-- The offset where the hole ends that opens at an offset. -/
def holeStop (content : Bytes) (opening : Nat) : Checked Nat := do
  let behind ← slice content (opening + 1) content.length
  match behind.findIdx? isBrace with
  | none => pure content.length
  | some n => do
    let b ← byteAt content (opening + 1 + n)
    pure (if b = closeBrace then opening + 1 + n + 1 else opening + 1 + n)

/-- Cover a doubled brace, copy a hole, or copy a byte. -/
def coverTurn (content covered : Bytes) (offset : Nat) : Checked (Turn Bytes Bytes) := do
  let b ← byteAt content offset
  if isBrace b ∧ content[offset + 1]? = some b then
    pure (.next (covered ++ [space, space]) (offset + 2))
  else if b = openBrace then do
    let stop ← holeStop content offset
    let hole ← slice content offset stop
    pure (.next (covered ++ hole) stop)
  else pure (.next (covered ++ [b]) (offset + 1))

/-- Cover the doubled braces of a template, unless the template would be no text any more. -/
def coverEscapes (content : Bytes) : Checked Bytes := do
  let covered ← loop content.length (coverTurn content) (fun covered _ => covered) [] 0
  pure (if Utf8.isValid covered then covered else content)

theorem holeStop_eq {content rest : Bytes} {opening : Nat}
    (h : content.drop opening = openBrace :: rest) :
    holeStop content opening = .ok (opening + 1 + (holeBody rest).length) := by
  have hlength := Bytes.length_of_drop_eq_cons h
  have hrest : content.drop (opening + 1) = rest := Bytes.drop_add_of_drop_eq_cons h Nat.one_pos
  have hstop := length_holeBody rest
  simp only [holeStop, slice_length (Bytes.lt_of_drop_eq_cons h), hrest, ok_bind]
  cases hfind : rest.findIdx? isBrace with
  | none =>
      rw [hfind] at hstop
      simp only [pure_eq_ok, hstop]
      rw [← hlength]
      congr 1
      omega
  | some n =>
      rw [hfind] at hstop
      obtain ⟨b, hb, hn⟩ := hstop
      have hbyte : content[opening + 1 + n]? = some b := by
        rw [Bytes.getElem?_of_drop_eq hrest, hb]
      simp only [byteAt_eq hbyte, ok_bind, pure_eq_ok, hn]
      split <;> rfl

/-- A hole is copied as a whole. -/
theorem slice_hole {content rest : Bytes} {opening : Nat}
    (h : content.drop opening = openBrace :: rest) :
    slice content opening (opening + 1 + (holeBody rest).length)
      = .ok (openBrace :: holeBody rest) := by
  have hprefix : openBrace :: holeBody rest <+: content.drop opening :=
    h ▸ (List.prefix_cons_inj openBrace).mpr (holeBody_isPrefix rest)
  have hle := (holeBody_isPrefix rest).length_le
  have hlength := Bytes.length_of_drop_eq_cons h
  have hextract := Bytes.extract_of_isPrefix hprefix
  rw [List.length_cons, Nat.add_comm _ 1, ← Nat.add_assoc] at hextract
  rw [slice_eq (by omega) (by omega), hextract]

/-- **A turn covers a part of what is left, and goes on behind it.** -/
theorem coverTurn_step {content rest : Bytes} {offset : Nat} {b : UInt8}
    (h : content.drop offset = b :: rest) (covered : Bytes) :
    ∃ part width, 0 < width ∧
      coverTurn content covered offset = .ok (.next (covered ++ part) (offset + width)) ∧
      coverEscapesFrom false (b :: rest) = part ++ coverEscapesFrom false ((b :: rest).drop width) := by
  have hb := Bytes.getElem?_of_drop_eq_cons h
  have hhead := Bytes.getElem?_succ_of_drop_eq_cons h
  by_cases hdoubled : isBrace b = true ∧ rest.head? = some b
  · obtain ⟨more, rfl⟩ := List.head?_eq_some_iff.mp hdoubled.2
    refine ⟨[space, space], 2, Nat.two_pos, ?_, coverEscapesFrom_doubled hdoubled.1 more⟩
    simp [coverTurn, byteAt_eq hb, hhead, hdoubled]
  by_cases hopen : b = openBrace
  · subst hopen
    have hlone : rest.head? ≠ some openBrace := fun heq => hdoubled ⟨by decide, heq⟩
    refine ⟨openBrace :: holeBody rest, 1 + (holeBody rest).length, by omega, ?_, ?_⟩
    · rw [← Nat.add_assoc]
      simp only [coverTurn, byteAt_eq hb, hhead, holeStop_eq h, slice_hole h, ok_bind, pure_eq_ok, hlone,
        and_false, if_false, if_true]
    · rw [coverEscapesFrom_opening hlone, coverEscapesFrom_true, Nat.add_comm 1, List.drop_succ_cons]
      rfl
  · refine ⟨[b], 1, Nat.one_pos, ?_, coverEscapesFrom_plain hopen hdoubled⟩
    simp only [coverTurn, byteAt_eq hb, hhead, ok_bind, pure_eq_ok, if_neg hdoubled, if_neg hopen]

/-- What is left of a template is covered behind what has been covered of it. -/
theorem loop_coverTurn_eq (content : Bytes) : ∀ {rest : Bytes} {offset : Nat} (covered : Bytes),
    content.drop offset = rest →
    loop content.length (coverTurn content) (fun covered _ => covered) covered offset
      = .ok (covered ++ coverEscapesFrom false rest)
  | [], offset, covered, h => by
      rw [loop_of_le (List.drop_eq_nil_iff.mp h), coverEscapesFrom, List.append_nil]
  | b :: rest, offset, covered, h => by
      obtain ⟨part, width, hpos, hturn, hpart⟩ := coverTurn_step h covered
      have hbehind : content.drop (offset + width) = (b :: rest).drop width := by
        rw [← List.drop_drop, h]
      rw [loop_of_next (Bytes.lt_of_drop_eq_cons h) hturn (Nat.lt_add_of_pos_right hpos),
        loop_coverTurn_eq content (covered ++ part) hbehind, hpart, List.append_assoc]
  termination_by rest => rest.length
  decreasing_by
    simp only [List.length_drop, List.length_cons]
    omega

/-- **Covering the doubled braces never fails.** -/
theorem coverEscapes_eq {content : Bytes} (hvalid : Utf8.isValid content = true) :
    coverEscapes content = .ok (LogMarkup.coverEscapes content) := by
  have hloop := loop_coverTurn_eq content [] (List.drop_zero (l := content))
  have hcovered : Utf8.isValid (coverEscapesFrom false content) = true :=
    isValid_coverEscapes hvalid
  simp only [coverEscapes, hloop, ok_bind, List.nil_append, hcovered, if_true, pure_eq_ok]
  rfl

/-! ## Properties -/

/-- The properties of a template. -/
def properties (content : Bytes) : Checked (List Property) := do
  let covered ← coverEscapes content
  pure ((Hole.allFrom 0 covered).filterMap fun (start, hole) => Property.ofHole? start hole)

/-- The pieces of a property. The closing brace is found from the end of the property. -/
def segments (property : Property) : Checked (List Segment) := do
  let last ← sub property.stop 1
  pure (Segment.placeFrom property.start property.pieces ++ [⟨.closeBrace, last, last + 1⟩])

/-- The regions of a template. -/
def messageRegions (content : Bytes) : Checked (List Region) := do
  let properties ← properties content
  let regions ← properties.mapM fun property => do
    let segments ← segments property
    pure (segments.map fun segment =>
      (⟨segment.kind.classification property.kind, segment.start, segment.stop⟩ : Region))
  pure regions.flatten

theorem properties_eq {content : Bytes} (hvalid : Utf8.isValid content = true) :
    properties content = .ok (Property.all content) := by
  rw [properties, coverEscapes_eq hvalid]
  rfl

/-- The end of a property is behind its braces. -/
theorem segments_eq {content : Bytes} {property : Property} (h : property ∈ Property.all content) :
    segments property = .ok property.segments := by
  obtain ⟨hole, -, hproperty⟩ := Property.exists_hole_of_mem_all h
  have hstop := (Property.of_ofHole? hproperty).2.2.2.1
  have hlength := hole.length_text_pos
  rw [segments, sub_eq (by omega)]
  rfl

/-- **Message templates are taken apart without a fault.** -/
theorem messageRegions_eq {content : Bytes} (hvalid : Utf8.isValid content = true) :
    messageRegions content = .ok (Message.regions content) := by
  rw [messageRegions, properties_eq hvalid, ok_bind, mapM_eq_ok (g := Property.regions)]
  · simp only [ok_bind, pure_eq_ok, Message.regions, List.flatMap_def]
  · intro property hmem
    rw [segments_eq hmem]
    rfl

end Checked

end LogMarkup
