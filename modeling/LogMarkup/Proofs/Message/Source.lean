import LogMarkup.Proofs.Message.Property
import LogMarkup.Proofs.Message.Written

/-!
# `LogMarkup.Proofs.Message.Source` — properties and the text that they were read from

Holes are looked for in the covered content, and the parts of a property are pieces of it, while its offsets
are used in the content itself. Between the two offsets both show the same text, as long as nothing is
covered there. Of a property only the format can have covered bytes, and it has them exactly if two opening
braces stand in it in a row: the first of them ends the hole for the pass that covers, so that the pair is
taken for a literal brace, but the search for holes goes on over the spaces that are left of it.

## Contents
- **Written properties.** `Property.textWith` and `Property.IsWrittenAs`, with
  `Property.isWrittenAs_iff`.
- **Sources.** `Property.IsReadFrom`, the hole that a property was read from and the text that stands there,
  with `Property.exists_isReadFrom`, and `Property.IsReadFrom.extract_eq_text_iff`, for when both are the
  same.
- **Contents.** `Property.isWrittenAs_extract` — which properties stand in the content as they are written,
  and in what the others differ — and `Property.not_isWrittenAs_extract`, one that does not.
-/

namespace LogMarkup

open Ascii

/-! ## Written properties -/

/-- The sign in front of a name that asks for a way to capture the value. -/
def PropertyKind.sigil : PropertyKind → Option Sigil
  | destructured => some .destructure
  | stringified => some .stringify
  | standard | positional => none

namespace Property

/-- The property as it is written with a text behind its colon, or without a colon. -/
def textWith (property : Property) (format : Option Bytes) : Bytes :=
  Hole.text ⟨property.kind.sigil, property.name, property.alignment, format⟩

/-- A text is the property as it is written with its own format. A property without a format may also be
    written with a colon that has nothing behind it. -/
def IsWrittenAs (property : Property) (source : Bytes) : Prop :=
  source = property.textWith property.format ∨
    (property.format = none ∧ source = property.textWith (some []))

instance (property : Property) (source : Bytes) : Decidable (property.IsWrittenAs source) :=
  inferInstanceAs (Decidable (_ ∨ _))

variable {content : Bytes} {property : Property} {start : Nat} {hole : Hole}

theorem sigil_of_kind? {sigil : Option Sigil} {name : Bytes} {kind : PropertyKind}
    (h : kind? sigil name = some kind) : kind.sigil = sigil := by
  unfold kind? at h
  split at h
  · exact absurd h (by simp)
  · split at h
    · exact absurd h (by simp)
    · rw [← Option.some.inj h]
      rfl
  · split at h
    · exact absurd h (by simp)
    · rw [← Option.some.inj h]
      rfl
  · rw [← Option.some.inj h]
    split <;> rfl

/-- With the format of its hole, the property is written as the hole. -/
theorem textWith_format (h : ofHole? start hole = some property) :
    property.textWith hole.format = hole.text := by
  obtain ⟨hkind, hname, -, -, halignment, -⟩ := of_ofHole? h
  rw [textWith, sigil_of_kind? hkind, hname, halignment]

theorem length_textWith_nil (property : Property) :
    (property.textWith (some [])).length = (property.textWith none).length + 1 := by
  simp only [textWith, Hole.text, Hole.optionalText, List.length_cons, List.length_append,
    List.length_nil]

/-- **A text of the length of the hole is the written property exactly if it is the hole.** -/
theorem isWrittenAs_iff {source : Bytes} (h : ofHole? start hole = some property)
    (hlength : source.length = hole.text.length) :
    property.IsWrittenAs source ↔ source = hole.text := by
  have hformat := (of_ofHole? h).2.2.2.2.2
  have hnil := length_textWith_nil property
  rw [← textWith_format h] at hlength ⊢
  unfold IsWrittenAs
  rcases hpart : hole.format with _ | _ | ⟨b, rest⟩
  · -- Without a colon in the hole, a colon would be one byte too much.
    rw [hpart] at hformat hlength
    have hnone : property.format = none := hformat
    rw [hnone]
    refine ⟨?_, .inl⟩
    rintro (hsource | ⟨-, hsource⟩)
    · exact hsource
    · rw [hsource] at hlength
      omega
  · rw [hpart] at hformat hlength
    have hnone : property.format = none := hformat
    rw [hnone]
    refine ⟨?_, fun hsource => .inr ⟨rfl, hsource⟩⟩
    rintro (hsource | ⟨-, hsource⟩)
    · rw [hsource] at hlength
      omega
    · exact hsource
  · rw [hpart] at hformat
    have hsome : property.format = some (b :: rest) := hformat
    rw [hsome]
    refine ⟨?_, .inl⟩
    rintro (hsource | ⟨hnone, -⟩)
    · exact hsource
    · exact absurd hnone (by simp)

/-! ## Sources -/

/-- A property was read from a hole of the covered content. In the content a text stands behind the opening
    brace that is no second one, and what is left of it when it is covered is the hole. -/
structure IsReadFrom (content : Bytes) (property : Property) (hole : Hole) (rest : Bytes) : Prop where
  ofHole?_eq : ofHole? property.start hole = some property
  isProper : hole.IsProper
  extract_eq : content.extract property.start property.stop
    = openBrace :: rest.take (hole.inside.length + 1)
  head?_ne : rest.head? ≠ some openBrace
  isPrefix : hole.inside ++ [closeBrace] <+: coverEscapesFrom true rest
  isCovered : List.Forall₂ IsCovered hole.text (content.extract property.start property.stop)

/-- **Every property was read from a hole**, at its own offset. -/
theorem exists_isReadFrom (h : property ∈ all content) :
    ∃ hole rest, IsReadFrom content property hole rest := by
  obtain ⟨hole, hread, hproperty⟩ := exists_read?_of_mem_all h
  have hstop := (of_ofHole? hproperty).2.2.2.1
  obtain ⟨hproper, behind, hbehind⟩ := Hole.read?_eq_some_iff.mp hread
  have hopening := getElem?_opening h
  obtain ⟨state, hstate⟩ := exists_drop_coverEscapesFrom hopening (by decide)
  have hcovered : coverEscapesFrom state (content.drop property.start)
      = openBrace :: (hole.inside ++ [closeBrace] ++ behind) := by
    rw [← hstate]
    exact hbehind.symm
  obtain ⟨rest, hrest⟩ := eq_of_coverEscapesFrom hcovered (by decide)
  have hextract : content.extract property.start property.stop
      = openBrace :: rest.take (hole.inside.length + 1) := by
    rw [List.extract_eq_take_drop, hstop, Nat.add_sub_cancel_left, hrest, Hole.text_eq,
      List.length_cons, List.length_append, List.length_singleton, List.take_succ_cons]
  have hsingle : rest.head? ≠ some openBrace := by
    -- A doubled brace would have been covered.
    intro hdoubled
    obtain ⟨more, rfl⟩ := List.head?_eq_some_iff.mp hdoubled
    rw [hrest, coverEscapesFrom, if_pos rfl, if_pos rfl] at hcovered
    exact absurd (List.cons.inj hcovered).1 (by decide)
  refine ⟨hole, rest, hproperty, hproper, hextract, hsingle, ⟨behind, ?_⟩, ?_⟩
  · rw [hrest, coverEscapesFrom_opening hsingle] at hcovered
    exact (List.cons.inj hcovered).2.symm
  · have hall := List.forall₂_take hole.text.length
      (List.forall₂_drop property.start (forall₂_coverEscapes content))
    rw [← hbehind, List.take_left] at hall
    rwa [List.extract_eq_take_drop, hstop, Nat.add_sub_cancel_left]

/-- A format that was covered, in front of the closing brace. -/
theorem exists_format {format : Option Bytes} {text : Bytes}
    (h : List.Forall₂ IsCovered (Hole.optionalText colon format ++ [closeBrace]) text) :
    ∃ written, text = Hole.optionalText colon written ++ [closeBrace] ∧
      List.Forall₂ IsCovered (format.getD []) (written.getD []) := by
  obtain ⟨part, rfl, hpart⟩ := IsCovered.exists_append_eq h (by decide)
  cases format with
  | none => exact ⟨none, by rw [List.forall₂_nil_left_iff.mp hpart]; rfl, .nil⟩
  | some format =>
      obtain ⟨written, rfl, hwritten⟩ :=
        @IsCovered.exists_eq_append [colon] format _ hpart (by decide)
      exact ⟨some written, rfl, hwritten⟩

namespace IsReadFrom

variable {rest : Bytes}

/-- Two opening braces in a row do not stand at the start of a property. -/
theorem doubled_iff (h : IsReadFrom content property hole rest) :
    [openBrace, openBrace] <:+: content.extract property.start property.stop ↔
      [openBrace, openBrace] <:+: rest.take (hole.inside.length + 1) := by
  rw [h.extract_eq]
  constructor
  · intro hinfix
    rcases List.infix_cons_iff.mp hinfix with hhead | htail
    · -- The second brace would come first behind the opening one.
      obtain ⟨behind, hbehind⟩ :=
        (List.cons_prefix_cons.mp hhead).2.trans (List.take_prefix (hole.inside.length + 1) rest)
      have hne := h.head?_ne
      rw [← hbehind] at hne
      exact absurd rfl hne
    · exact htail
  · exact List.infix_cons

/-- **The hole stands in the content exactly if no two opening braces in a row do.** -/
theorem extract_eq_text_iff (h : IsReadFrom content property hole rest) :
    content.extract property.start property.stop = hole.text ↔
      ¬ [openBrace, openBrace] <:+: content.extract property.start property.stop := by
  have hbare : closeBrace ∉ hole.inside := fun hmem =>
    (Hole.isWritten_of_read? (Hole.read?_text_append h.isProper [])).ne_closeBrace _ hmem rfl
  have hsource : content.extract property.start property.stop = hole.text ↔
      hole.inside ++ [closeBrace] <+: rest := by
    rw [h.extract_eq, Hole.text_eq, List.prefix_iff_eq_take, List.length_append,
      List.length_singleton]
    constructor
    · intro heq
      exact (List.cons.inj heq).2.symm
    · intro heq
      rw [← heq]
  rw [hsource, inside_isPrefix_iff hbare h.isPrefix, h.doubled_iff]

/-- Only the format of a property can stand in the content in another way. -/
theorem exists_extract_eq_textWith (h : IsReadFrom content property hole rest) :
    ∃ format, content.extract property.start property.stop = property.textWith format ∧
      List.Forall₂ IsCovered (property.format.getD []) (format.getD []) := by
  obtain ⟨hkind, hname, -, -, halignment, hformat⟩ := of_ofHole? h.ofHole?_eq
  have hgetD : property.format.getD [] = hole.format.getD [] := by
    rw [hformat]
    rcases hole.format with _ | _ | ⟨b, rest⟩ <;> rfl
  have hfront : space ∉ openBrace :: hole.front := by
    intro hmem
    rcases List.mem_cons.mp hmem with heq | hmem
    · exact absurd heq (by decide)
    · exact (h.isProper.ne_of_mem_front hmem).2 rfl
  have htext : hole.text
      = (openBrace :: hole.front) ++ (Hole.optionalText colon hole.format ++ [closeBrace]) := by
    rw [Hole.text_eq, Hole.inside_eq, List.cons_append, List.append_assoc]
  have hcovered := h.isCovered
  rw [htext] at hcovered
  obtain ⟨back, hback, hall⟩ := IsCovered.exists_eq_append hcovered hfront
  obtain ⟨format, rfl, hcover⟩ := exists_format hall
  refine ⟨format, ?_, hgetD ▸ hcover⟩
  rw [hback, textWith, sigil_of_kind? hkind, hname, halignment, Hole.text_eq, Hole.inside_eq,
    List.cons_append, List.append_assoc]
  rfl

end IsReadFrom

/-! ## Contents -/

/-- In the covered content every property stands as it is written. -/
theorem isWrittenAs_extract_coverEscapes (h : property ∈ all content) :
    property.IsWrittenAs ((coverEscapes content).extract property.start property.stop) := by
  obtain ⟨hole, hread, hproperty⟩ := exists_read?_of_mem_all h
  have hcovered := Bytes.extract_of_isPrefix (Hole.read?_eq_some_iff.mp hread).2
  rw [← (of_ofHole? hproperty).2.2.2.1] at hcovered
  rw [isWrittenAs_iff hproperty (congrArg List.length hcovered)]
  exact hcovered

/-- **A property stands in the content as it is written exactly if it has no two opening braces in a row
    there.** It always stands so in the covered content, and in the content itself only its format can
    differ, by the bytes that are covered. -/
theorem isWrittenAs_extract (h : property ∈ all content) :
    (property.IsWrittenAs (content.extract property.start property.stop) ↔
      ¬ [openBrace, openBrace] <:+: content.extract property.start property.stop) ∧
    property.IsWrittenAs ((coverEscapes content).extract property.start property.stop) ∧
    ∃ format, content.extract property.start property.stop = property.textWith format ∧
      List.Forall₂ IsCovered (property.format.getD []) (format.getD []) := by
  obtain ⟨hole, rest, hread⟩ := exists_isReadFrom h
  refine ⟨?_, isWrittenAs_extract_coverEscapes h, hread.exists_extract_eq_textWith⟩
  rw [isWrittenAs_iff hread.ofHole?_eq hread.isCovered.length_eq.symm]
  exact hread.extract_eq_text_iff

/-- A single opening brace in a format stays there: the property of `{@A,-5:x{y}` stands as it is
    written. -/
theorem isWrittenAs_extract_single :
    let content := Bytes.ofString "\x7b@A,-5:x\x7by\x7d"
    let property : Property := ⟨Bytes.ofString "A", 0, 11, .destructured,
      some (Bytes.ofString "-5"), some (Bytes.ofString "x\x7by")⟩
    property ∈ all content ∧ property.IsWrittenAs (content.extract property.start property.stop) := by
  intro content property
  have hmem : property ∈ all content := by decide +kernel
  exact ⟨hmem, (isWrittenAs_extract hmem).1.mpr (by decide)⟩

/-- Two opening braces in a row do not: the format of the property that is read from `{A:x{{y}` has two
    spaces in their place. -/
theorem not_isWrittenAs_extract :
    let content := Bytes.ofString "\x7bA:x\x7b\x7by\x7d"
    let property : Property :=
      ⟨Bytes.ofString "A", 0, 8, .standard, none, some (Bytes.ofString "x  y")⟩
    property ∈ all content ∧
      ¬ property.IsWrittenAs (content.extract property.start property.stop) := by
  decide +kernel

end Property

end LogMarkup
