import LogMarkup.Proofs.Message.Source

/-!
# `LogMarkup.Proofs.Message.Tiling` — the segments of a property tile its hole

The segments of a property are laid out by the lengths of its parts, while its two ends come from the hole
that was read. So whether they fit is a matter of the text in between: the hole has to be what its parts
write, one behind the other. It is, but for one byte. A colon without a format behind it is no part of the
property, and where it stands in the hole the segments leave a gap, right in front of the closing brace.

## Contents
- **Parts.** `Property.parts`, the parts with the text that they write, and `Property.text_eq_parts` — a
  hole is written by the parts of its property.
- **Layouts.** `Property.TilesFrom`, segments from an offset on to the end of a property, and
  `Segment.map_read_placeFrom`, for what they show.
- `Property.all_isTiled` — the properties of a template are disjoint, and each of them is tiled by its
  segments.
-/

namespace LogMarkup

open Ascii

/-- The role of a segment and what it shows of a text. -/
def Segment.read (text : Bytes) (segment : Segment) : SegmentKind × Bytes :=
  (segment.kind, text.extract segment.start segment.stop)

/-- What is laid out over the text of some parts shows the parts. -/
theorem Segment.map_read_placeFrom {text : Bytes} {parts : List (SegmentKind × Bytes)} {low : Nat}
    (h : parts.flatMap Prod.snd <+: text.drop low) :
    (placeFrom low (parts.map fun part => (part.1, part.2.length))).map (read text) = parts := by
  induction parts generalizing low with
  | nil => rfl
  | cons part parts ih =>
      rw [List.flatMap_cons, Bytes.append_isPrefix_iff, List.drop_drop] at h
      obtain ⟨hpart, hrest⟩ := h
      rw [List.map_cons, placeFrom, List.map_cons, ih hrest, read, Bytes.extract_of_isPrefix hpart]

namespace Property

variable {content : Bytes} {property : Property} {start : Nat} {hole : Hole}

/-! ## Parts -/

/-- The parts in front of the closing brace, with the text that each of them writes: a sign only for the
    kinds that ask for one, an alignment and a format only if there is one. -/
def parts (property : Property) : List (SegmentKind × Bytes) :=
  [(.openBrace, [openBrace])]
    ++ (property.kind.sigil.map fun sigil => (.operator, [sigil.byte])).toList
    ++ [(.name, property.name)]
    ++ (property.alignment.map fun part => (.alignment, comma :: part)).toList
    ++ (property.format.map fun part => (.format, colon :: part)).toList

/-- What a hole has in front of its closing brace that belongs to no part: the colon of an empty format. -/
def gapText (format : Option Bytes) : Bytes := if format = some [] then [colon] else []

theorem pieces_eq (property : Property) :
    property.pieces = property.parts.map fun part => (part.1, part.2.length) := by
  obtain ⟨name, start, stop, kind, alignment, format⟩ := property
  cases kind <;> cases alignment <;> cases format <;> rfl

theorem widthOf_parts (property : Property) :
    widthOf property.pieces = (property.parts.flatMap Prod.snd).length := by
  rw [pieces_eq, widthOf, List.map_map, List.length_flatMap]
  rfl

/-- The text of an optional part is that of the part alone. -/
theorem flatMap_optional (kind : SegmentKind) (announcer : UInt8) (part : Option Bytes) :
    ((part.map fun part => (kind, announcer :: part)).toList).flatMap Prod.snd
      = Hole.optionalText announcer part := by
  cases part with
  | none => rfl
  | some part => exact List.append_nil _

theorem optionalText_filter (format : Option Bytes) :
    Hole.optionalText colon (format.filter fun part : Bytes => part ≠ []) ++ gapText format
      = Hole.optionalText colon format := by
  rcases format with _ | _ | ⟨b, rest⟩
  · rfl
  · rfl
  · exact List.append_nil _

/-- **A hole is written by the parts of its property**, but for the colon of an empty format. -/
theorem text_eq_parts (h : ofHole? start hole = some property) :
    hole.text = property.parts.flatMap Prod.snd ++ (gapText hole.format ++ [closeBrace]) := by
  obtain ⟨hkind, hname, -, -, halignment, hformat⟩ := of_ofHole? h
  have hsigil : ((hole.sigil.map fun sigil => (SegmentKind.operator, [sigil.byte])).toList).flatMap
      Prod.snd = (hole.sigil.map Sigil.byte).toList := by
    cases hole.sigil <;> rfl
  rw [parts, sigil_of_kind? hkind, hname, halignment, hformat, List.flatMap_append,
    List.flatMap_append, List.flatMap_append, List.flatMap_append, hsigil, flatMap_optional _ comma,
    flatMap_optional _ colon, Hole.text_eq, Hole.inside, ← optionalText_filter hole.format]
  simp only [List.flatMap_cons, List.flatMap_nil, List.append_nil, List.cons_append, List.nil_append,
    List.append_assoc]

/-- A name stands for a position only if it is a number. -/
theorem isDigit_of_positional (h : ofHole? start hole = some property)
    (hkind : property.kind = .positional) : ∀ b ∈ property.name, isDigit b = true := by
  obtain ⟨hread, hname, -, -, -, -⟩ := of_ofHole? h
  rw [hkind] at hread
  rw [hname]
  unfold kind? at hread
  split at hread
  · exact absurd hread (by simp)
  · split at hread <;> exact absurd hread (by simp)
  · split at hread <;> exact absurd hread (by simp)
  · split at hread
    · next hall => exact List.all_eq_true.mp hall
    · exact absurd hread (by simp)

/-! ## Layouts -/

/-- Segments that follow one another from the offset `low` on to the end of a property, none of them empty.
    Only the colon of an empty format may stand between two of them, in front of the closing brace. -/
inductive TilesFrom (content : Bytes) (property : Property) : Nat → List Segment → Prop
  | closing {low : Nat} :
      low + 1 = property.stop → TilesFrom content property low [⟨.closeBrace, low, low + 1⟩]
  | gap {low : Nat} :
      property.format = none → content[low]? = some colon → low + 2 = property.stop →
      TilesFrom content property low [⟨.closeBrace, low + 1, low + 2⟩]
  | next {low : Nat} {segment : Segment} {rest : List Segment} :
      segment.start = low → low < segment.stop → TilesFrom content property segment.stop rest →
      TilesFrom content property low (segment :: rest)

/-- Pieces that are laid one behind the other lead to what tiles the rest. -/
theorem TilesFrom.placeFrom_append {pieces : List (SegmentKind × Nat)} {rest : List Segment}
    (hpos : ∀ piece ∈ pieces, 0 < piece.2) {low : Nat}
    (h : TilesFrom content property (low + widthOf pieces) rest) :
    TilesFrom content property low (Segment.placeFrom low pieces ++ rest) := by
  induction pieces generalizing low with
  | nil => exact h
  | cons piece pieces ih =>
      obtain ⟨kind, length⟩ := piece
      have hlength : 0 < length := hpos _ List.mem_cons_self
      refine .next rfl (Nat.lt_add_of_pos_right hlength)
        (ih (fun piece hmem => hpos piece (List.mem_cons_of_mem _ hmem)) ?_)
      rwa [widthOf, List.map_cons, List.sum_cons, ← Nat.add_assoc] at h

/-- A property that is tiled by its segments: its two ends are braces of the content, it has a name, which is
    a number if it stands for a position, and its segments are its parts from brace to brace. -/
structure IsTiled (content : Bytes) (property : Property) : Prop where
  getElem?_start : content[property.start]? = some openBrace
  getElem?_stop : content[property.stop - 1]? = some closeBrace
  name_ne_nil : property.name ≠ []
  isDigit_name : property.kind = .positional → ∀ b ∈ property.name, isDigit b = true
  map_read_segments : property.segments.map (Segment.read (coverEscapes content))
    = property.parts ++ [(.closeBrace, [closeBrace])]
  tilesFrom : TilesFrom content property property.start property.segments

/-- Behind the parts of a property comes its closing brace, or the colon of an empty format and then the
    closing brace. -/
theorem tilesFrom_closing (h : property ∈ all content) :
    TilesFrom content property (property.start + widthOf property.pieces)
      [⟨.closeBrace, property.stop - 1, property.stop - 1 + 1⟩] := by
  obtain ⟨hole, hwritten, hproperty⟩ := exists_hole_of_mem_all h
  obtain ⟨-, -, -, hstop, -, hformat⟩ := of_ofHole? hproperty
  have hwidth := widthOf_pieces hproperty
  by_cases hempty : hole.format = some []
  · rw [gapOf, if_pos hempty] at hwidth
    have hnone : property.format = none := by
      rw [hformat, hempty]
      rfl
    have hcolon : content[property.start + widthOf property.pieces]? = some colon := by
      obtain ⟨behind, hbehind⟩ := hwritten.text_isPrefix
      rw [text_eq_parts hproperty, gapText, if_pos hempty, List.append_assoc] at hbehind
      refine getElem?_of_coverEscapes ?_ (by decide)
      rw [Bytes.getElem?_of_drop_eq hbehind.symm, widthOf_parts,
        List.getElem?_append_right (Nat.le_refl _), Nat.sub_self]
      rfl
    have hlow : property.stop - 1 = property.start + widthOf property.pieces + 1 := by omega
    rw [hlow]
    exact .gap hnone hcolon (by omega)
  · rw [gapOf, if_neg hempty] at hwidth
    have hlow : property.stop - 1 = property.start + widthOf property.pieces := by omega
    rw [hlow]
    exact .closing (by omega)

/-- The segments of a property show its parts. -/
theorem map_read_segments (h : property ∈ all content) :
    property.segments.map (Segment.read (coverEscapes content))
      = property.parts ++ [(.closeBrace, [closeBrace])] := by
  obtain ⟨hole, hwritten, hproperty⟩ := exists_hole_of_mem_all h
  have hparts := hwritten.text_isPrefix
  rw [text_eq_parts hproperty, Bytes.append_isPrefix_iff] at hparts
  obtain ⟨hlt, hget⟩ := List.getElem?_eq_some_iff.mp (getElem?_closing h).2
  have hclosing : [closeBrace] <+: (coverEscapes content).drop (property.stop - 1) := by
    rw [List.drop_eq_getElem_cons hlt, hget]
    exact List.prefix_append [closeBrace] _
  rw [segments, pieces_eq, List.map_append, Segment.map_read_placeFrom hparts.1, List.map_singleton,
    Segment.read, ← Bytes.extract_of_isPrefix hclosing]
  rfl

/-- **The properties of a template are disjoint, in order, and each of them is tiled by its segments.** -/
theorem all_isTiled (content : Bytes) :
    (all content).Pairwise (fun first second => first.stop ≤ second.start) ∧
    ∀ property ∈ all content, property.IsTiled content := by
  refine ⟨pairwise_all content, ?_⟩
  intro property h
  obtain ⟨hole, hwritten, hproperty⟩ := exists_hole_of_mem_all h
  have hne : property.name ≠ [] := (of_ofHole? hproperty).2.1 ▸ hwritten.name_ne_nil
  exact {
    getElem?_start := getElem?_of_coverEscapes (getElem?_opening h) (by decide)
    getElem?_stop := getElem?_of_coverEscapes (getElem?_closing h).2 (by decide)
    name_ne_nil := hne
    isDigit_name := isDigit_of_positional hproperty
    map_read_segments := map_read_segments h
    tilesFrom := TilesFrom.placeFrom_append (pos_of_mem_pieces hne) (tilesFrom_closing h) }

/-- The colon of `{@Ab,-5:}` is not shown by a segment, in front of another property. -/
theorem all_isTiled_gap :
    let content := Bytes.ofString "\x7b\x7b\x7b@Ab,-5:\x7d \x7b0\x7d"
    let property : Property :=
      ⟨Bytes.ofString "Ab", 2, 11, .destructured, some (Bytes.ofString "-5"), none⟩
    property ∈ all content ∧ property.IsTiled content ∧
    property.segments = [⟨.openBrace, 2, 3⟩, ⟨.operator, 3, 4⟩, ⟨.name, 4, 6⟩, ⟨.alignment, 6, 9⟩,
      ⟨.closeBrace, 10, 11⟩] := by
  intro content property
  have hmem : property ∈ all content := by decide +kernel
  exact ⟨hmem, (all_isTiled content).2 property hmem, by decide +kernel⟩

end Property

end LogMarkup
