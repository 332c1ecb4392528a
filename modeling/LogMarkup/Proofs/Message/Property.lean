import LogMarkup.Message.Region
import LogMarkup.Proofs.Message.Escape
import LogMarkup.Proofs.Message.Hole
import LogMarkup.Proofs.Text.Row
import Mathlib.Algebra.GroupWithZero.Nat

/-!
# `LogMarkup.Proofs.Message.Property` — the properties of a template and their pieces

A property is a hole of the covered content, and covering moves nothing, so that its offsets are those
of the content. Its pieces are laid one behind the other from its opening brace on, while the closing
brace is placed from the other end. That both fit together comes down to lengths: the pieces take as
many bytes as the hole was written with, less the colon of an empty format.

## Contents
- **Properties.** `Property.exists_hole_of_mem_all`, `Property.pairwise_all` and
  `Property.stop_le_length`.
- **Pieces.** `Property.widthOf_pieces` and `Property.isRow_segments`.
- **Regions.** `Message.isRow_regions`.
- **Braces.** `Property.getElem?_opening`, `Property.getElem?_closing`, and `Property.ne_closeBrace`,
  for what stands between the two.
-/

namespace LogMarkup

open Ascii

namespace Property

variable {content : Bytes} {property : Property} {start : Nat} {hole : Hole}

/-! ## Properties -/

/-- A property has the offsets and the parts of its hole. -/
theorem of_ofHole? (h : ofHole? start hole = some property) :
    kind? hole.sigil hole.name = some property.kind ∧ property.name = hole.name ∧
      property.start = start ∧ property.stop = start + hole.text.length ∧
      property.alignment = hole.alignment ∧
      property.format = hole.format.filter fun part : Bytes => part ≠ [] := by
  unfold ofHole? at h
  split at h
  · exact absurd h (by simp)
  · next kind hkind =>
      obtain rfl := Option.some.inj h
      exact ⟨hkind, rfl, rfl, rfl, rfl, rfl⟩

/-- Every property comes from a hole that is read in the covered content, at its own offset. -/
theorem exists_read?_of_mem_all (h : property ∈ all content) :
    ∃ hole, Hole.read? ((coverEscapes content).drop property.start) = some hole ∧
      ofHole? property.start hole = some property := by
  obtain ⟨⟨offset, hole⟩, hmem, hproperty⟩ := List.mem_filterMap.mp h
  have hstart := (of_ofHole? hproperty).2.2.1
  rw [hstart]
  exact ⟨hole, (Hole.read?_of_mem_allFrom List.drop_zero hmem).2, hproperty⟩

theorem exists_hole_of_mem_all (h : property ∈ all content) :
    ∃ hole, Hole.IsWritten ((coverEscapes content).drop property.start) hole ∧
      ofHole? property.start hole = some property := by
  obtain ⟨hole, hread, hproperty⟩ := exists_read?_of_mem_all h
  exact ⟨hole, Hole.isWritten_of_read? hread, hproperty⟩

/-- **Properties follow one another without sharing a byte.** -/
theorem pairwise_all (content : Bytes) :
    (all content).Pairwise fun first second => first.stop ≤ second.start := by
  refine List.Pairwise.filterMap _ ?_ (Hole.pairwise_allFrom List.drop_zero)
  intro first second hle property hfirst property' hsecond
  rw [(of_ofHole? hfirst).2.2.2.1, (of_ofHole? hsecond).2.2.1]
  exact hle

theorem stop_le_length (h : property ∈ all content) : property.stop ≤ content.length := by
  obtain ⟨hole, hwritten, hproperty⟩ := exists_hole_of_mem_all h
  have hlength := hwritten.text_isPrefix.length_le
  rw [List.length_drop, length_coverEscapes] at hlength
  have hpos := hole.length_text_pos
  rw [(of_ofHole? hproperty).2.2.2.1]
  omega

/-! ## Pieces -/

/-- The number of bytes that pieces take. -/
def widthOf (pieces : List (SegmentKind × Nat)) : Nat := (pieces.map Prod.snd).sum

theorem widthOf_append (first second : List (SegmentKind × Nat)) :
    widthOf (first ++ second) = widthOf first + widthOf second := by
  rw [widthOf, List.map_append, List.sum_append]
  rfl

/-- The piece of an optional part has the length that the part was written with. -/
theorem widthOf_optional (kind : SegmentKind) (announcer : UInt8) (part : Option Bytes) :
    widthOf (part.map fun part => (kind, part.length + 1)).toList
      = (Hole.optionalText announcer part).length := by
  cases part <;> rfl

/-- A sign in front of the name was written exactly if the kind of the property shows one. -/
theorem widthOf_operator (h : kind? hole.sigil hole.name = some property.kind) :
    widthOf (if property.hasOperator then [(.operator, 1)] else [])
      = (hole.sigil.map Sigil.byte).toList.length := by
  unfold kind? at h
  unfold hasOperator
  split at h
  · exact absurd h (by simp)
  · next _ hsigil =>
      rw [hsigil]
      split at h
      · exact absurd h (by simp)
      · rw [← Option.some.inj h]
        rfl
  · next _ hsigil =>
      rw [hsigil]
      split at h
      · exact absurd h (by simp)
      · rw [← Option.some.inj h]
        rfl
  · next _ hsigil =>
      rw [hsigil, ← Option.some.inj h]
      split <;> rfl

/-- The number of bytes of a format that no piece has: the colon of an empty one. -/
def gapOf (format : Option Bytes) : Nat := if format = some [] then 1 else 0

theorem length_format (format : Option Bytes) :
    (Hole.optionalText colon (format.filter fun part : Bytes => part ≠ [])).length + gapOf format
      = (Hole.optionalText colon format).length := by
  rcases format with _ | _ | ⟨b, rest⟩ <;> rfl

/-- **The pieces of a property and its closing brace take all bytes of the hole**, except for the colon
    of an empty format. -/
theorem widthOf_pieces (h : ofHole? start hole = some property) :
    widthOf property.pieces + gapOf hole.format + 1 = hole.text.length := by
  obtain ⟨hkind, hname, -, -, halignment, hformat⟩ := of_ofHole? h
  have hoperator := widthOf_operator hkind
  have hcolon := length_format hole.format
  rw [pieces, widthOf_append, widthOf_append, widthOf_append, widthOf_append, hoperator,
    widthOf_optional _ comma, widthOf_optional _ colon, hname, halignment, hformat, Hole.text_eq,
    Hole.inside]
  simp only [widthOf, List.map_cons, List.map_nil, List.sum_cons, List.sum_nil, List.length_cons,
    List.length_append, List.length_nil]
  omega

theorem pos_of_mem_pieces (hname : property.name ≠ []) :
    ∀ piece ∈ property.pieces, 0 < piece.2 := by
  intro piece hmem
  simp only [pieces, List.mem_append, or_assoc, Option.mem_toList, Option.map_eq_some_iff,
    List.mem_singleton] at hmem
  rcases hmem with rfl | hmem | rfl | ⟨part, -, rfl⟩ | ⟨part, -, rfl⟩
  · exact Nat.one_pos
  · split at hmem
    · rw [List.mem_singleton.mp hmem]
      exact Nat.one_pos
    · exact absurd hmem (by simp)
  · exact List.length_pos_iff.mpr hname
  · exact Nat.succ_pos _
  · exact Nat.succ_pos _

end Property

/-- The two offsets of a segment. -/
def Segment.offsets (segment : Segment) : Nat × Nat := (segment.start, segment.stop)

/-- Segments that are placed one behind the other make a row, if all of them have a length. -/
theorem Segment.isRow_placeFrom {pieces : List (SegmentKind × Nat)}
    (hpos : ∀ piece ∈ pieces, 0 < piece.2) (start : Nat) :
    IsRow start (start + Property.widthOf pieces)
      ((placeFrom start pieces).map Segment.offsets) := by
  induction pieces generalizing start with
  | nil => exact .nil
  | cons piece pieces ih =>
      obtain ⟨kind, length⟩ := piece
      have hlength : 0 < length := hpos _ List.mem_cons_self
      have hrest := ih (fun piece hmem => hpos piece (List.mem_cons_of_mem _ hmem)) (start + length)
      rw [Nat.add_assoc] at hrest
      have hfirst : IsRow start (start + length) [(start, start + length)] :=
        .singleton (Nat.le_refl _) (Nat.lt_add_of_pos_right hlength) (Nat.le_refl _)
      rw [placeFrom, List.map_cons, Property.widthOf, List.map_cons, List.sum_cons]
      exact hfirst.append hrest (Nat.le_add_right _ _) (Nat.add_le_add_left (Nat.le_add_right _ _) _)

namespace Property

variable {content : Bytes} {property : Property}

/-- **The segments of a property follow one another from its first byte to its last one.** -/
theorem isRow_segments (h : property ∈ all content) :
    IsRow property.start property.stop (property.segments.map Segment.offsets) := by
  obtain ⟨hole, hwritten, hproperty⟩ := exists_hole_of_mem_all h
  have hlength := widthOf_pieces hproperty
  obtain ⟨-, hname, -, hstop, -, -⟩ := of_ofHole? hproperty
  have hrow := Segment.isRow_placeFrom (pos_of_mem_pieces (hname ▸ hwritten.name_ne_nil))
    property.start
  have hclosing : IsRow (property.stop - 1) property.stop
      [(property.stop - 1, property.stop - 1 + 1)] :=
    .singleton (Nat.le_refl _) (Nat.lt_succ_self _) (by omega)
  rw [segments, List.map_append]
  exact (hrow.mono le_rfl (by omega)).append hclosing (by omega) (Nat.sub_le _ _)

/-! ## Regions -/

theorem offsets_regions (property : Property) :
    property.regions.map Region.offsets = property.segments.map Segment.offsets := by
  rw [regions, List.map_map]
  rfl

end Property

/-- **The regions of a message template are pieces of its content in a row.** -/
theorem Message.isRow_regions (content : Bytes) :
    IsRow 0 content.length ((regions content).map Region.offsets) := by
  have hrow : ∀ property ∈ Property.all content,
      IsRow property.start property.stop (property.regions.map Region.offsets) := by
    intro property hmem
    rw [Property.offsets_regions]
    exact Property.isRow_segments hmem
  rw [regions, List.map_flatMap]
  exact .flatMap hrow (fun _ _ => Nat.zero_le _) (fun _ hmem => Property.stop_le_length hmem)
    (Property.pairwise_all content)

/-! ## Braces -/

namespace Property

variable {content : Bytes} {property : Property}

/-- A hole in the covered content, from its opening brace to the closing one. -/
theorem exists_drop_start (h : property ∈ all content) :
    ∃ inside behind, (coverEscapes content).drop property.start
        = openBrace :: (inside ++ closeBrace :: behind) ∧
      property.stop = property.start + inside.length + 2 ∧ ∀ b ∈ inside, b ≠ closeBrace := by
  obtain ⟨hole, hwritten, hproperty⟩ := exists_hole_of_mem_all h
  obtain ⟨behind, hbehind⟩ := hwritten.text_isPrefix
  refine ⟨hole.inside, behind, ?_, ?_, hwritten.ne_closeBrace⟩
  · rw [← hbehind, Hole.text_eq, List.cons_append, List.append_assoc]
    rfl
  · rw [(of_ofHole? hproperty).2.2.2.1, Hole.text_eq, List.length_cons, List.length_append]
    rfl

theorem getElem?_opening (h : property ∈ all content) :
    (coverEscapes content)[property.start]? = some openBrace := by
  obtain ⟨inside, behind, hdrop, -, -⟩ := exists_drop_start h
  exact Bytes.getElem?_of_drop_eq hdrop 0

theorem getElem?_closing (h : property ∈ all content) :
    property.start < property.stop - 1 ∧
      (coverEscapes content)[property.stop - 1]? = some closeBrace := by
  obtain ⟨inside, behind, hdrop, hstop, -⟩ := exists_drop_start h
  refine ⟨by omega, ?_⟩
  have hoffset : property.stop - 1 = property.start + (inside.length + 1) := by omega
  rw [hoffset, Bytes.getElem?_of_drop_eq hdrop, List.getElem?_cons_succ,
    List.getElem?_append_right (Nat.le_refl _), Nat.sub_self]
  rfl

/-- Between its two braces a property has no closing one. -/
theorem ne_closeBrace (h : property ∈ all content) {offset : Nat} (hlow : property.start < offset)
    (hhigh : offset < property.stop - 1) :
    (coverEscapes content)[offset]? ≠ some closeBrace := by
  obtain ⟨inside, behind, hdrop, hstop, hbare⟩ := exists_drop_start h
  obtain ⟨m, rfl⟩ := Nat.exists_eq_add_of_le hlow
  have hm : m < inside.length := by omega
  rw [Nat.succ_add, ← Nat.add_succ, Bytes.getElem?_of_drop_eq hdrop, List.getElem?_cons_succ,
    List.getElem?_append_left hm, List.getElem?_eq_getElem hm]
  intro hclose
  exact hbare _ (List.getElem_mem hm) (Option.some.inj hclose)

end Property

end LogMarkup
