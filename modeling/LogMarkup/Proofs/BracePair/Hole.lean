import LogMarkup.Proofs.BracePair.Content
import LogMarkup.Proofs.Message.Property

/-!
# `LogMarkup.Proofs.BracePair.Hole` — holes of properties and pairs of braces

A hole that is read for a property may have opening braces in its format, while the search for the other
brace of a pair gives up at the first brace that it meets. So the two do not agree on every hole. They do on
those that have no opening brace inside, as far as the search goes; and on which these are, the search from
the one end and the search from the other end agree with one another.

## Contents
- **Pairs.** `closingBehind?_eq_some_iff_openingBefore?`, for any two braces.
- **Properties.** `Property.IsFlat`, a hole without opening braces inside, and
  `Property.isBracePair_iff`, by which its braces are a pair.
- `searches_agree_with_properties` — what both searches find of a property, and of any two braces.
-/

namespace LogMarkup

open Ascii

/-! ## Pairs -/

/-- **Both searches agree on any two braces**, whatever the greatest distance is. -/
theorem closingBehind?_eq_some_iff_openingBefore? {content : Bytes} {distance opening closing : Nat}
    (hopening : content[opening]? = some openBrace) (hclosing : content[closing]? = some closeBrace) :
    closingBehind? content distance opening = some closing ↔
      openingBefore? content distance closing = some opening := by
  rw [closingBehind?_eq_some_iff hopening, openingBefore?_eq_some_iff hclosing]

/-! ## Properties -/

namespace Property

variable {content : Bytes} {property : Property} {distance : Nat}

/-- No opening brace stands between the two braces of a property. -/
def IsFlat (content : Bytes) (property : Property) : Prop :=
  ∀ offset < property.stop - 1, property.start < offset →
    (coverEscapes content)[offset]? ≠ some openBrace

instance (content : Bytes) (property : Property) : Decidable (property.IsFlat content) :=
  inferInstanceAs (Decidable (∀ offset < property.stop - 1, property.start < offset →
    (coverEscapes content)[offset]? ≠ some openBrace))

/-- **The two braces of a property are a pair exactly if no other brace opens between them**, and if they
    are in reach of one another. -/
theorem isBracePair_iff (h : property ∈ all content) :
    IsBracePair (coverEscapes content) distance property.start (property.stop - 1) ↔
      property.IsFlat content ∧ property.stop - 1 - property.start ≤ distance := by
  obtain ⟨hlt, hclosing⟩ := getElem?_closing h
  constructor
  · intro hpair
    refine ⟨?_, hpair.le_distance⟩
    intro offset hhigh hlow hopen
    have hnone := hpair.isBrace_eq_false offset hlow hhigh
    rw [hopen] at hnone
    exact absurd hnone (by decide)
  · rintro ⟨hflat, hdistance⟩
    refine ⟨hlt, getElem?_opening h, hclosing, ?_, hdistance⟩
    intro offset hlow hhigh
    -- A brace there would open, since a closing one would have ended the property.
    by_contra hbrace
    rw [Bool.not_eq_false] at hbrace
    exact ne_closeBrace h hlow hhigh (eq_closeBrace_of_isBrace hbrace (hflat offset hhigh hlow))

end Property

/-- **The search for pairs and the search for holes agree on flat properties.** From either brace of a
    property the search finds the other one exactly if no brace opens between them and if they are in reach
    of one another; and from any two braces of any content it finds the one exactly if it finds the
    other. -/
theorem searches_agree_with_properties :
    (∀ (content : Bytes) (distance : Nat), ∀ property ∈ Property.all content,
      (closingBehind? (coverEscapes content) distance property.start = some (property.stop - 1) ↔
        property.IsFlat content ∧ property.stop - 1 - property.start ≤ distance) ∧
      (openingBefore? (coverEscapes content) distance (property.stop - 1) = some property.start ↔
        property.IsFlat content ∧ property.stop - 1 - property.start ≤ distance)) ∧
    ∀ (content : Bytes) (distance opening closing : Nat),
      content[opening]? = some openBrace → content[closing]? = some closeBrace →
      (closingBehind? content distance opening = some closing ↔
        openingBefore? content distance closing = some opening) := by
  constructor
  · intro content distance property h
    rw [closingBehind?_eq_some_iff (Property.getElem?_opening h),
      openingBefore?_eq_some_iff (Property.getElem?_closing h).2]
    exact ⟨Property.isBracePair_iff h, Property.isBracePair_iff h⟩
  · intro content distance opening closing
    exact closingBehind?_eq_some_iff_openingBefore?

/-- The property `A` of `{A:x{y} {B,3}` has a brace in its format and is not found, while `B` is found from
    both ends, up to the least distance. The brace in the format is paired with the end of `A`. -/
theorem searches_agree_with_properties_nested :
    let content := Bytes.ofString "\x7bA:x\x7by\x7d \x7bB,3\x7d"
    let first : Property :=
      ⟨Bytes.ofString "A", 0, 7, .standard, none, some (Bytes.ofString "x\x7by")⟩
    let second : Property :=
      ⟨Bytes.ofString "B", 8, 13, .standard, some (Bytes.ofString "3"), none⟩
    (first ∈ Property.all content ∧ ¬ first.IsFlat content ∧
      closingBehind? (coverEscapes content) 100 0 ≠ some 6 ∧
      openingBefore? (coverEscapes content) 100 6 ≠ some 0) ∧
    (second ∈ Property.all content ∧ second.IsFlat content ∧
      closingBehind? (coverEscapes content) 4 8 = some 12 ∧
      openingBefore? (coverEscapes content) 4 12 = some 8) ∧
    (coverEscapes content)[4]? = some openBrace ∧ (coverEscapes content)[6]? = some closeBrace ∧
    closingBehind? (coverEscapes content) 2 4 = some 6 ∧
    openingBefore? (coverEscapes content) 2 6 = some 4 := by
  intro content first second
  have hfirst : first ∈ Property.all content := by decide +kernel
  have hsecond : second ∈ Property.all content := by decide +kernel
  have hnested : ¬ first.IsFlat content := by decide +kernel
  have hflat : second.IsFlat content := by decide +kernel
  have hopening : (coverEscapes content)[4]? = some openBrace := by decide +kernel
  have hclosing : (coverEscapes content)[6]? = some closeBrace := by decide +kernel
  have hinner : closingBehind? (coverEscapes content) 2 4 = some 6 := by decide +kernel
  obtain ⟨hproperties, hbraces⟩ := searches_agree_with_properties
  obtain ⟨hforth, hback⟩ := hproperties content 100 first hfirst
  obtain ⟨hforth', hback'⟩ := hproperties content 4 second hsecond
  refine ⟨⟨hfirst, hnested, fun h => hnested (hforth.mp h).1, fun h => hnested (hback.mp h).1⟩,
    ⟨hsecond, hflat, hforth'.mpr ⟨hflat, by decide⟩, hback'.mpr ⟨hflat, by decide⟩⟩,
    hopening, hclosing, hinner, ?_⟩
  exact (hbraces (coverEscapes content) 2 4 6 hopening hclosing).mp hinner

end LogMarkup
