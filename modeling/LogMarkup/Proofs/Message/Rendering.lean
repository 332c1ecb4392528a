import LogMarkup.Message.Property
import LogMarkup.Proofs.Message.Escape
import LogMarkup.Proofs.Message.Written

/-!
# `LogMarkup.Proofs.Message.Rendering` — templates are read as they were composed

Who composes a template writes literal text with every brace doubled, and properties between single
braces. The two meet in runs of braces: three of them may be a pair and the brace of a hole, in either
order. Reading such a run takes two passes. The first one covers pairs from left to right, and knows at
each place whether it is in a hole; the second one looks for holes in what is left.

Both passes stay in step with the items of the template. Behind an item the first one is outside of holes
again, so that the braces of the next item are paired among themselves. What it leaves of literal text has
no brace, so that the second one passes over it, and what it leaves of a hole is the whole hole.

## Contents
- **Items.** `Bytes.escaped`, `PropertyHole` and `TemplateItem`, with the text and the properties of a list
  of items.
- **First pass.** `coverEscapesFrom_written_append`.
- **Second pass.** `Hole.allFrom_append`, `Hole.allFrom_text_append`, and `PropertyHole.ofHole?_eq`.
- **Templates.** `Property.all_flatMap_written` — reading a composed template gives back its properties,
  at their offsets.
-/

namespace LogMarkup

open Ascii

/-! ## Items -/

/-- Literal text as it is written in a template, with every brace doubled. -/
def Bytes.escaped (text : Bytes) : Bytes := text.flatMap fun b => if isBrace b then [b, b] else [b]

/-- A hole that names a property: its parts have the right form, its format can not be taken for the end of
    the hole or for a doubled brace, and nothing in it belongs to expression templates. -/
structure PropertyHole extends Hole where
  isName_name : Hole.IsName name
  isNumber : ∀ part ∈ alignment, Hole.IsNumber part
  format_ne_nil : ∀ part ∈ format, part ≠ []
  closeBrace_notMem : ∀ part ∈ format, closeBrace ∉ part
  not_doubled : ∀ part ∈ format, ¬ [openBrace, openBrace] <:+: part
  sigil_ne : sigil ≠ some .directive
  name_notMem : sigil = some .destructure → name ∉ Property.reservedNames
  length_name_ne : sigil = some .stringify → name.length ≠ 1

namespace PropertyHole

/-- How the property captures its value: the sigil decides, and without one the name does. -/
def kind (hole : PropertyHole) : PropertyKind :=
  match hole.sigil with
  | some .destructure => .destructured
  | some .stringify => .stringified
  | _ => if hole.name.all isDigit then .positional else .standard

/-- The property that a hole names at an offset. -/
def property (hole : PropertyHole) (start : Nat) : Property where
  name := hole.name
  start := start
  stop := start + hole.text.length
  kind := hole.kind
  alignment := hole.alignment
  format := hole.format

end PropertyHole

/-- A piece of a template. -/
inductive TemplateItem
  /-- Literal text, which may be any text. -/
  | literal (text : Bytes)
  | property (hole : PropertyHole)

namespace TemplateItem

/-- The piece as it is written. -/
def written : TemplateItem → Bytes
  | literal text => text.escaped
  | property hole => hole.text

/-- The properties of a template whose first byte has the offset `start`. -/
def propertiesFrom (start : Nat) : List TemplateItem → List Property
  | [] => []
  | literal text :: items => propertiesFrom (start + text.escaped.length) items
  | property hole :: items => hole.property start :: propertiesFrom (start + hole.text.length) items

/-- What the first pass leaves of a piece: literal text without its braces, and all of a hole. -/
def covered : TemplateItem → Bytes
  | literal text => text.flatMap fun b => if isBrace b then [space, space] else [b]
  | property hole => hole.text

end TemplateItem

/-! ## First pass -/

theorem coverEscapesFrom_escaped_append (text behind : Bytes) :
    coverEscapesFrom false (text.escaped ++ behind)
      = (TemplateItem.literal text).covered ++ coverEscapesFrom false behind := by
  rw [Bytes.escaped, TemplateItem.covered]
  induction text with
  | nil => rfl
  | cons b text ih =>
      rw [List.flatMap_cons, List.flatMap_cons, List.append_assoc, List.append_assoc, ← ih]
      by_cases hb : isBrace b = true
      · rw [if_pos hb, if_pos hb]
        exact coverEscapesFrom_doubled hb _
      · rw [if_neg hb, if_neg hb]
        refine coverEscapesFrom_plain ?_ fun h => hb h.1
        rintro rfl
        exact hb (by decide)

namespace PropertyHole

variable (hole : PropertyHole)

theorem isProper : hole.toHole.IsProper := ⟨hole.isName_name, hole.isNumber, hole.closeBrace_notMem⟩

theorem not_doubled_inside : ¬ [openBrace, openBrace] <:+: hole.inside := by
  intro h
  have hfront : openBrace ∉ hole.front := fun hmem => (hole.isProper.ne_of_mem_front hmem).1 rfl
  have hformat := doubled_infix_append hfront h
  cases hpart : hole.format with
  | none =>
      rw [hpart] at hformat
      exact absurd hformat.length_le (by simp [Hole.optionalText])
  | some part =>
      rw [hpart] at hformat
      exact hole.not_doubled part hpart (doubled_infix_cons (by decide) hformat)

theorem coverEscapesFrom_text_append (behind : Bytes) :
    coverEscapesFrom false (hole.text ++ behind) = hole.text ++ coverEscapesFrom false behind := by
  have hfirst : (hole.inside ++ closeBrace :: behind).head? ≠ some openBrace := by
    obtain ⟨b, rest, hfront⟩ := hole.isProper.exists_front_eq_cons
    have hb := hole.isProper.ne_of_mem_front (hfront ▸ List.mem_cons_self)
    rw [Hole.inside_eq, hfront]
    exact fun heq => hb.1 (Option.some.inj heq)
  have hbare : closeBrace ∉ hole.inside := by
    have hread := Hole.read?_text_append hole.isProper []
    intro hmem
    exact (Hole.isWritten_of_read? hread).ne_closeBrace closeBrace hmem rfl
  rw [Hole.text_eq, List.cons_append, List.append_assoc, List.singleton_append,
    coverEscapesFrom_opening hfirst, coverEscapesFrom_inside hbare hole.not_doubled_inside,
    List.cons_append, List.append_assoc, List.singleton_append]

end PropertyHole

/-- **Behind an item the first pass is outside of holes again**, and of the item it leaves what does not
    depend on the others. -/
theorem coverEscapesFrom_written_append (item : TemplateItem) (behind : Bytes) :
    coverEscapesFrom false (item.written ++ behind)
      = item.covered ++ coverEscapesFrom false behind := by
  cases item with
  | literal text => exact coverEscapesFrom_escaped_append text behind
  | property hole => exact hole.coverEscapesFrom_text_append behind

/-! ## Second pass -/

/-- The search for holes passes over text without opening braces. -/
theorem Hole.allFrom_append {text : Bytes} (h : openBrace ∉ text) (start : Nat) (behind : Bytes) :
    allFrom start (text ++ behind) = allFrom (start + text.length) behind := by
  induction text generalizing start with
  | nil => rfl
  | cons b text ih =>
      have hb : b ≠ openBrace := fun heq => h (heq ▸ List.mem_cons_self)
      have hnone : read? (b :: (text ++ behind)) = none := if_neg hb
      rw [List.cons_append, allFrom, hnone]
      show allFrom (start + 1) (text ++ behind) = _
      rw [ih (fun hmem => h (List.mem_cons_of_mem b hmem)), List.length_cons, Nat.add_assoc,
        Nat.add_comm 1]

/-- The search finds a proper hole and goes on behind it. -/
theorem Hole.allFrom_text_append {hole : Hole} (h : hole.IsProper) (start : Nat) (behind : Bytes) :
    allFrom start (hole.text ++ behind)
      = (start, hole) :: allFrom (start + hole.text.length) behind := by
  have hread := read?_text_append h behind
  rw [text_eq, List.cons_append] at hread ⊢
  rw [allFrom, hread]
  show (start, hole) :: allFrom (start + hole.text.length)
    ((hole.inside ++ [closeBrace] ++ behind).drop (hole.text.length - 1)) = _
  rw [text_eq, List.length_cons, Nat.add_sub_cancel, List.drop_left]

namespace PropertyHole

theorem kind?_eq (hole : PropertyHole) :
    Property.kind? hole.sigil hole.name = some hole.kind := by
  unfold kind
  cases hsigil : hole.sigil with
  | none => rfl
  | some sigil =>
      cases sigil with
      | destructure => exact if_neg (hole.name_notMem hsigil)
      | stringify => exact if_neg (hole.length_name_ne hsigil)
      | directive => exact absurd hsigil hole.sigil_ne

/-- A hole that names a property is read as this property. -/
theorem ofHole?_eq (hole : PropertyHole) (start : Nat) :
    Property.ofHole? start hole.toHole = some (hole.property start) := by
  have hformat : hole.format.filter (fun part : Bytes => part ≠ []) = hole.format := by
    cases hpart : hole.format with
    | none => rfl
    | some part => exact Option.filter_some_pos (decide_eq_true (hole.format_ne_nil part hpart))
  rw [Property.ofHole?, hole.kind?_eq]
  simp only [hformat]
  rfl

end PropertyHole

/-! ## Templates -/

namespace TemplateItem

theorem coverEscapes_flatMap_written (items : List TemplateItem) :
    coverEscapes (items.flatMap written) = items.flatMap covered := by
  induction items with
  | nil => rfl
  | cons item items ih =>
      rw [List.flatMap_cons, List.flatMap_cons, ← ih]
      exact coverEscapesFrom_written_append item _

theorem length_covered_literal (text : Bytes) :
    (literal text).covered.length = text.escaped.length := by
  rw [covered, Bytes.escaped, List.length_flatMap, List.length_flatMap]
  refine congrArg List.sum (List.map_congr_left fun b _ => ?_)
  split <;> rfl

theorem openBrace_notMem_covered_literal (text : Bytes) : openBrace ∉ (literal text).covered := by
  intro hmem
  obtain ⟨b, -, hb⟩ := List.mem_flatMap.mp hmem
  split at hb
  · exact absurd hb (by decide)
  · next hbrace =>
      obtain rfl := List.mem_singleton.mp hb
      exact hbrace (by decide)

/-- The second pass finds the properties of what the first pass leaves. -/
theorem filterMap_allFrom_covered (start : Nat) (items : List TemplateItem) :
    (Hole.allFrom start (items.flatMap covered)).filterMap
        (fun (offset, hole) => Property.ofHole? offset hole) = propertiesFrom start items := by
  induction items generalizing start with
  | nil =>
      rw [List.flatMap_nil, Hole.allFrom]
      rfl
  | cons item items ih =>
      rw [List.flatMap_cons]
      cases item with
      | literal text =>
          rw [Hole.allFrom_append (openBrace_notMem_covered_literal text), length_covered_literal, ih]
          rfl
      | property hole =>
          rw [covered, Hole.allFrom_text_append hole.isProper, List.filterMap_cons]
          simp only [hole.ofHole?_eq, ih]
          rfl

end TemplateItem

/-- **Reading a composed template gives back its properties**, all of them and nothing else, with the offsets
    at which they were written. -/
theorem Property.all_flatMap_written (items : List TemplateItem) :
    all (items.flatMap TemplateItem.written) = TemplateItem.propertiesFrom 0 items := by
  rw [all, TemplateItem.coverEscapes_flatMap_written]
  exact TemplateItem.filterMap_allFrom_covered 0 items

/-- A property with all of its parts and a brace in its format, between two literal braces. -/
theorem Property.all_flatMap_written_braces :
    ∃ items : List TemplateItem,
      items.flatMap TemplateItem.written
        = Bytes.ofString "\x7b\x7b\x7b@A,-5:x\x7by\x7d\x7d\x7d" ∧
      Property.all (Bytes.ofString "\x7b\x7b\x7b@A,-5:x\x7by\x7d\x7d\x7d")
        = [⟨Bytes.ofString "A", 2, 13, .destructured, some (Bytes.ofString "-5"),
            some (Bytes.ofString "x\x7by")⟩] := by
  let hole : PropertyHole :=
    { sigil := some .destructure
      name := Bytes.ofString "A"
      alignment := some (Bytes.ofString "-5")
      format := some (Bytes.ofString "x\x7by")
      isName_name := .word (by decide) (by simp)
      isNumber := by
        rintro _ ⟨rfl⟩
        exact @Hole.IsNumber.signed [minus] [0x35] (.inr (.inr rfl)) (by simp)
          (List.forall_mem_singleton.mpr rfl)
      format_ne_nil := by
        rintro _ ⟨rfl⟩
        decide
      closeBrace_notMem := by
        rintro _ ⟨rfl⟩
        decide
      not_doubled := by
        rintro _ ⟨rfl⟩
        decide
      sigil_ne := by decide
      name_notMem := fun _ => by decide
      length_name_ne := by decide }
  have hwritten : [.literal [openBrace], .property hole, .literal [closeBrace]].flatMap
      TemplateItem.written = Bytes.ofString "\x7b\x7b\x7b@A,-5:x\x7by\x7d\x7d\x7d" := by decide
  refine ⟨_, hwritten, ?_⟩
  rw [← hwritten, Property.all_flatMap_written]
  rfl

end LogMarkup
