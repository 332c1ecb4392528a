import LogMarkup.Proofs.Message.Escape

/-!
# `LogMarkup.Proofs.Message.Covering` — covering takes away doubled braces and nothing else

A brace is read by what stands behind it and by whether a hole is open in front of it. So what happens to
it is a step of a reading from left to right, and there are only five kinds of steps. Everything that is
said here about covered templates is said by going along with such a reading.

In what is left, no two braces stand in a row that a second reading would take for a pair: of two opening
ones the first was covered, and two closing ones are left only behind a hole that the first one closes. The
second reading comes to that place in a hole, too, although elsewhere it may be in a hole where the first
one was not.

## Contents
- **Readings.** `Covering`, the steps of a reading, with `coverEscapesFrom_eq_iff`, by which they are those
  of `coverEscapesFrom`.
- **Pairs.** `CoversAt`, the offsets of the pairs that are covered, and `Covering.exists_coversAt`.
- **Holes.** `Bytes.ClosesHole`, and `Covering.closesHole_or` for two closing braces in a row.
- **Second readings and beginnings.** `Covering.again`, and `Covering.take` for a template that is cut off.
- `coverEscapes_neutralises` — all of this together.
-/

namespace LogMarkup

open Ascii

/-! ## Readings -/

/-- A text and what is left of it when it is covered, step by step. The state says whether the text starts
    inside of a hole. -/
inductive Covering : Bool → Bytes → Bytes → Prop
  | nil {inHole : Bool} : Covering inHole [] []
  /-- What is no brace is kept. -/
  | plain {inHole : Bool} {b : UInt8} {text covered : Bytes} :
      isBrace b = false → Covering inHole text covered → Covering inHole (b :: text) (b :: covered)
  /-- A single opening brace is kept, and a hole starts behind it. -/
  | opening {inHole : Bool} {text covered : Bytes} :
      text.head? ≠ some openBrace → Covering true text covered →
      Covering inHole (openBrace :: text) (openBrace :: covered)
  /-- A closing brace is kept at the end of a hole, and elsewhere if it is a single one. -/
  | closing {inHole : Bool} {text covered : Bytes} :
      (text.head? = some closeBrace → inHole = true) → Covering false text covered →
      Covering inHole (closeBrace :: text) (closeBrace :: covered)
  /-- A doubled brace is covered, but not where its first half closes a hole. -/
  | pair {inHole : Bool} {b : UInt8} {text covered : Bytes} :
      isBrace b = true → (b = closeBrace → inHole = false) → Covering false text covered →
      Covering inHole (b :: b :: text) (space :: space :: covered)

theorem coverEscapesFrom_of_not_isBrace {b : UInt8} (hb : isBrace b = false) (inHole : Bool)
    (text : Bytes) : coverEscapesFrom inHole (b :: text) = b :: coverEscapesFrom inHole text := by
  obtain ⟨hopen, hclose⟩ := isBrace_eq_false_iff.mp hb
  cases inHole with
  | false => exact coverEscapesFrom_plain hopen fun h => absurd h.1 (by rw [hb]; simp)
  | true => exact coverEscapesFrom_kept hclose fun h => hopen h.1

/-- Whatever `coverEscapesFrom` does is a step of a reading. -/
theorem covering_coverEscapesFrom (inHole : Bool) (text : Bytes) :
    Covering inHole text (coverEscapesFrom inHole text) := by
  fun_induction coverEscapesFrom inHole text with
  | case1 => exact .nil
  | case2 inHole b =>
      by_cases hb : isBrace b = true
      · rcases isBrace_iff.mp hb with rfl | rfl
        · exact .opening (by simp) .nil
        · exact .closing (by simp) .nil
      · exact .plain (Bool.not_eq_true _ ▸ hb) .nil
  | case3 inHole rest ih => exact .pair (by decide) (fun h => absurd h (by decide)) ih
  | case4 inHole c rest hc ih => exact .opening (fun h => hc (Option.some.inj h)) ih
  | case5 inHole c rest h _ ih =>
      obtain ⟨rfl, hout⟩ := h
      exact .pair (by decide) (fun _ => hout) ih
  | case6 inHole c rest h _ ih =>
      refine .closing (fun hhead => ?_) ih
      rw [← Bool.not_eq_false]
      exact fun hout => h ⟨Option.some.inj hhead, hout⟩
  | case7 inHole b c rest hopen hclose ih => exact .plain (isBrace_eq_false_iff.mpr ⟨hopen, hclose⟩) ih

namespace Covering

variable {inHole : Bool} {content covered : Bytes}

theorem coverEscapesFrom_eq (h : Covering inHole content covered) :
    coverEscapesFrom inHole content = covered := by
  induction h with
  | nil => rfl
  | plain hb _ ih => rw [coverEscapesFrom_of_not_isBrace hb, ih]
  | opening hnext _ ih => rw [coverEscapesFrom_opening hnext, ih]
  | @closing inHole text _ hnext _ ih =>
      cases inHole with
      | true => rw [coverEscapesFrom_closing, ih]
      | false =>
          rw [coverEscapesFrom_plain (by decide), ih]
          exact fun h => absurd (hnext h.2) (by simp)
  | @pair inHole b text _ hb hout _ ih =>
      rcases isBrace_iff.mp hb with rfl | rfl
      · rw [coverEscapesFrom, if_pos rfl, if_pos rfl, ih]
      · rw [hout rfl, coverEscapesFrom_doubled hb, ih]

end Covering

/-- **The readings are those of the definition.** -/
theorem coverEscapesFrom_eq_iff {inHole : Bool} {content covered : Bytes} :
    coverEscapesFrom inHole content = covered ↔ Covering inHole content covered := by
  constructor
  · rintro rfl
    exact covering_coverEscapesFrom inHole content
  · exact Covering.coverEscapesFrom_eq

/-! ## Pairs -/

/-- A text is covered at some offsets and nowhere else: a doubled brace stands at each of them, two spaces
    take its place, and no two of the pairs share a byte. -/
structure CoversAt (offsets : List Nat) (content covered : Bytes) : Prop where
  pairwise : offsets.Pairwise fun first second => first + 2 ≤ second
  doubled : ∀ offset ∈ offsets, ∃ b, isBrace b = true ∧
    content[offset]? = some b ∧ content[offset + 1]? = some b
  spaces : ∀ offset ∈ offsets, covered[offset]? = some space ∧ covered[offset + 1]? = some space
  kept : ∀ offset, (∀ first ∈ offsets, offset ≠ first ∧ offset ≠ first + 1) →
    covered[offset]? = content[offset]?

namespace CoversAt

variable {offsets : List Nat} {content covered : Bytes}

/-- Behind some more bytes the same pairs are covered, further on. -/
theorem pairwise_map (h : CoversAt offsets content covered) (n : Nat) :
    (offsets.map (· + n)).Pairwise fun first second => first + 2 ≤ second := by
  refine List.pairwise_map.mpr (h.pairwise.imp ?_)
  intro first second hle
  omega

theorem cons (h : CoversAt offsets content covered) (b : UInt8) :
    CoversAt (offsets.map (· + 1)) (b :: content) (b :: covered) := by
  refine ⟨h.pairwise_map 1, ?_, ?_, ?_⟩
  · intro offset hmem
    obtain ⟨first, hfirst, rfl⟩ := List.mem_map.mp hmem
    exact h.doubled first hfirst
  · intro offset hmem
    obtain ⟨first, hfirst, rfl⟩ := List.mem_map.mp hmem
    exact h.spaces first hfirst
  · intro offset hnone
    cases offset with
    | zero => rfl
    | succ offset =>
        refine h.kept offset fun first hmem => ?_
        have hfirst := hnone (first + 1) (List.mem_map_of_mem hmem)
        omega

theorem cons_pair (h : CoversAt offsets content covered) {b : UInt8} (hb : isBrace b = true) :
    CoversAt (0 :: offsets.map (· + 2)) (b :: b :: content) (space :: space :: covered) := by
  refine ⟨List.pairwise_cons.mpr ⟨?_, h.pairwise_map 2⟩, ?_, ?_, ?_⟩
  · intro offset hmem
    obtain ⟨offset, -, rfl⟩ := List.mem_map.mp hmem
    omega
  · intro offset hmem
    rcases List.mem_cons.mp hmem with rfl | hmem
    · exact ⟨b, hb, rfl, rfl⟩
    · obtain ⟨first, hfirst, rfl⟩ := List.mem_map.mp hmem
      exact h.doubled first hfirst
  · intro offset hmem
    rcases List.mem_cons.mp hmem with rfl | hmem
    · exact ⟨rfl, rfl⟩
    · obtain ⟨first, hfirst, rfl⟩ := List.mem_map.mp hmem
      exact h.spaces first hfirst
  · intro offset hnone
    match offset with
    | 0 => exact absurd rfl (hnone 0 List.mem_cons_self).1
    | 1 => exact absurd rfl (hnone 0 List.mem_cons_self).2
    | offset + 2 =>
        refine h.kept offset fun first hmem => ?_
        have hfirst := hnone (first + 2) (List.mem_cons_of_mem 0 (List.mem_map_of_mem hmem))
        omega

end CoversAt

/-- **Only doubled braces are covered**, and pairs do not overlap. -/
theorem Covering.exists_coversAt {inHole : Bool} {content covered : Bytes}
    (h : Covering inHole content covered) : ∃ offsets, CoversAt offsets content covered := by
  induction h with
  | nil => exact ⟨[], .nil, by simp, by simp, fun _ _ => rfl⟩
  | plain _ _ ih | opening _ _ ih | closing _ _ ih =>
      obtain ⟨offsets, hoffsets⟩ := ih
      exact ⟨offsets.map (· + 1), hoffsets.cons _⟩
  | pair hb _ _ ih =>
      obtain ⟨offsets, hoffsets⟩ := ih
      exact ⟨0 :: offsets.map (· + 2), hoffsets.cons_pair hb⟩

/-! ## Holes -/

/-- No brace stands in front of an offset. -/
def Bytes.IsBareBefore (text : Bytes) (stop : Nat) : Prop :=
  ∀ offset < stop, text[offset]?.any isBrace = false

/-- The brace at an offset closes a hole: an opening one stands further in front, and no brace between. -/
def Bytes.ClosesHole (text : Bytes) (closing : Nat) : Prop :=
  text[closing]? = some closeBrace ∧ ∃ opening < closing, text[opening]? = some openBrace ∧
    ∀ offset, opening < offset → offset < closing → text[offset]?.any isBrace = false

theorem Bytes.IsBareBefore.cons {text : Bytes} {stop : Nat} (h : text.IsBareBefore stop) {b : UInt8}
    (hb : isBrace b = false) : Bytes.IsBareBefore (b :: text) (stop + 1) := by
  intro offset hlt
  cases offset with
  | zero => exact hb
  | succ offset => exact h offset (Nat.lt_of_succ_lt_succ hlt)

theorem Bytes.ClosesHole.cons {text : Bytes} {closing : Nat} (h : text.ClosesHole closing) (b : UInt8) :
    Bytes.ClosesHole (b :: text) (closing + 1) := by
  obtain ⟨hclosing, opening, hlt, hopening, hnone⟩ := h
  refine ⟨hclosing, opening + 1, Nat.succ_lt_succ hlt, hopening, ?_⟩
  intro offset hlow hhigh
  cases offset with
  | zero => exact absurd hlow (Nat.not_lt_zero _)
  | succ offset => exact hnone offset (Nat.lt_of_succ_lt_succ hlow) (Nat.lt_of_succ_lt_succ hhigh)

/-- A closing brace with none in front of it closes a hole that opens right there. -/
theorem Bytes.IsBareBefore.closesHole {text : Bytes} {stop : Nat} (h : text.IsBareBefore stop)
    (hclosing : text[stop]? = some closeBrace) : Bytes.ClosesHole (openBrace :: text) (stop + 1) := by
  refine ⟨hclosing, 0, Nat.succ_pos stop, rfl, ?_⟩
  intro offset hlow hhigh
  cases offset with
  | zero => exact absurd hlow (Nat.lt_irrefl _)
  | succ offset => exact h offset (Nat.lt_of_succ_lt_succ hhigh)

namespace Covering

variable {inHole : Bool} {content covered : Bytes} {offset : Nat}

/-- What is kept first stands first in the text. -/
theorem head?_eq (h : Covering inHole content covered) {b : UInt8} (hb : covered.head? = some b)
    (hne : b ≠ space) : content.head? = some b := by
  cases h with
  | nil => exact hb
  | plain _ _ => exact hb
  | opening _ _ => exact hb
  | closing _ _ => exact hb
  | pair _ _ _ => exact absurd (Option.some.inj hb).symm hne

/-- What is kept stands in the text at the same offset. -/
theorem getElem?_eq (h : Covering inHole content covered) {b : UInt8}
    (hb : covered[offset]? = some b) (hne : b ≠ space) : content[offset]? = some b := by
  obtain ⟨offsets, hoffsets⟩ := h.exists_coversAt
  rw [← hoffsets.kept offset, hb]
  intro first hmem
  obtain ⟨hspace, hspace'⟩ := hoffsets.spaces first hmem
  refine ⟨?_, ?_⟩
  · rintro rfl
    exact hne (Option.some.inj (hb.symm.trans hspace))
  · rintro rfl
    exact hne (Option.some.inj (hb.symm.trans hspace'))

/-- **Two closing braces in a row are left only where the first one closes a hole.** If no hole opens in
    front of it, the reading has started in one. -/
theorem closesHole_or (h : Covering inHole content covered)
    (hfirst : covered[offset]? = some closeBrace) (hsecond : covered[offset + 1]? = some closeBrace) :
    (content.ClosesHole offset ∧ covered.ClosesHole offset) ∨
      (inHole = true ∧ content.IsBareBefore offset ∧ covered.IsBareBefore offset) := by
  induction h generalizing offset with
  | nil => exact absurd hfirst (by simp)
  | @plain _ b _ _ hb _ ih =>
      cases offset with
      | zero =>
          obtain rfl := Option.some.inj hfirst
          exact absurd hb (by decide)
      | succ offset =>
          rcases ih hfirst hsecond with ⟨hcontent, hcovered⟩ | ⟨hin, hcontent, hcovered⟩
          · exact .inl ⟨hcontent.cons b, hcovered.cons b⟩
          · exact .inr ⟨hin, hcontent.cons hb, hcovered.cons hb⟩
  | opening _ hrest ih =>
      cases offset with
      | zero => exact absurd (Option.some.inj hfirst) (by decide)
      | succ offset =>
          rcases ih hfirst hsecond with ⟨hcontent, hcovered⟩ | ⟨-, hcontent, hcovered⟩
          · exact .inl ⟨hcontent.cons openBrace, hcovered.cons openBrace⟩
          · have hclosing := hrest.getElem?_eq hfirst (by decide)
            exact .inl ⟨hcontent.closesHole hclosing, hcovered.closesHole hfirst⟩
  | closing hnext hrest ih =>
      cases offset with
      | zero =>
          -- Outside of holes the two would have been a pair.
          rw [List.getElem?_cons_succ, ← List.head?_eq_getElem?] at hsecond
          have hin := hnext (hrest.head?_eq hsecond (by decide))
          exact .inr ⟨hin, fun _ hlt => absurd hlt (Nat.not_lt_zero _),
            fun _ hlt => absurd hlt (Nat.not_lt_zero _)⟩
      | succ offset =>
          rcases ih hfirst hsecond with ⟨hcontent, hcovered⟩ | ⟨hin, -⟩
          · exact .inl ⟨hcontent.cons closeBrace, hcovered.cons closeBrace⟩
          · exact absurd hin (by simp)
  | @pair _ b _ _ _ _ _ ih =>
      match offset with
      | 0 => exact absurd (Option.some.inj hfirst) (by decide)
      | 1 => exact absurd (Option.some.inj hfirst) (by decide)
      | offset + 2 =>
          rcases ih hfirst hsecond with ⟨hcontent, hcovered⟩ | ⟨hin, -⟩
          · exact .inl ⟨(hcontent.cons b).cons b, (hcovered.cons space).cons space⟩
          · exact absurd hin (by simp)

/-! ## Second readings and beginnings -/

/-- **A second reading keeps all that the first one has left.** It may be in a hole where the first one was
    not, but not the other way round. -/
theorem again (h : Covering inHole content covered) {state : Bool}
    (hstate : inHole = true → state = true) : Covering state covered covered := by
  induction h generalizing state with
  | nil => exact .nil
  | plain hb _ ih => exact .plain hb (ih hstate)
  | opening hnext hrest ih =>
      exact .opening (fun hhead => hnext (hrest.head?_eq hhead (by decide))) (ih fun _ => rfl)
  | closing hnext hrest ih =>
      refine .closing (fun hhead => hstate (hnext (hrest.head?_eq hhead (by decide)))) (ih ?_)
      exact fun hin => absurd hin (by simp)
  | pair _ _ _ ih =>
      have hspace : isBrace space = false := by decide
      refine .plain hspace (.plain hspace (ih ?_))
      exact fun hin => absurd hin (by simp)

end Covering

/-- An offset lies between the two halves of a doubled brace. -/
def Bytes.CutsPair (text : Bytes) (offset : Nat) : Prop :=
  0 < offset ∧ ∃ b, isBrace b = true ∧ text[offset - 1]? = some b ∧ text[offset]? = some b

theorem Bytes.CutsPair.cons {text : Bytes} {offset : Nat} (h : text.CutsPair offset) (b : UInt8) :
    Bytes.CutsPair (b :: text) (offset + 1) := by
  obtain ⟨hpos, c, hc, hbefore, hbehind⟩ := h
  obtain ⟨offset, rfl⟩ := Nat.exists_eq_succ_of_ne_zero (Nat.ne_of_gt hpos)
  exact ⟨Nat.succ_pos _, c, hc, hbefore, hbehind⟩

theorem Bytes.head?_of_head?_take {text : Bytes} {n : Nat} {b : UInt8}
    (h : (text.take n).head? = some b) : text.head? = some b := by
  rw [List.head?_take] at h
  split at h
  · exact absurd h (by simp)
  · exact h

/-- **A beginning of a text is covered as a text of its own**, unless it ends inside of a doubled brace. -/
theorem Covering.take {inHole : Bool} {content covered : Bytes} {stop : Nat}
    (h : Covering inHole content covered) (hstop : ¬ content.CutsPair stop) :
    Covering inHole (content.take stop) (covered.take stop) := by
  induction h generalizing stop with
  | nil => rw [List.take_nil]; exact .nil
  | @plain _ b _ _ hb _ ih =>
      cases stop with
      | zero => exact .nil
      | succ stop => exact .plain hb (ih fun hcut => hstop (hcut.cons b))
  | opening hnext _ ih =>
      cases stop with
      | zero => exact .nil
      | succ stop =>
          exact .opening (fun hhead => hnext (Bytes.head?_of_head?_take hhead))
            (ih fun hcut => hstop (hcut.cons openBrace))
  | closing hnext _ ih =>
      cases stop with
      | zero => exact .nil
      | succ stop =>
          exact .closing (fun hhead => hnext (Bytes.head?_of_head?_take hhead))
            (ih fun hcut => hstop (hcut.cons closeBrace))
  | @pair _ b _ _ hb hout _ ih =>
      match stop with
      | 0 => exact .nil
      | 1 => exact absurd ⟨Nat.one_pos, b, hb, rfl, rfl⟩ hstop
      | stop + 2 => exact .pair hb hout (ih fun hcut => hstop ((hcut.cons b).cons b))

/-! ## Templates -/

/-- **Covering neutralises the doubled braces of a template**, and only them. The covered template is a text
    of the same length and differs from the template at disjoint pairs alone. No two opening braces in a row
    are left, and two closing ones only where the first one closes a hole. Covered again, it stays as it is;
    and what is left of a beginning of the template does not depend on what is behind it, unless the
    beginning ends inside of a pair. -/
theorem coverEscapes_neutralises (content : Bytes) :
    (coverEscapes content).length = content.length ∧
    (Utf8.isValid content = true → Utf8.isValid (coverEscapes content) = true) ∧
    (∃ offsets, CoversAt offsets content (coverEscapes content)) ∧
    ¬ [openBrace, openBrace] <:+: coverEscapes content ∧
    (∀ offset, (coverEscapes content)[offset]? = some closeBrace →
      (coverEscapes content)[offset + 1]? = some closeBrace →
      content.ClosesHole offset ∧ (coverEscapes content).ClosesHole offset) ∧
    coverEscapes (coverEscapes content) = coverEscapes content ∧
    ∀ stop, ¬ content.CutsPair stop →
      coverEscapes (content.take stop) = (coverEscapes content).take stop := by
  have hcovering : Covering false content (coverEscapes content) := coverEscapesFrom_eq_iff.mp rfl
  refine ⟨length_coverEscapes content, isValid_coverEscapes, hcovering.exists_coversAt,
    doubled_not_infix_coverEscapesFrom false content, ?_, ?_, ?_⟩
  · intro offset hfirst hsecond
    rcases hcovering.closesHole_or hfirst hsecond with hcloses | ⟨hin, -⟩
    · exact hcloses
    · exact absurd hin (by simp)
  · exact coverEscapesFrom_eq_iff.mpr (hcovering.again fun hin => hin)
  · intro stop hstop
    exact coverEscapesFrom_eq_iff.mpr (hcovering.take hstop)

/-- The hole of `{{é{A}}b` is kept with the brace behind it, and its beginning is covered by itself up to
    the hole. -/
theorem coverEscapes_neutralises_hole :
    let content := Bytes.ofString "\x7b\x7bé\x7bA\x7d\x7db"
    Utf8.isValid content = true ∧ Utf8.isValid (coverEscapes content) = true ∧
    (coverEscapes content)[6]? = some closeBrace ∧ (coverEscapes content)[7]? = some closeBrace ∧
    content.ClosesHole 6 ∧ (coverEscapes content).ClosesHole 6 ∧
    ¬ content.CutsPair 4 ∧ coverEscapes (content.take 4) = (coverEscapes content).take 4 := by
  intro content
  have hvalid : Utf8.isValid content = true := by decide +kernel
  have hfirst : (coverEscapes content)[6]? = some closeBrace := by decide +kernel
  have hsecond : (coverEscapes content)[7]? = some closeBrace := by decide +kernel
  have hstop : ¬ content.CutsPair 4 := by
    rintro ⟨-, b, hb, hbefore, -⟩
    obtain rfl := Option.some.inj (hbefore.symm.trans (show content[3]? = some 0xA9 by decide +kernel))
    exact absurd hb (by decide)
  obtain ⟨-, htext, -, -, hholes, -, hbeginnings⟩ := coverEscapes_neutralises content
  obtain ⟨hcontent, hcovered⟩ := hholes 6 hfirst hsecond
  exact ⟨hvalid, htext hvalid, hfirst, hsecond, hcontent, hcovered, hstop, hbeginnings 4 hstop⟩

end LogMarkup
