import LogMarkup.Proofs.Message.Hole

/-!
# `LogMarkup.Proofs.Message.Written` — holes are read as they are written

Each reader of a part takes as much as it can. It takes no more than the part, since the byte that follows
a part is never one that could continue it: a name ends at a comma, a colon or the closing brace, a number
at a colon or the closing brace, and a format at the closing brace. So a hole whose parts have the right
form is read back from its text, whatever stands behind it, and no other hole is read at all.

## Contents
- **Parts.** `Hole.IsName` and `Hole.IsNumber`, and one lemma per reader, `Hole.readName?_append` and its
  like.
- **Holes.** `Hole.IsProper`, and `Hole.read?_eq_some_iff` — what is read at the head of a text is the
  proper hole that is written there.
-/

namespace LogMarkup

open Ascii

namespace Hole

/-! ## Parts -/

/-- The names that can stand in a hole. -/
inductive IsName : Bytes → Prop
  /-- A letter or an underscore, and any characters of a word behind it. -/
  | word {b : UInt8} {rest : Bytes} :
      isWordStart b = true → (∀ c ∈ rest, isWord c = true) → IsName (b :: rest)
  /-- A run of digits. -/
  | digits {b : UInt8} {rest : Bytes} :
      isDigit b = true → (∀ c ∈ rest, isDigit c = true) → IsName (b :: rest)

/-- The signs that can stand in front of a number. -/
def IsSign (sign : Bytes) : Prop := sign = [] ∨ sign = [plus] ∨ sign = [minus]

/-- A run of digits, with or without a sign. -/
inductive IsNumber : Bytes → Prop
  | signed {sign digits : Bytes} :
      IsSign sign → digits ≠ [] → (∀ b ∈ digits, isDigit b = true) → IsNumber (sign ++ digits)

theorem isWordStart_eq_false {b : UInt8} (h : isDigit b = true) : isWordStart b = false := by
  simp only [isDigit, Bool.and_eq_true, decide_eq_true_eq, UInt8.le_iff_toNat_le] at h
  simp only [isWordStart, isLetter, isUpper, isLower, Bool.or_eq_false_iff, Bool.and_eq_false_iff,
    decide_eq_false_iff_not, UInt8.le_iff_toNat_le, beq_eq_false_iff_ne, ne_eq,
    ← UInt8.toNat_inj]
  have hnine : (0x39 : UInt8).toNat = 57 := rfl
  have hupper : (0x41 : UInt8).toNat = 65 := rfl
  have hlower : (0x61 : UInt8).toNat = 97 := rfl
  have hunderscore : underscore.toNat = 95 := rfl
  omega

/-- A byte that no word goes on with is no digit. -/
theorem isDigit_eq_false {b : UInt8} (h : isWord b = false) : isDigit b = false :=
  (Bool.or_eq_false_iff.mp h).2

/-- What stands behind an optional part, or announces it, comes next. -/
theorem head?_optionalText_append {announcer b : UInt8} {part : Option Bytes} {behind : Bytes}
    (h : (optionalText announcer part ++ behind).head? = some b) :
    b = announcer ∨ behind.head? = some b := by
  cases part with
  | none => exact .inr h
  | some text => exact .inl (Option.some.inj h).symm

theorem IsName.exists_eq_cons {name : Bytes} (h : IsName name) :
    ∃ b rest, name = b :: rest ∧ isWord b = true := by
  cases h with
  | word hstart _ => exact ⟨_, _, rfl, by rw [isWord, hstart, Bool.true_or]⟩
  | digits hdigit _ => exact ⟨_, _, rfl, by rw [isWord, hdigit, Bool.or_true]⟩

theorem IsName.isWord_of_mem {name : Bytes} (h : IsName name) : ∀ b ∈ name, isWord b = true := by
  intro c hc
  cases h with
  | word hstart hrest =>
      rcases List.mem_cons.mp hc with rfl | hc
      · rw [isWord, hstart, Bool.true_or]
      · exact hrest c hc
  | digits hdigit hrest =>
      rcases List.mem_cons.mp hc with rfl | hc
      · rw [isWord, hdigit, Bool.or_true]
      · rw [isWord, hrest c hc, Bool.or_true]

theorem IsNumber.mem_cases {part : Bytes} (h : IsNumber part) :
    ∀ b ∈ part, b = plus ∨ b = minus ∨ isDigit b = true := by
  intro b hb
  cases h with
  | signed hsign _ hdigits =>
      rcases List.mem_append.mp hb with hb | hb
      · rcases hsign with rfl | rfl | rfl
        · exact absurd hb List.not_mem_nil
        · exact .inl (List.mem_singleton.mp hb)
        · exact .inr (.inl (List.mem_singleton.mp hb))
      · exact .inr (.inr (hdigits b hb))

/-- A sigil is read in front of anything that is none. -/
theorem readSigil_append (sigil : Option Sigil) {behind : Bytes}
    (hbehind : ∀ other : Sigil, behind.head? ≠ some other.byte) :
    readSigil ((sigil.map Sigil.byte).toList ++ behind) = (sigil, behind) := by
  cases sigil with
  | none =>
      cases behind with
      | nil => rfl
      | cons b behind =>
          have hat : b ≠ atSign := fun h => hbehind .destructure (congrArg some h)
          have hdollar : b ≠ dollar := fun h => hbehind .stringify (congrArg some h)
          have hhash : b ≠ hash := fun h => hbehind .directive (congrArg some h)
          show readSigil (b :: behind) = _
          rw [readSigil, if_neg hat, if_neg hdollar, if_neg hhash]
  | some sigil => cases sigil <;> rfl

/-- A name is read up to a byte that no word goes on with. -/
theorem readName?_append {name behind : Bytes} (hname : IsName name)
    (hbehind : ∀ b, behind.head? = some b → isWord b = false) :
    readName? (name ++ behind) = some (name, behind) := by
  cases hname with
  | word hstart hrest =>
      obtain ⟨htake, hdrop⟩ := Bytes.takeWhile_part hrest hbehind
      rw [List.cons_append, readName?, if_pos hstart, htake, hdrop]
  | digits hdigit hrest =>
      obtain ⟨htake, hdrop⟩ :=
        Bytes.takeWhile_part hrest fun b hb => isDigit_eq_false (hbehind b hb)
      rw [List.cons_append, readName?, isWordStart_eq_false hdigit, if_neg Bool.false_ne_true,
        if_pos hdigit, htake, hdrop]

theorem readSign_append {sign behind : Bytes} (hsign : IsSign sign)
    (hbehind : ∀ b, behind.head? = some b → isDigit b = true) :
    readSign (sign ++ behind) = (sign, behind) := by
  rcases hsign with rfl | rfl | rfl
  · cases behind with
    | nil => rfl
    | cons b behind =>
        have hb : ¬ (b = plus ∨ b = minus) := by
          have hdigit := hbehind b rfl
          rintro (rfl | rfl) <;> exact absurd hdigit (by decide)
        rw [List.nil_append, readSign, if_neg hb]
  · rfl
  · rfl

/-- An alignment is read up to a byte that is no digit. Where there is none, no comma may stand in its
    place. -/
theorem readAlignment_append {alignment : Option Bytes} {behind : Bytes}
    (halignment : ∀ part ∈ alignment, IsNumber part)
    (hbehind : ∀ b, behind.head? = some b → b ≠ comma ∧ isDigit b = false) :
    readAlignment (optionalText comma alignment ++ behind) = (alignment, behind) := by
  cases alignment with
  | none =>
      cases behind with
      | nil => rfl
      | cons b behind =>
          rw [optionalText, List.nil_append, readAlignment, if_neg (hbehind b rfl).1]
  | some part =>
      cases halignment part rfl with
      | @signed sign digits hsign hne hdigits =>
          have hfirst : ∀ b, (digits ++ behind).head? = some b → isDigit b = true := by
            intro b hb
            obtain ⟨first, more, rfl⟩ := List.exists_cons_of_ne_nil hne
            obtain rfl := Option.some.inj hb
            exact hdigits first List.mem_cons_self
          obtain ⟨htake, hdrop⟩ := Bytes.takeWhile_part hdigits fun b hb => (hbehind b hb).2
          rw [optionalText, List.cons_append, List.append_assoc, readAlignment, if_pos rfl,
            readSign_append hsign hfirst]
          simp only [htake, hdrop, if_neg hne]

/-- A format is read up to the closing brace. -/
theorem readFormat_append {format : Option Bytes} (hformat : ∀ part ∈ format, closeBrace ∉ part)
    (behind : Bytes) :
    readFormat (optionalText colon format ++ closeBrace :: behind)
      = (format, closeBrace :: behind) := by
  cases format with
  | none => rfl
  | some part =>
      have hpart : ∀ b ∈ part, (b != closeBrace) = true := by
        intro b hb
        refine bne_iff_ne.mpr ?_
        rintro rfl
        exact hformat part rfl hb
      have hclose : ∀ b, (closeBrace :: behind).head? = some b → (b != closeBrace) = false := by
        intro b hb
        rw [← Option.some.inj hb]
        rfl
      obtain ⟨htake, hdrop⟩ := Bytes.takeWhile_part hpart hclose
      rw [optionalText, List.cons_append, readFormat, if_pos rfl, htake, hdrop]

/-! ## Holes -/

/-- The form that the parts of a hole have when they are read. -/
structure IsProper (hole : Hole) : Prop where
  isName_name : IsName hole.name
  isNumber : ∀ part ∈ hole.alignment, IsNumber part
  closeBrace_notMem : ∀ part ∈ hole.format, closeBrace ∉ part

/-- What a hole has between its opening brace and its format. -/
def front (hole : Hole) : Bytes :=
  (hole.sigil.map Sigil.byte).toList ++ hole.name ++ optionalText comma hole.alignment

theorem inside_eq (hole : Hole) : hole.inside = hole.front ++ optionalText colon hole.format := rfl

/-- Neither an opening brace nor a space stands in front of the format. -/
theorem IsProper.ne_of_mem_front {hole : Hole} (h : hole.IsProper) {b : UInt8} (hb : b ∈ hole.front) :
    b ≠ openBrace ∧ b ≠ space := by
  simp only [front, List.mem_append, or_assoc, Option.mem_toList, Option.map_eq_some_iff] at hb
  rcases hb with ⟨sigil, -, rfl⟩ | hname | halignment
  · cases sigil <;> decide
  · have hword := h.isName_name.isWord_of_mem b hname
    refine ⟨?_, ?_⟩
    · rintro rfl
      exact absurd hword (by decide)
    · rintro rfl
      exact absurd hword (by decide)
  · rcases mem_optionalText halignment with rfl | ⟨part, hpart, hmem⟩
    · decide
    · have hnumber := (h.isNumber part hpart).mem_cases b hmem
      refine ⟨?_, ?_⟩
      · rintro rfl
        exact absurd hnumber (by decide)
      · rintro rfl
        exact absurd hnumber (by decide)

/-- The front of a proper hole is not empty, since it has the name. -/
theorem IsProper.exists_front_eq_cons {hole : Hole} (h : hole.IsProper) :
    ∃ b rest, hole.front = b :: rest := by
  obtain ⟨b, rest, hname, -⟩ := h.isName_name.exists_eq_cons
  exact List.exists_cons_of_ne_nil (by simp [front, hname])

/-- **A proper hole is read back from its text**, whatever stands behind it. -/
theorem read?_text_append {hole : Hole} (h : hole.IsProper) (behind : Bytes) :
    read? (hole.text ++ behind) = some hole := by
  obtain ⟨first, rest, hname, hfirst⟩ := h.isName_name.exists_eq_cons
  have hafterFormat : ∀ b, (optionalText colon hole.format ++ closeBrace :: behind).head? = some b →
      b = colon ∨ b = closeBrace := by
    intro b hb
    exact (head?_optionalText_append hb).imp_right fun h => (Option.some.inj h).symm
  have hafterName : ∀ b, (optionalText comma hole.alignment
      ++ (optionalText colon hole.format ++ closeBrace :: behind)).head? = some b →
        isWord b = false := by
    intro b hb
    rcases head?_optionalText_append hb with rfl | hb
    · decide
    · rcases hafterFormat b hb with rfl | rfl <;> decide
  have hafterAlignment : ∀ b,
      (optionalText colon hole.format ++ closeBrace :: behind).head? = some b →
        b ≠ comma ∧ isDigit b = false := by
    intro b hb
    rcases hafterFormat b hb with rfl | rfl <;> decide
  have hsigil : ∀ sigil : Sigil, (hole.name ++ (optionalText comma hole.alignment
      ++ (optionalText colon hole.format ++ closeBrace :: behind))).head? ≠ some sigil.byte := by
    intro sigil hb
    rw [hname] at hb
    obtain rfl := Option.some.inj hb
    cases sigil <;> exact absurd hfirst (by decide)
  have htext : hole.text ++ behind = openBrace :: ((hole.sigil.map Sigil.byte).toList
      ++ (hole.name ++ (optionalText comma hole.alignment
        ++ (optionalText colon hole.format ++ closeBrace :: behind)))) := by
    simp only [text, List.cons_append, List.append_assoc, List.nil_append]
  rw [htext, read?, if_pos rfl]
  simp only [readInside?, readSigil_append _ hsigil, readName?_append h.isName_name hafterName,
    readAlignment_append h.isNumber hafterAlignment, readFormat_append h.closeBrace_notMem]
  exact if_pos rfl

theorem isName_of_readName? {text name rest : Bytes} (h : readName? text = some (name, rest)) :
    IsName name := by
  unfold readName? at h
  split at h
  · exact absurd h (by simp)
  · split at h
    · next hstart =>
        obtain ⟨rfl, -⟩ := Prod.mk.inj (Option.some.inj h)
        exact .word hstart fun c hc => List.mem_takeWhile_imp hc
    split at h
    · next hdigit =>
        obtain ⟨rfl, -⟩ := Prod.mk.inj (Option.some.inj h)
        exact .digits hdigit fun c hc => List.mem_takeWhile_imp hc
    · exact absurd h (by simp)

theorem isSign_of_readSign {text sign rest : Bytes} (h : readSign text = (sign, rest)) :
    IsSign sign := by
  unfold readSign at h
  split at h
  · obtain ⟨rfl, -⟩ := Prod.mk.inj h
    exact .inl rfl
  · split at h
    · next hb =>
        obtain ⟨rfl, -⟩ := Prod.mk.inj h
        rcases hb with rfl | rfl
        · exact .inr (.inl rfl)
        · exact .inr (.inr rfl)
    · obtain ⟨rfl, -⟩ := Prod.mk.inj h
      exact .inl rfl

theorem isNumber_of_readAlignment {text rest : Bytes} {alignment : Option Bytes}
    (h : readAlignment text = (alignment, rest)) : ∀ part ∈ alignment, IsNumber part := by
  intro part hpart
  unfold readAlignment at h
  split at h
  · obtain ⟨rfl, -⟩ := Prod.mk.inj h
    exact absurd hpart (by simp)
  · split at h
    · split at h
      next sign unsigned hsigned =>
      by_cases hne : unsigned.takeWhile isDigit = []
      · rw [if_pos hne] at h
        obtain ⟨rfl, -⟩ := Prod.mk.inj h
        exact absurd hpart (by simp)
      · rw [if_neg hne] at h
        obtain ⟨rfl, -⟩ := Prod.mk.inj h
        obtain rfl := Option.some.inj hpart
        exact .signed (isSign_of_readSign hsigned) hne fun c hc => List.mem_takeWhile_imp hc
    · obtain ⟨rfl, -⟩ := Prod.mk.inj h
      exact absurd hpart (by simp)

/-- The parts of a hole that is read have the right form. -/
theorem isProper_of_read? {text : Bytes} {hole : Hole} (h : read? text = some hole) :
    hole.IsProper := by
  unfold read? at h
  split at h
  · exact absurd h (by simp)
  split at h
  · unfold readInside? at h
    split at h
    next sigil afterSigil hsigil =>
    split at h
    · exact absurd h (by simp)
    next name afterName hname =>
    split at h
    next alignment afterAlignment halignment =>
    split at h
    next format afterFormat hformat =>
    split at h
    · obtain rfl := Option.some.inj h
      refine ⟨isName_of_readName? hname, isNumber_of_readAlignment halignment, ?_⟩
      intro part hpart hmem
      exact (eq_of_readFormat hformat).2 part hpart closeBrace hmem rfl
    · exact absurd h (by simp)
  · exact absurd h (by simp)

/-- **What is read at the head of a text is the proper hole that is written there.** -/
theorem read?_eq_some_iff {text : Bytes} {hole : Hole} :
    read? text = some hole ↔ hole.IsProper ∧ hole.text <+: text := by
  constructor
  · intro h
    exact ⟨isProper_of_read? h, (isWritten_of_read? h).text_isPrefix⟩
  · rintro ⟨hproper, behind, rfl⟩
    exact read?_text_append hproper behind

end Hole

end LogMarkup
