import LogMarkup.Proofs.Call.Extent
import LogMarkup.Proofs.Literal.Ahead

/-!
# `LogMarkup.Proofs.Call.Character` — the grammar of character literals

Between the apostrophes of a character literal stands one byte, or a backslash with the byte that it escapes
and a few more, none of which closes the literal. The grammar says so without a search for the closing
apostrophe. An apostrophe that starts no such literal is left alone, so that a literal with a character of
more than one byte is none: its two apostrophes are items of their own.

## Contents
- **Bodies.** `CodeItem.IsCharacterBody`, with `CodeItem.characterWidth_body` — the literal ends behind its
  body, whatever follows — and `CodeItem.characterWidth_cases`, everything that an apostrophe can start;
  `CodeItem.characterWidth_congr`, for literals that end in front of a text.
- **Characters.** `characterText` and `IsPlainCharacter`, with `IsPlainCharacter.characterWidth_eq` for
  characters of one byte and `CodeItem.characterWidth_of_wide` for all others.
-/

namespace LogMarkup

open Ascii

/-! ## Bodies -/

namespace CodeItem

/-- What stands between the apostrophes of a character literal. -/
inductive IsCharacterBody : Bytes → Prop
  | single {b : UInt8} : b ≠ backslash → b ≠ lineFeed → IsCharacterBody [b]
  | escape (escaped : UInt8) {more : Bytes} : more.length + 1 < escapeReach →
      (∀ b ∈ more, b ≠ apostrophe ∧ b ≠ lineFeed) →
      IsCharacterBody (backslash :: escaped :: more)

theorem first_apostrophe (rest : Bytes) :
    first apostrophe rest = ⟨.character, characterWidth rest⟩ := by
  rw [first, Literal.read?_eq_none (by decide)]
  exact if_pos rfl

/-- The bytes that an escape may go on with. -/
theorem inside_iff {b : UInt8} :
    (b != apostrophe && b != lineFeed) = true ↔ b ≠ apostrophe ∧ b ≠ lineFeed := by
  rw [Bool.and_eq_true, bne_iff_ne, bne_iff_ne]

/-- **A character literal ends with the apostrophe behind its body**, whatever follows. -/
theorem characterWidth_body {body : Bytes} (h : IsCharacterBody body) (behind : Bytes) :
    characterWidth (body ++ apostrophe :: behind) = body.length + 2 := by
  cases h with
  | single hbackslash hfeed =>
      show characterWidth (_ :: apostrophe :: behind) = 3
      rw [characterWidth, if_neg hbackslash, if_pos ⟨hfeed, rfl⟩]
  | @escape escaped more hlength hinside =>
      have hreach : ((escaped :: (more ++ apostrophe :: behind)).take escapeReach).drop 1
          = more ++ apostrophe :: behind.take (escapeReach - 1 - more.length - 1) := by
        obtain ⟨left, hleft⟩ := Nat.exists_eq_add_of_lt hlength
        have hcount : escapeReach - 1 - more.length = left + 1 := by omega
        show (more ++ apostrophe :: behind).take (escapeReach - 1) = _
        rw [List.take_append, List.take_of_length_le (by omega), hcount, List.take_succ_cons,
          Nat.add_sub_cancel]
      have hbody := (Bytes.takeWhile_part (fun b hb => inside_iff.mpr (hinside b hb))
        (show ∀ b, (apostrophe :: behind.take (escapeReach - 1 - more.length - 1)).head? = some b →
            (b != apostrophe && b != lineFeed) = false by
          intro b hb
          rw [← Option.some.inj hb]
          rfl)).1
      show characterWidth (backslash :: escaped :: (more ++ apostrophe :: behind)) = _
      rw [characterWidth, if_pos rfl]
      simp only [hreach, hbody]
      rw [if_pos (by rw [List.getElem?_append_right (Nat.le_refl _), Nat.sub_self]; rfl)]
      rfl

/-- **Everything that an apostrophe can start**: a character literal, or nothing. -/
theorem characterWidth_cases (text : Bytes) :
    characterWidth text = 1 ∨
      ∃ body behind, IsCharacterBody body ∧ text = body ++ apostrophe :: behind := by
  cases text with
  | nil => exact .inl rfl
  | cons b rest =>
      rw [characterWidth]
      by_cases hbackslash : b = backslash
      · rw [if_pos hbackslash]
        extract_lets escaped body
        by_cases hclose : escaped[body.length]? = some apostrophe
        · cases rest with
          | nil => exact absurd hclose (by simp [escaped])
          | cons c rest =>
              -- Behind the bytes that the escape goes on with stands the closing apostrophe.
              have hescaped : escaped = rest.take (escapeReach - 1) := rfl
              obtain ⟨more, hmore⟩ : ∃ more, escaped = body ++ apostrophe :: more := by
                rw [← List.head?_drop, Bytes.drop_length_takeWhile] at hclose
                obtain ⟨more, hmore⟩ := List.head?_eq_some_iff.mp hclose
                refine ⟨more, ?_⟩
                rw [← hmore, List.takeWhile_append_dropWhile]
              have hlength : body.length + 1 < escapeReach := by
                have hcount := congrArg List.length hmore
                rw [hescaped, List.length_take, List.length_append, List.length_cons] at hcount
                omega
              have hinside : ∀ c ∈ body, c ≠ apostrophe ∧ c ≠ lineFeed := fun c hc =>
                inside_iff.mp (List.mem_takeWhile_imp (p := fun c => c != apostrophe && c != lineFeed) hc)
              have hrest : rest = body ++ apostrophe :: (more ++ rest.drop (escapeReach - 1)) := by
                calc rest = escaped ++ rest.drop (escapeReach - 1) := by
                      rw [hescaped, List.take_append_drop]
                  _ = body ++ apostrophe :: (more ++ rest.drop (escapeReach - 1)) := by
                      rw [hmore, List.append_assoc, List.cons_append]
              refine .inr ⟨backslash :: c :: body, more ++ rest.drop (escapeReach - 1),
                .escape c hlength hinside, ?_⟩
              rw [hbackslash, List.cons_append, List.cons_append, ← hrest]
        · exact .inl (if_neg hclose)
      · rw [if_neg hbackslash]
        by_cases hclose : b ≠ lineFeed ∧ rest.head? = some apostrophe
        · obtain ⟨behind, rfl⟩ := List.head?_eq_some_iff.mp hclose.2
          exact .inr ⟨[b], behind, .single hbackslash hclose.1, rfl⟩
        · exact .inl (if_neg hclose)

/-- A literal that ends in a beginning of a text ends there whatever follows. -/
theorem characterWidth_eq_of_le {rest behind : Bytes} (behind' : Bytes)
    (hwide : characterWidth (rest ++ behind) ≠ 1)
    (hle : characterWidth (rest ++ behind) ≤ rest.length + 1) :
    characterWidth (rest ++ behind') = characterWidth (rest ++ behind) := by
  rcases characterWidth_cases (rest ++ behind) with hlone | ⟨body, other, hbody, htext⟩
  · exact absurd hlone hwide
  · rw [htext, characterWidth_body hbody] at hle ⊢
    obtain ⟨more, rfl⟩ : ∃ more, rest = body ++ apostrophe :: more := by
      have hbegin : body ++ [apostrophe] <+: rest := by
        have hwhole : body ++ [apostrophe] <+: rest ++ behind := by
          rw [htext]
          exact ⟨other, by simp⟩
        apply List.prefix_of_prefix_length_le hwhole (List.prefix_append rest behind)
        rw [List.length_append, List.length_singleton]
        omega
      obtain ⟨more, hmore⟩ := hbegin
      exact ⟨more, by rw [← hmore]; simp⟩
    rw [List.append_assoc]
    exact characterWidth_body hbody (more ++ behind')

/-- **What an apostrophe starts does not depend on the text behind it**, where it ends in front of that. -/
theorem characterWidth_congr {rest behind behind' : Bytes}
    (hle : characterWidth (rest ++ behind) ≤ rest.length + 1)
    (hle' : characterWidth (rest ++ behind') ≤ rest.length + 1) :
    characterWidth (rest ++ behind) = characterWidth (rest ++ behind') := by
  by_cases hlone : characterWidth (rest ++ behind) = 1
  · by_cases hlone' : characterWidth (rest ++ behind') = 1
    · rw [hlone, hlone']
    · exact characterWidth_eq_of_le behind hlone' hle'
  · exact (characterWidth_eq_of_le behind' hlone hle).symm

end CodeItem

/-! ## Characters -/

/-- A character between apostrophes. -/
def characterText (c : Char) : Bytes := apostrophe :: (String.utf8EncodeChar c ++ [apostrophe])

/-- A character that stands for itself between apostrophes. -/
def IsPlainCharacter (c : Char) : Prop := c ≠ '\'' ∧ c ≠ '\\' ∧ c ≠ '\n'

instance (c : Char) : Decidable (IsPlainCharacter c) :=
  inferInstanceAs (Decidable (c ≠ '\'' ∧ c ≠ '\\' ∧ c ≠ '\n'))

theorem val_le_iff {c : Char} : c.utf8Size = 1 ↔ c.val.toNat ≤ 127 :=
  Char.utf8Size_eq_one_iff.trans UInt32.le_iff_toNat_le

/-- A character of one byte is that byte, which is no mark of a literal. -/
theorem IsPlainCharacter.exists_encode_eq {c : Char} (h : IsPlainCharacter c) (hsize : c.utf8Size = 1) :
    ∃ b, String.utf8EncodeChar c = [b] ∧ b ≠ apostrophe ∧ b ≠ backslash ∧ b ≠ lineFeed := by
  have hle := val_le_iff.mp hsize
  have hne : ∀ d : Char, d.val.toNat ≤ 127 → c ≠ d →
      UInt8.ofNat c.val.toNat ≠ UInt8.ofNat d.val.toNat := by
    intro d hd hcd heq
    have hnat := congrArg UInt8.toNat heq
    rw [UInt8.toNat_ofNat', UInt8.toNat_ofNat'] at hnat
    apply hcd
    apply Char.toNat_inj.mp
    show c.val.toNat = d.val.toNat
    omega
  refine ⟨UInt8.ofNat c.val.toNat, ?_, ?_, ?_, ?_⟩
  · rw [String.utf8EncodeChar]
    exact if_pos hle
  · exact hne '\'' (by decide) h.1
  · exact hne '\\' (by decide) h.2.1
  · exact hne '\n' (by decide) h.2.2

/-- The bytes of any other character are none of ASCII. -/
theorem le_of_mem_utf8EncodeChar {c : Char} {b : UInt8} (hsize : c.utf8Size ≠ 1)
    (hb : b ∈ String.utf8EncodeChar c) : 0x80 ≤ b := by
  have hall : ∀ n, 128 ≤ n % 256 → 0x80 ≤ UInt8.ofNat n := by
    intro n hn
    rw [UInt8.le_iff_toNat_le, UInt8.toNat_ofNat']
    exact hn
  rw [String.utf8EncodeChar] at hb
  simp only [if_neg (mt val_le_iff.mpr hsize)] at hb
  split at hb
  · simp only [List.mem_cons, List.not_mem_nil, or_false] at hb
    rcases hb with rfl | rfl <;> apply hall <;> omega
  · split at hb
    · simp only [List.mem_cons, List.not_mem_nil, or_false] at hb
      rcases hb with rfl | rfl | rfl <;> apply hall <;> omega
    · simp only [List.mem_cons, List.not_mem_nil, or_false] at hb
      rcases hb with rfl | rfl | rfl | rfl <;> apply hall <;> omega

/-- A byte that is none of ASCII is no mark. -/
theorem ne_mark_of_le {b mark : UInt8} (hb : 0x80 ≤ b) (hmark : mark < 0x80) : b ≠ mark := by
  rintro rfl
  exact absurd hmark (UInt8.not_lt.mpr hb)

theorem length_characterText (c : Char) : (characterText c).length = c.utf8Size + 2 := by
  simp [characterText]

/-- **A character of one byte and the apostrophes around it are a literal.** -/
theorem IsPlainCharacter.characterWidth_eq {c : Char} (h : IsPlainCharacter c) (hsize : c.utf8Size = 1)
    (behind : Bytes) :
    CodeItem.characterWidth (String.utf8EncodeChar c ++ apostrophe :: behind) = 3 := by
  obtain ⟨b, hbytes, -, hbackslash, hfeed⟩ := h.exists_encode_eq hsize
  rw [hbytes]
  exact CodeItem.characterWidth_body (.single hbackslash hfeed) behind

/-- **In front of any other character an apostrophe is alone.** -/
theorem CodeItem.characterWidth_of_wide {c : Char} (hwide : c.utf8Size ≠ 1) (behind : Bytes) :
    characterWidth (String.utf8EncodeChar c ++ behind) = 1 := by
  obtain ⟨b, b', rest, hbytes⟩ : ∃ b b' rest, String.utf8EncodeChar c = b :: b' :: rest := by
    have hpos := c.utf8Size_pos
    have hlength := String.length_utf8EncodeChar c
    obtain ⟨b, others, hb⟩ :=
      List.exists_cons_of_length_pos (l := String.utf8EncodeChar c) (by omega)
    rw [hb, List.length_cons] at hlength
    obtain ⟨b', rest, hb'⟩ := List.exists_cons_of_length_pos (l := others) (by omega)
    exact ⟨b, b', rest, by rw [hb, hb']⟩
  have hmarks : ∀ c ∈ b :: b' :: rest, (0x80 : UInt8) ≤ c := by
    intro other hother
    exact le_of_mem_utf8EncodeChar hwide (hbytes ▸ hother)
  rw [hbytes]
  show characterWidth (b :: b' :: (rest ++ behind)) = 1
  rw [characterWidth, if_neg (ne_mark_of_le (hmarks b (by simp)) (by decide)), if_neg]
  rintro ⟨-, hclose⟩
  exact ne_mark_of_le (hmarks b' (by simp)) (by decide) (Option.some.inj hclose)

end LogMarkup
