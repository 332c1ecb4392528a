import LogMarkup.Config.Shape

/-!
# `LogMarkup.Proofs.Pattern.Ending` — the last character of a match

A pattern whose last item is one character matches only up to that character, whatever is in front of it.
The usual shapes are such patterns: each of them goes up to a parenthesis, a colon or a dot. These are ASCII
characters, so that the last byte of a match is known as well, and it is no quote.

## Contents
- **Patterns.** `Pattern.endsIn`, and `Pattern.exists_symbol_of_mem_ends` for each place where a match can
  end, by induction over the pattern.
- **Bytes.** `Utf8.getElem?_of_ascii` — an ASCII character of a text is a byte of it.
- **Shapes.** `Pattern.exists_byte_of_matchEnd?`, and `Shapes.exists_mark_of_firstMatch?` for the usual
  shapes.
-/

namespace LogMarkup

open Ascii

/-! ## Patterns -/

namespace Pattern

/-- Whether the last item of a pattern is one of some characters, in each of its alternatives. -/
def endsIn (chars : List Char) : Pattern → Bool
  | char (.range first last) => first == last && chars.contains first
  | sequence _ second => endsIn chars second
  | either preferred other => endsIn chars preferred && endsIn chars other
  | _ => false

variable {chars : List Char} {pattern : Pattern} {subject : Subject} {start place : Nat}

/-- **A match ends behind the last item of its pattern.** -/
theorem exists_symbol_of_mem_ends (h : pattern.endsIn chars = true)
    (hmem : place ∈ pattern.ends subject start) :
    ∃ n symbol, place = n + 1 ∧ subject[n]? = some symbol ∧ symbol.char ∈ chars := by
  induction pattern generalizing start with
  | char set =>
      cases set with
      | range first last =>
          simp only [endsIn, Bool.and_eq_true, beq_iff_eq, List.contains_iff_mem] at h
          obtain ⟨rfl, hchar⟩ := h
          rw [ends] at hmem
          split at hmem
          · next hany =>
              obtain ⟨symbol, hsymbol, hhas⟩ := (Option.any_eq_true _ _).mp hany
              simp only [CharSet.has, Bool.and_eq_true, decide_eq_true_eq] at hhas
              obtain rfl : first = symbol.char := Char.le_antisymm hhas.1 hhas.2
              exact ⟨start, symbol, List.mem_singleton.mp hmem, hsymbol, hchar⟩
          · exact absurd hmem List.not_mem_nil
      | _ => exact absurd h (by simp [endsIn])
  | sequence first second _ ih =>
      rw [ends, List.mem_eraseDups] at hmem
      obtain ⟨mid, -, hsecond⟩ := List.mem_flatMap.mp hmem
      exact ih h hsecond
  | either preferred other ihPreferred ihOther =>
      rw [endsIn, Bool.and_eq_true] at h
      rw [ends, List.mem_eraseDups] at hmem
      rcases List.mem_append.mp hmem with hmem | hmem
      · exact ihPreferred h.1 hmem
      · exact ihOther h.2 hmem
  | empty => exact absurd h (by simp [endsIn])
  | assert assertion => exact absurd h (by simp [endsIn])
  | star greedy round _ => exact absurd h (by simp [endsIn])

end Pattern

/-! ## Bytes -/

namespace Utf8

theorem toNat_ofNat_of_isValidChar {value : Nat} (h : value.isValidChar) :
    (Char.ofNat value).toNat = value := by
  rw [Char.ofNat, dif_pos h]
  rfl

/-- A character of several bytes is none of those that need fewer. -/
theorem lowest_le_of_sequence? {lowest lead more : Nat} {rest : Bytes} {symbol : Symbol}
    (h : sequence? lowest lead more rest = some symbol) : lowest ≤ symbol.char.toNat := by
  unfold sequence? at h
  split at h
  · exact absurd h (by simp)
  · next value _ =>
      split at h
      · next hscalar =>
          obtain rfl := Option.some.inj h
          show lowest ≤ (Char.ofNat value).toNat
          rw [toNat_ofNat_of_isValidChar hscalar.2]
          exact hscalar.1
      · exact absurd h (by simp)

/-- An ASCII character at the head of a text is its first byte. -/
theorem head_eq_of_first? {lead : UInt8} {rest : Bytes} {symbol : Symbol}
    (h : first? (lead :: rest) = some symbol) (hascii : symbol.char.toNat < 0x80) :
    lead = UInt8.ofNat symbol.char.toNat ∧ symbol.width = 1 := by
  rw [first?] at h
  -- All leads but the first kind start a sequence, whose character needs more than one byte.
  split at h
  · obtain rfl := Option.some.inj h
    have hvalid : lead.toNat.isValidChar := .inl (Nat.lt_trans lead.toNat_lt (by decide))
    refine ⟨?_, rfl⟩
    show lead = UInt8.ofNat (Char.ofNat lead.toNat).toNat
    rw [toNat_ofNat_of_isValidChar hvalid, UInt8.ofNat_toNat]
  · split at h
    · exact absurd h (by simp)
    · split at h
      · exact absurd (lowest_le_of_sequence? h) (by omega)
      · split at h
        · exact absurd (lowest_le_of_sequence? h) (by omega)
        · split at h
          · exact absurd (lowest_le_of_sequence? h) (by omega)
          · exact absurd h (by simp)

/-- **An ASCII character of a text is a byte of it**, behind the bytes of the characters in front. -/
theorem getElem?_of_ascii {text : Bytes} {n : Nat} {symbol : Symbol}
    (h : (symbols text)[n]? = some symbol) (hascii : symbol.char.toNat < 0x80) :
    text[widthOf ((symbols text).take n)]? = some (UInt8.ofNat symbol.char.toNat) ∧
      widthOf ((symbols text).take (n + 1)) = widthOf ((symbols text).take n) + 1 := by
  induction hlength : text.length using Nat.strongRecOn generalizing text n with
  | ind size ih =>
      cases text with
      | nil => exact absurd h (by simp [symbols, symbolsAfter])
      | cons lead rest =>
          rw [List.length_cons] at hlength
          cases hfirst : first? (lead :: rest) with
          | none =>
              have hsymbols : symbols (lead :: rest) = stray :: symbols rest := by
                rw [symbols, symbolsAfter, hfirst]
                rfl
              rw [hsymbols] at h ⊢
              cases n with
              | zero =>
                  obtain rfl := Option.some.inj h
                  exact absurd hascii (by decide)
              | succ n =>
                  rw [List.getElem?_cons_succ] at h
                  obtain ⟨hbyte, hwidth⟩ := ih rest.length (by omega) h rfl
                  rw [List.take_succ_cons, List.take_succ_cons, widthOf, widthOf, hwidth]
                  refine ⟨?_, (Nat.add_assoc _ _ _).symm⟩
                  show (lead :: rest)[1 + widthOf ((symbols rest).take n)]? = _
                  rw [Nat.add_comm 1, List.getElem?_cons_succ, hbyte]
          | some head =>
              obtain ⟨tail, behind, rfl, hchar⟩ := exists_isCharacter hfirst
              rw [List.length_append] at hlength
              have hsymbols : symbols (lead :: (tail ++ behind)) = head :: symbols behind := by
                rw [symbols, symbolsAfter, hfirst, Option.getD_some, hchar.width_eq,
                  Nat.add_sub_cancel, symbolsAfter_append]
              rw [hsymbols] at h ⊢
              cases n with
              | zero =>
                  obtain rfl := Option.some.inj h
                  obtain ⟨rfl, hwidth⟩ := head_eq_of_first? hfirst hascii
                  refine ⟨rfl, ?_⟩
                  show head.width + 0 = 0 + 1
                  rw [hwidth]
              | succ n =>
                  rw [List.getElem?_cons_succ] at h
                  obtain ⟨hbyte, hwidth⟩ := ih behind.length (by omega) h rfl
                  rw [List.take_succ_cons, List.take_succ_cons, widthOf, widthOf, hwidth]
                  refine ⟨?_, (Nat.add_assoc _ _ _).symm⟩
                  rw [hchar.width_eq, Nat.add_right_comm, List.getElem?_cons_succ,
                    List.getElem?_append_right (Nat.le_add_right _ _), Nat.add_sub_cancel_left, hbyte]

end Utf8

/-! ## Shapes -/

/-- The leftmost match ends where some match ends. -/
theorem Pattern.exists_mem_ends_of_firstEnd? {pattern : Pattern} {subject : Subject} {place : Nat}
    (h : pattern.firstEnd? subject = some place) : ∃ start, place ∈ pattern.ends subject start := by
  obtain ⟨start, -, hhead⟩ := List.exists_of_findSome?_eq_some h
  exact ⟨start, List.mem_of_head? hhead⟩

/-- The match of a pattern that ends in an ASCII character ends behind its byte. -/
theorem Pattern.exists_byte_of_matchEnd? {chars : List Char} {pattern : Pattern} {text : Bytes}
    {stop : Nat} (hends : pattern.endsIn chars = true) (hascii : ∀ c ∈ chars, c.toNat < 0x80)
    (h : pattern.matchEnd? text = some stop) :
    ∃ n c, stop = n + 1 ∧ c ∈ chars ∧ text[n]? = some (UInt8.ofNat c.toNat) := by
  obtain ⟨place, hfirst, rfl⟩ := Option.map_eq_some_iff.mp h
  obtain ⟨start, hmem⟩ := exists_mem_ends_of_firstEnd? hfirst
  obtain ⟨n, symbol, rfl, hsymbol, hchar⟩ := exists_symbol_of_mem_ends hends hmem
  rw [List.getElem?_toArray] at hsymbol
  obtain ⟨hbyte, hwidth⟩ := Utf8.getElem?_of_ascii hsymbol (hascii _ hchar)
  exact ⟨_, symbol.char, hwidth, hchar, hbyte⟩

/-- The lines of a shape that was read are recognised by the pattern with its written form. -/
theorem Shape.exists_pattern_of_read {source : String} {flavor : Flavor} {shape : Shape}
    (h : (Shape.read source flavor).toOption = some shape) :
    ∃ pattern, (Pattern.read source).toOption = some pattern ∧ shape.matcher = pattern.matcher := by
  unfold Shape.read at h
  split at h
  · exact absurd h (by simp [Except.toOption])
  · next pattern hread =>
      obtain rfl := Option.some.inj h
      refine ⟨pattern, ?_, rfl⟩
      rw [hread]
      rfl

namespace Shapes

/-- The characters that the usual shapes go up to. -/
def usualMarks : List Char := ['(', ':', '.']

theorem mem_usualMarks_cases {c : Char} (h : c ∈ usualMarks) : c = '(' ∨ c = ':' ∨ c = '.' := by
  simpa only [usualMarks, List.mem_cons, List.not_mem_nil, or_false] using h

theorem exists_pattern_of_mem_usual {shape : Shape} (h : shape ∈ usual.toList) :
    ∃ pattern, shape.matcher = Pattern.matcher pattern ∧ pattern.endsIn usualMarks = true := by
  have hall : ∀ source ∈ usualSources,
      ((Pattern.read source.1).toOption.all fun pattern => pattern.endsIn usualMarks) = true := by
    decide +kernel
  -- Left to unification, the usual shapes would be read from their written forms here.
  simp only [usual, List.mem_filterMap] at h
  obtain ⟨source, hmem, hshape⟩ := h
  obtain ⟨pattern, hread, hmatcher⟩ := Shape.exists_pattern_of_read hshape
  have hends := hall _ hmem
  rw [hread] at hends
  exact ⟨pattern, hmatcher, hends⟩

/-- **A usual shape goes up to a parenthesis, a colon or a dot.** -/
theorem exists_mark_of_firstMatch? {text : Bytes} {shape : Shape} {stop : Nat}
    (h : usual.firstMatch? text = some (shape, stop)) :
    ∃ n b, stop = n + 1 ∧ text[n]? = some b ∧ (b = openParen ∨ b = colon ∨ b = dot) := by
  obtain ⟨other, hmem, hfound⟩ := List.exists_of_findSome?_eq_some h
  obtain ⟨found, hmatch, heq⟩ := Option.map_eq_some_iff.mp hfound
  obtain ⟨rfl, rfl⟩ := Prod.mk.inj heq
  obtain ⟨pattern, hmatcher, hends⟩ := exists_pattern_of_mem_usual hmem
  rw [hmatcher] at hmatch
  have hascii : ∀ c ∈ usualMarks, c.toNat < 0x80 := by
    intro c hc
    rcases mem_usualMarks_cases hc with rfl | rfl | rfl <;> decide
  obtain ⟨n, c, hstop, hchar, hbyte⟩ :=
    Pattern.exists_byte_of_matchEnd? hends hascii hmatch
  refine ⟨n, _, hstop, hbyte, ?_⟩
  rcases mem_usualMarks_cases hchar with rfl | rfl | rfl <;> decide

end Shapes

end LogMarkup
