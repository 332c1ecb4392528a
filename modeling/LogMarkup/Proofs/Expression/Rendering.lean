import LogMarkup.Proofs.Expression.Printing
import LogMarkup.Proofs.Message.Rendering

/-!
# `LogMarkup.Proofs.Expression.Rendering` — expression templates are read as they were composed

Who composes an expression template writes literal text with every brace doubled, and names between single
braces, with an alignment and a format. Outside of holes only braces, brackets and backslashes count, so that
quotes and operators in the text are plain text. A pair of braces is taken together, from left to right, so
that the next brace is the one of a hole, or of another pair.

The search for the end of a hole passes over the inside, in which nothing nests and nothing is quoted. The
name ends at a comma, at a colon or at the end of the inside. None of them opens a call, and so the name is
not read as the beginning of an expression. What is behind it is read part by part.

## Contents
- **Items.** `HoleHead`, `NamedHole` and `Expression.Item`, with the text and the tokens of a list of items.
- **Literal text.** `Expression.exists_templateTokensFrom_escaped_append`, by induction over the text.
- **Parts.** One lemma per reader of a part, up to `Expression.bodyTokens_inside`.
- **Holes.** `Expression.hole_inside_append` and `Expression.templateTokensFrom_text_append`.
- **Templates.** `Mode.tokens_composed` — reading a composed template gives the tokens of its holes, and no
  other one.
-/

namespace LogMarkup

open Ascii

/-! ## Items -/

/-- What names a value at the head of a hole. -/
inductive HoleHead
  | name (text : Bytes) (isRun : Bytes.IsRun isWord isWord text)
  /-- An `@` with small letters behind it. -/
  | builtIn (letters : Bytes) (isRun : Bytes.IsRun isLower isLower letters)
  /-- A `$` with a word behind it. -/
  | reference (word : Bytes) (isRun : Bytes.IsRun isWordStart isWord word)

namespace HoleHead

/-- The name as it is written. -/
def written : HoleHead → Bytes
  | name text _ => text
  | builtIn letters _ => atSign :: letters
  | reference word _ => dollar :: word

/-- The kind of its token. -/
def kind : HoleHead → TokenKind
  | builtIn _ _ => .builtIn
  | name _ _ | reference _ _ => .identifier

theorem written_ne_nil (head : HoleHead) : head.written ≠ [] := by
  cases head with
  | name text isRun => exact isRun.ne_nil
  | builtIn letters isRun => exact List.cons_ne_nil _ _
  | reference word isRun => exact List.cons_ne_nil _ _

end HoleHead

/-- The bytes that have no meaning for the search for the end of a hole. -/
def IsPlainInHole (b : UInt8) : Prop := isBrace b = false ∧ isQuote b = false ∧ b ≠ backslash

instance : DecidablePred IsPlainInHole :=
  fun b => inferInstanceAs (Decidable (isBrace b = false ∧ isQuote b = false ∧ b ≠ backslash))

/-- A hole of an expression template that names a value, with an alignment and a format for it. -/
structure NamedHole where
  head : HoleHead
  /-- The number behind the comma. -/
  alignment : Option Bytes
  /-- The text behind the colon, which may be empty. -/
  format : Option Bytes
  isNumber : ∀ part ∈ alignment, Hole.IsNumber part
  isPlain : ∀ part ∈ format, ∀ b ∈ part, IsPlainInHole b

namespace NamedHole

/-- The alignment and the format as they are written. -/
def tail (hole : NamedHole) : Bytes :=
  Hole.optionalText comma hole.alignment ++ Hole.optionalText colon hole.format

/-- What is between the braces. -/
def inside (hole : NamedHole) : Bytes := hole.head.written ++ hole.tail

/-- The hole as it is written. -/
def text (hole : NamedHole) : Bytes := openBrace :: (hole.inside ++ [closeBrace])

/-- The tokens of an optional part at an offset: the character that announces it, and the part if there is
    something in it. -/
def partTokens (kind : TokenKind) (announcer : UInt8) (start : Nat) : Option Bytes → List Token
  | none => []
  | some part =>
    Token.mark start announcer :: if part = [] then [] else [Token.ofText kind (start + 1) part]

/-- The tokens of the alignment and the format, which start at an offset. -/
def tailTokens (start : Nat) (hole : NamedHole) : List Token :=
  partTokens .number comma start hole.alignment
    ++ partTokens .format colon (start + (Hole.optionalText comma hole.alignment).length) hole.format

/-- The tokens of the inside, which starts at an offset. -/
def insideTokens (start : Nat) (hole : NamedHole) : List Token :=
  Token.ofText hole.head.kind start hole.head.written
    :: hole.tailTokens (start + hole.head.written.length)

/-- The tokens of the hole at an offset. -/
def tokens (start : Nat) (hole : NamedHole) : List Token :=
  Token.mark start openBrace :: (hole.insideTokens (start + 1)
    ++ [Token.mark (start + 1 + hole.inside.length) closeBrace])

end NamedHole

namespace Expression

/-- A piece of an expression template. -/
inductive Item
  /-- Literal text without brackets and backslashes. -/
  | literal (text : Bytes)
      (notMem : backslash ∉ text ∧ openBracket ∉ text ∧ closeBracket ∉ text)
  | hole (named : NamedHole)

namespace Item

/-- The piece as it is written. -/
def written : Item → Bytes
  | literal text _ => text.escaped
  | hole named => named.text

/-- The tokens of a template whose first byte has the offset `start`. -/
def tokensFrom (start : Nat) : List Item → List Token
  | [] => []
  | literal text _ :: items => tokensFrom (start + text.escaped.length) items
  | hole named :: items => named.tokens start ++ tokensFrom (start + named.text.length) items

end Item

/-! ## Literal text -/

/-- A byte of the text, doubled or not, has no token. -/
theorem templateTokensFrom_escaped_byte_append {b : UInt8}
    (hb : backslash ≠ b ∧ openBracket ≠ b ∧ closeBracket ≠ b) (before : Option UInt8) (start : Nat)
    (behind : Bytes) :
    templateTokensFrom before start (Bytes.escaped [b] ++ behind)
      = templateTokensFrom (some b) (start + (Bytes.escaped [b]).length) behind := by
  obtain ⟨hbackslash, hopen, hclose⟩ := hb
  have hbracket : ¬ ((b = openBracket ∨ b = closeBracket) ∧ isIndexed before = true) :=
    fun h => h.1.elim (hopen ·.symm) (hclose ·.symm)
  by_cases hbrace : isBrace b = true
  · have htext : Bytes.escaped [b] = [b, b] := by simp [Bytes.escaped, hbrace]
    have hhole : isHoleStart b (b :: behind) = false := by
      rw [isHoleStart]
      by_cases hb : b = openBrace <;> simp [hb]
    have hwidth : plainWidth b (b :: behind) = 2 := by
      rw [plainWidth, if_neg hbackslash.symm, if_pos ⟨hbrace, rfl⟩]
    rw [htext, List.cons_append, List.singleton_append, templateTokensFrom, hhole,
      if_neg Bool.false_ne_true, if_neg hbracket, hwidth]
    rfl
  · have htext : Bytes.escaped [b] = [b] := by simp [Bytes.escaped, hbrace]
    have hhole : isHoleStart b behind = false := by
      have hb : b ≠ openBrace := by
        rintro rfl
        exact hbrace rfl
      simp [isHoleStart, hb]
    have hwidth : plainWidth b behind = 1 := by
      rw [plainWidth, if_neg hbackslash.symm, if_neg fun h => hbrace h.1,
        if_neg fun h => hopen h.1.symm]
    rw [htext, List.singleton_append, templateTokensFrom, hhole, if_neg Bool.false_ne_true,
      if_neg hbracket, hwidth]
    rfl

/-- **Literal text has no tokens**, and the byte behind it is read as it would be without the text. -/
theorem exists_templateTokensFrom_escaped_append {text : Bytes}
    (htext : backslash ∉ text ∧ openBracket ∉ text ∧ closeBracket ∉ text)
    (before : Option UInt8) (start : Nat) (behind : Bytes) :
    ∃ last, templateTokensFrom before start (text.escaped ++ behind)
      = templateTokensFrom last (start + text.escaped.length) behind := by
  induction text generalizing before start with
  | nil => exact ⟨before, rfl⟩
  | cons b rest ih =>
      simp only [List.mem_cons, not_or] at htext
      obtain ⟨⟨hbackslash, hrest₁⟩, ⟨hopen, hrest₂⟩, hclose, hrest₃⟩ := htext
      have hcons : Bytes.escaped (b :: rest) = Bytes.escaped [b] ++ Bytes.escaped rest := by
        simp [Bytes.escaped]
      obtain ⟨last, hlast⟩ := ih ⟨hrest₁, hrest₂, hrest₃⟩ (some b) (start + (Bytes.escaped [b]).length)
      refine ⟨last, ?_⟩
      rw [hcons, List.append_assoc, templateTokensFrom_escaped_byte_append ⟨hbackslash, hopen, hclose⟩,
        hlast, List.length_append, Nat.add_assoc]

/-! ## Parts -/

theorem isSpace_eq_false {b : UInt8} (h : isDigit b = true) : isSpace b = false := by
  simp [isSpace, ne_of_class h (c := space) rfl, ne_of_class h (c := tab) rfl,
    ne_of_class h (c := lineFeed) rfl, ne_of_class h (c := formFeed) rfl,
    ne_of_class h (c := carriageReturn) rfl]

/-- No space stands at the head of a text that starts with a byte of another kind. -/
theorem takeWhile_isSpace_of_head {text : Bytes} (h : ∀ b, text.head? = some b → isSpace b = false) :
    text.takeWhile isSpace = [] := by
  cases text with
  | nil => rfl
  | cons b rest => exact List.takeWhile_cons_of_neg (by simp [h b rfl])

theorem formatTokens_optionalText (start : Nat) (format : Option Bytes) :
    formatTokens start (Hole.optionalText colon format)
      = NamedHole.partTokens .format colon start format := by
  cases format <;> rfl

theorem ne_nil_of_isNumber {number : Bytes} (h : Hole.IsNumber number) : number ≠ [] := by
  cases h with
  | signed _ hne _ => exact fun h => hne (List.append_eq_nil_iff.mp h).2

/-- A number is read up to a byte that is no digit. -/
theorem width_append {number behind : Bytes} (hnumber : Hole.IsNumber number)
    (hbehind : ∀ b, behind.head? = some b → isDigit b = false) :
    width (number ++ behind) = number := by
  cases hnumber with
  | @signed sign digits hsign hne hdigits =>
      obtain ⟨htake, -⟩ := Bytes.takeWhile_part hdigits hbehind
      rcases hsign with rfl | rfl | rfl
      · obtain ⟨d, more, rfl⟩ := List.exists_cons_of_ne_nil hne
        have hd : ¬ (d = plus ∨ d = minus) := by
          have hdigit := hdigits d List.mem_cons_self
          rintro (rfl | rfl) <;> exact absurd hdigit (by decide)
        rw [List.nil_append, List.cons_append, width, if_neg hd]
        exact htake
      · exact congrArg (plus :: ·) htake
      · exact congrArg (minus :: ·) htake

theorem eq_colon_of_head? {format : Option Bytes} {b : UInt8}
    (h : (Hole.optionalText colon format).head? = some b) : b = colon := by
  cases format with
  | none => exact absurd h (by simp [Hole.optionalText])
  | some part => exact (Option.some.inj h).symm

/-- An alignment is one number, and the format is behind it. -/
theorem alignmentTokens_append {number : Bytes} (hnumber : Hole.IsNumber number)
    (format : Option Bytes) (start : Nat) :
    alignmentTokens start (number ++ Hole.optionalText colon format)
      = Token.ofText .number start number
        :: NamedHole.partTokens .format colon (start + number.length) format := by
  have hne := ne_nil_of_isNumber hnumber
  have hfirst : (number ++ Hole.optionalText colon format).takeWhile isSpace = [] := by
    obtain ⟨b, rest, rfl⟩ := List.exists_cons_of_ne_nil hne
    refine takeWhile_isSpace_of_head ?_
    rintro _ ⟨rfl⟩
    rcases hnumber.mem_cases b List.mem_cons_self with rfl | rfl | hdigit
    · rfl
    · rfl
    · exact isSpace_eq_false hdigit
  have hbehind : (Hole.optionalText colon format).takeWhile isSpace = [] := by
    refine takeWhile_isSpace_of_head fun b hb => ?_
    rw [eq_colon_of_head? hb]
    rfl
  have hwidth : width (number ++ Hole.optionalText colon format) = number := by
    refine width_append hnumber fun b hb => ?_
    rw [eq_colon_of_head? hb]
    rfl
  simp only [alignmentTokens, hfirst, List.length_nil, List.drop_zero, hwidth, if_neg hne,
    Nat.zero_add, Nat.add_zero, List.drop_left, hbehind, formatTokens_optionalText]
  rfl

variable (named : NamedHole) (start : Nat)

/-- Behind the name there is a comma, a colon, or nothing. -/
theorem eq_of_head?_tail {b : UInt8} (h : named.tail.head? = some b) : b = comma ∨ b = colon :=
  (Hole.head?_optionalText_append h).imp_right eq_colon_of_head?

theorem tailTokens_tail : tailTokens start named.tail = named.tailTokens start := by
  have hfirst : named.tail.takeWhile isSpace = [] := by
    refine takeWhile_isSpace_of_head fun b hb => ?_
    rcases eq_of_head?_tail named hb with rfl | rfl <;> rfl
  simp only [tailTokens, hfirst, List.length_nil, List.drop_zero, Nat.add_zero]
  rw [NamedHole.tailTokens, NamedHole.tail]
  cases halignment : named.alignment with
  | none =>
      rw [← formatTokens_optionalText]
      cases named.format <;> rfl
  | some number =>
      have hnumber := named.isNumber number halignment
      show Token.mark start comma
        :: alignmentTokens (start + 1) (number ++ Hole.optionalText colon named.format) = _
      rw [alignmentTokens_append hnumber, NamedHole.partTokens, if_neg (ne_nil_of_isNumber hnumber),
        Hole.optionalText, List.length_cons, Nat.add_comm number.length, ← Nat.add_assoc]
      rfl

/-- A name is read up to a comma, a colon or the end, none of which opens a call. -/
theorem bodyTokens_append (head : HoleHead) {behind : Bytes}
    (hbehind : ∀ b, behind.head? = some b → b = comma ∨ b = colon) :
    bodyTokens start (head.written ++ behind)
      = Token.ofText head.kind start head.written
        :: tailTokens (start + head.written.length) behind := by
  have hstop (p : UInt8 → Bool) (hcomma : p comma = false) (hcolon : p colon = false) :
      ∀ b, behind.head? = some b → p b = false := by
    intro b hb
    rcases hbehind b hb with rfl | rfl
    · exact hcomma
    · exact hcolon
  cases head with
  | name text h =>
      cases h with
      | @cons b rest hfirst hrest =>
          obtain ⟨htake, hdrop⟩ := Bytes.takeWhile_part hrest (hstop isWord rfl rfl)
          have hcall : ¬ opensCall behind = true := by
            cases behind with
            | nil => decide
            | cons c behind => rcases hbehind c rfl with rfl | rfl <;> exact Bool.false_ne_true
          have hdollar : ¬ (b = dollar ∧ (rest ++ behind).head?.any isWordStart = true) :=
            fun h => ne_of_class hfirst rfl h.1
          rw [HoleHead.written, List.cons_append, bodyTokens, if_neg (ne_of_class hfirst rfl),
            if_neg (ne_of_class hfirst rfl), if_neg hdollar, htake, hdrop, if_pos ⟨hfirst, hcall⟩]
          rfl
  | builtIn letters h =>
      obtain ⟨htake, hdrop⟩ := h.takeWhile_append (fun _ => id) (hstop isLower rfl rfl)
      show (if (letters ++ behind).head?.any isLower = true
        then namedTokens .builtIn start (atSign :: (letters ++ behind).takeWhile isLower)
          ((letters ++ behind).dropWhile isLower)
        else tailTokens (start + 1) (letters ++ behind)) = _
      rw [if_pos (h.any_head?_append behind), htake, hdrop]
      rfl
  | reference word h =>
      obtain ⟨htake, hdrop⟩ :=
        h.takeWhile_append (fun _ => isWord_of_isWordStart) (hstop isWord rfl rfl)
      show (if dollar = dollar ∧ (word ++ behind).head?.any isWordStart = true
        then namedTokens .identifier start (dollar :: (word ++ behind).takeWhile isWord)
          ((word ++ behind).dropWhile isWord)
        else _) = _
      rw [if_pos ⟨rfl, h.any_head?_append behind⟩, htake, hdrop]
      rfl

theorem bodyTokens_inside :
    bodyTokens start named.inside = named.insideTokens start := by
  rw [NamedHole.inside, bodyTokens_append start named.head fun _ => eq_of_head?_tail named,
    tailTokens_tail]
  rfl

/-! ## Holes -/

theorem isPlainInHole_of_class {p : UInt8 → Bool} {b : UInt8} (hb : p b = true)
    (hopen : p openBrace = false) (hclose : p closeBrace = false)
    (hapostrophe : p apostrophe = false) (hquote : p quote = false)
    (hbackslash : p backslash = false) : IsPlainInHole b := by
  have hbrace := isBrace_eq_false_iff.mpr ⟨ne_of_class hb hopen, ne_of_class hb hclose⟩
  exact ⟨hbrace, isQuote_eq_false hb hapostrophe hquote, ne_of_class hb hbackslash⟩

theorem isPlain_of_mem_written {head : HoleHead} {b : UInt8} (h : b ∈ head.written) :
    IsPlainInHole b := by
  have hword {text : Bytes} (hrun : ∀ c ∈ text, isWord c = true) (hmem : b ∈ text) :
      IsPlainInHole b :=
    isPlainInHole_of_class (hrun b hmem) rfl rfl rfl rfl rfl
  cases head with
  | name text hrun => exact hword (hrun.of_mem fun _ => id) h
  | builtIn letters hrun =>
      rcases List.mem_cons.mp h with rfl | hmem
      · exact ⟨rfl, rfl, by decide⟩
      · exact isPlainInHole_of_class (hrun.of_mem (fun _ => id) b hmem) rfl rfl rfl rfl rfl
  | reference word hrun =>
      rcases List.mem_cons.mp h with rfl | hmem
      · exact ⟨rfl, rfl, by decide⟩
      · exact hword (hrun.of_mem fun _ => isWord_of_isWordStart) hmem

theorem isPlain_of_mem_tail {b : UInt8} (h : b ∈ named.tail) : IsPlainInHole b := by
  rcases List.mem_append.mp h with h | h
  · rcases Hole.mem_optionalText h with rfl | ⟨number, hpart, hmem⟩
    · exact ⟨rfl, rfl, by decide⟩
    · rcases (named.isNumber number hpart).mem_cases b hmem with rfl | rfl | hdigit
      · exact ⟨rfl, rfl, by decide⟩
      · exact ⟨rfl, rfl, by decide⟩
      · exact isPlainInHole_of_class hdigit rfl rfl rfl rfl rfl
  · rcases Hole.mem_optionalText h with rfl | ⟨format, hpart, hmem⟩
    · exact ⟨rfl, rfl, by decide⟩
    · exact named.isPlain format hpart b hmem

/-- **The search for the end of a hole finds its closing brace**, whatever stands behind it. -/
theorem hole_inside_append (behind : Bytes) :
    hole (named.inside ++ closeBrace :: behind) = ⟨named.inside, true⟩ := by
  have hplain : ∀ b ∈ named.inside, IsPlainInHole b := by
    intro b hb
    rcases List.mem_append.mp hb with hb | hb
    · exact isPlain_of_mem_written hb
    · exact isPlain_of_mem_tail named hb
  have hsingle : ∀ b rest, IsPlainInHole b → moveHole ⟨0, none⟩ b rest = .single ⟨0, none⟩ := by
    rintro b rest ⟨hbrace, hquote, hbackslash⟩
    obtain ⟨hopen, hclose⟩ := Bool.or_eq_false_iff.mp hbrace
    simp [moveHole, hbackslash, hquote, ne_of_beq_false hopen, ne_of_beq_false hclose]
  have hpasses : Enclosed.Passes moveHole ⟨0, none⟩ named.inside ⟨0, none⟩ :=
    Enclosed.passes_of_isUnits hsingle (fun _ _ _ => False.elim) (.of_forall hplain)
  exact hpasses.read_eq rfl

/-- A hole has its tokens, and the template goes on behind it. -/
theorem templateTokensFrom_text_append (before : Option UInt8) (behind : Bytes) :
    templateTokensFrom before start (named.text ++ behind)
      = named.tokens start
        ++ templateTokensFrom (some closeBrace) (start + named.text.length) behind := by
  have htext : named.text ++ behind = openBrace :: (named.inside ++ closeBrace :: behind) := by
    rw [NamedHole.text, List.cons_append, List.append_assoc, List.singleton_append]
  have hstart : isHoleStart openBrace (named.inside ++ closeBrace :: behind) = true := by
    obtain ⟨b, rest, hwritten⟩ := List.exists_cons_of_ne_nil named.head.written_ne_nil
    have hplain : IsPlainInHole b := isPlain_of_mem_written (hwritten ▸ List.mem_cons_self)
    have hb : b ≠ openBrace := ne_of_beq_false (Bool.or_eq_false_iff.mp hplain.1).1
    simp [isHoleStart, NamedHole.inside, hwritten, hb]
  have hdrop : (named.inside ++ closeBrace :: behind).drop (named.inside.length + 1) = behind := by
    rw [List.drop_length_add_append]
    rfl
  have hlength : start + named.text.length = start + 1 + named.inside.length + 1 := by
    simp only [NamedHole.text, List.length_cons, List.length_append, List.length_nil]
    omega
  rw [htext, templateTokensFrom, if_pos hstart]
  simp only [hole_inside_append, bodyTokens_inside, if_true, hdrop, hlength, NamedHole.tokens,
    List.cons_append, List.append_assoc, List.nil_append]

/-! ## Templates -/

theorem templateTokensFrom_flatMap_written (items : List Item) (before : Option UInt8) (start : Nat) :
    templateTokensFrom before start (items.flatMap Item.written) = Item.tokensFrom start items := by
  induction items generalizing before start with
  | nil =>
      rw [List.flatMap_nil, templateTokensFrom]
      rfl
  | cons item items ih =>
      rw [List.flatMap_cons]
      cases item with
      | literal text htext =>
          obtain ⟨last, hlast⟩ := exists_templateTokensFrom_escaped_append htext before start
            (items.flatMap Item.written)
          rw [Item.written, hlast, ih]
          rfl
      | hole named =>
          rw [Item.written, templateTokensFrom_text_append, ih]
          rfl

end Expression

/-- **Reading a composed template gives back its holes**: the tokens of each of them at their offsets, and
    none for the text between them. -/
theorem Mode.tokens_composed (items : List Expression.Item) :
    template.tokens (items.flatMap Expression.Item.written) = Expression.Item.tokensFrom 0 items :=
  Expression.templateTokensFrom_flatMap_written items none 0

/-- A hole with all of its parts, between an apostrophe and literal braces. -/
theorem Mode.tokens_composed_braces :
    ∃ items : List Expression.Item,
      items.flatMap Expression.Item.written
        = Bytes.ofString "it's \x7b\x7b\x7b@t,-5:u3\x7d\x7d\x7d" ∧
      template.tokens (Bytes.ofString "it's \x7b\x7b\x7b@t,-5:u3\x7d\x7d\x7d")
        = [⟨.punctuation, [openBrace], 7, 8⟩, ⟨.builtIn, Bytes.ofString "@t", 8, 10⟩,
          ⟨.punctuation, [comma], 10, 11⟩, ⟨.number, Bytes.ofString "-5", 11, 13⟩,
          ⟨.punctuation, [colon], 13, 14⟩, ⟨.format, Bytes.ofString "u3", 14, 16⟩,
          ⟨.punctuation, [closeBrace], 16, 17⟩] := by
  let named : NamedHole :=
    { head := .builtIn (Bytes.ofString "t") (.cons rfl (List.all_eq_true.mp rfl))
      alignment := some (Bytes.ofString "-5")
      format := some (Bytes.ofString "u3")
      isNumber := by
        rintro _ ⟨rfl⟩
        exact @Hole.IsNumber.signed [minus] [0x35] (.inr (.inr rfl)) (by simp)
          (List.forall_mem_singleton.mpr rfl)
      isPlain := by
        rintro _ ⟨rfl⟩
        exact List.forall_mem_cons.mpr ⟨by decide, List.forall_mem_singleton.mpr (by decide)⟩ }
  have hwritten : [.literal (Bytes.ofString "it's \x7b") (by decide), .hole named,
      .literal [closeBrace] (by decide)].flatMap Expression.Item.written
        = Bytes.ofString "it's \x7b\x7b\x7b@t,-5:u3\x7d\x7d\x7d" := rfl
  refine ⟨_, hwritten, ?_⟩
  rw [← hwritten, Mode.tokens_composed]
  rfl

end LogMarkup
