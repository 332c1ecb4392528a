import LogMarkup.Expression.Mode
import LogMarkup.Proofs.Expression.Quoted
import LogMarkup.Proofs.Message.Written
import LogMarkup.Proofs.Text.Units

/-!
# `LogMarkup.Proofs.Expression.Printing` — printed lexemes are read back

Lexemes of expressions are printed with one space between two of them. The first byte of a lexeme tells which
reader takes it, and the reader takes as much as it can. A space continues no lexeme, and in quotes it belongs
to the body, which ends at its own closing quote whatever else is in it. So each reader takes just the lexeme
that was printed, and the next one starts behind the space.

Only for a word it matters what is printed behind it. A reserved word is one wherever it stands, and any other
word in front of an opening parenthesis names a function.

## Contents
- **Lexemes.** `Bytes.IsRun` and `Printed`, with the text and the tokens of a list of lexemes.
- **Readers.** One lemma per sort of lexeme for what is read at the head of a text.
- **One lexeme.** `Printed.first_eq`, by cases on the lexeme.
- **Expressions.** `Printed.tokensFrom_text`, by induction over the lexemes, and
  `Mode.tokens_printed` — reading printed lexemes gives one token for each of them, at its offset.
-/

namespace LogMarkup

open Ascii

/-! ## Lexemes -/

/-- A byte of one class, and any number of bytes of another one behind it. -/
inductive Bytes.IsRun (first more : UInt8 → Bool) : Bytes → Prop
  | cons {b : UInt8} {rest : Bytes} :
      first b = true → (∀ c ∈ rest, more c = true) → IsRun first more (b :: rest)

/-- The operators, with their kinds. -/
def printedOperators : List (Bytes × TokenKind) :=
  [("=", .comparison), ("==", .comparison), ("!=", .comparison), ("<", .comparison),
    (">", .comparison), ("<=", .comparison), (">=", .comparison), ("<>", .comparison),
    ("+", .arithmetic), ("-", .arithmetic), ("*", .arithmetic), ("/", .arithmetic),
    ("%", .arithmetic), ("!", .unknown)].map fun (text, kind) => (Bytes.ofString text, kind)

/-- The punctuation. -/
def printedMarks : Bytes := Bytes.ofString "()[]\x7b\x7d,.:?"

/-- A lexeme of an expression, in a form in which it can be printed. -/
inductive Printed
  | word (text : Bytes) (isRun : Bytes.IsRun isWordStart isWord text)
  | number (text : Bytes) (isRun : Bytes.IsRun isDigit (fun b => isDigit b || b == dot) text)
  /-- Quoted text, in quotes of either sort. -/
  | quoted (closer : UInt8) (body : Bytes) (isQuote_closer : isQuote closer = true)
      (isQuotable : IsQuotable closer body)
  /-- An `@` with small letters behind it. -/
  | builtIn (letters : Bytes) (isRun : Bytes.IsRun isLower isLower letters)
  /-- A `$` with a word behind it. -/
  | reference (name : Bytes) (isRun : Bytes.IsRun isWordStart isWord name)
  | operator (text : Bytes) (kind : TokenKind) (mem_operators : (text, kind) ∈ printedOperators)
  | mark (b : UInt8) (mem_marks : b ∈ printedMarks)

namespace Printed

/-- Whether the lexeme opens the arguments of a call. -/
def opens : Printed → Bool
  | mark b _ => b == openParen
  | _ => false

/-- The lexeme as it is printed. -/
def written : Printed → Bytes
  | word text _ | number text _ | operator text _ _ => text
  | quoted closer body _ _ => closer :: (body ++ [closer])
  | builtIn letters _ => atSign :: letters
  | reference name _ => dollar :: name
  | mark b _ => [b]

/-- The kind of the lexeme in front of the lexeme `next`. -/
def kind (next : Option Printed) : Printed → TokenKind
  | word text _ =>
    if isKeyword text then .logical
    else if next.any opens then .function
    else .identifier
  | number _ _ => .number
  | quoted _ _ _ _ => .string
  | builtIn _ _ => .builtIn
  | reference _ _ => .identifier
  | operator _ kind _ => kind
  | mark _ _ => .punctuation

/-- What the lexeme stands for: quoted text stands for what is in the quotes. -/
def value : Printed → Bytes
  | quoted _ body _ _ => body
  | lexeme => lexeme.written

/-- The token of the lexeme at an offset. -/
def token (start : Nat) (next : Option Printed) (lexeme : Printed) : Token where
  kind := lexeme.kind next
  value := lexeme.value
  start := start
  stop := start + lexeme.written.length

/-- Lexemes with one space between two of them. -/
def text (lexemes : List Printed) : Bytes := [space].intercalate (lexemes.map written)

/-- One token for each lexeme, the first of which has the offset `start`. -/
def tokensFrom (start : Nat) : List Printed → List Token
  | [] => []
  | lexeme :: rest =>
    lexeme.token start rest.head? :: tokensFrom (start + lexeme.written.length + 1) rest

end Printed

/-! ## Readers -/

/-- A byte of a class is none of those that the class does not have. -/
theorem Ascii.ne_of_class {p : UInt8 → Bool} {b c : UInt8} (hb : p b = true) (hc : p c = false) :
    b ≠ c := by
  rintro rfl
  exact Bool.false_ne_true (hc.symm.trans hb)

theorem isQuote_eq_false {p : UInt8 → Bool} {b : UInt8} (hb : p b = true)
    (hapostrophe : p apostrophe = false) (hquote : p quote = false) : isQuote b = false := by
  simp [isQuote, ne_of_class hb hapostrophe, ne_of_class hb hquote]

theorem Ascii.isWord_of_isWordStart {b : UInt8} (h : isWordStart b = true) : isWord b = true := by
  rw [isWord, h, Bool.true_or]

namespace Bytes.IsRun

variable {first more : UInt8 → Bool} {text : Bytes}

theorem ne_nil (h : IsRun first more text) : text ≠ [] := by
  cases h
  simp

theorem any_head?_append (h : IsRun first more text) (behind : Bytes) :
    (text ++ behind).head?.any first = true := by
  cases h with
  | cons hfirst _ => exact hfirst

theorem of_mem (h : IsRun first more text) (hsub : ∀ b, first b = true → more b = true) :
    ∀ b ∈ text, more b = true := by
  cases h with
  | cons hfirst hmore => exact List.forall_mem_cons.mpr ⟨hsub _ hfirst, hmore⟩

/-- A class takes all of a run, and stops at what is behind it. -/
theorem takeWhile_append (h : IsRun first more text) (hsub : ∀ b, first b = true → more b = true)
    {behind : Bytes} (hbehind : ∀ b, behind.head? = some b → more b = false) :
    (text ++ behind).takeWhile more = text ∧ (text ++ behind).dropWhile more = behind :=
  takeWhile_part (h.of_mem hsub) hbehind

end Bytes.IsRun

/-- A walk over quoted text passes over what quotes of its sort can enclose. -/
theorem passes_moveQuoted {closer : UInt8} {body : Bytes} (hcloser : isQuote closer = true)
    (hbody : IsQuotable closer body) : Enclosed.Passes (moveQuoted closer) () body () := by
  refine Enclosed.passes_of_isUnits ?_ ?_ hbody.isUnits
  · rintro b rest ⟨hne, hbackslash⟩
    rw [moveQuoted, if_neg hne, if_neg hbackslash]
  · rintro b c rest ⟨rfl, -⟩
    rw [moveQuoted, if_neg (ne_backslash_of_isQuote hcloser).symm, if_pos rfl]

theorem mem_printedMarks_cases {b : UInt8} (h : b ∈ printedMarks) :
    b = openParen ∨ b = closeParen ∨ b = openBracket ∨ b = closeBracket ∨ b = openBrace ∨
      b = closeBrace ∨ b = comma ∨ b = dot ∨ b = colon ∨ b = question := by
  have hmarks : printedMarks = [openParen, closeParen, openBracket, closeBracket, openBrace,
    closeBrace, comma, dot, colon, question] := rfl
  rw [hmarks] at h
  simpa only [List.mem_cons, List.not_mem_nil, or_false] using h

namespace Lexeme

variable {b : UInt8}

theorem first_of_isQuote (h : isQuote b = true) (rest : Bytes) :
    first b rest = quoted (Enclosed.read (moveQuoted b) () rest) := by
  rcases Bool.or_eq_true_iff.mp h with h | h
  · rw [eq_of_beq h]
    rfl
  · rw [eq_of_beq h]
    rfl

theorem first_of_isDigit (h : isDigit b = true) (rest : Bytes) :
    first b rest = shown .number (b :: rest.takeWhile fun c => isDigit c || c == dot) := by
  have hquote : ¬ isQuote b = true := by simp [isQuote_eq_false h rfl rfl]
  rw [first, if_neg (ne_of_class h rfl), if_neg hquote, if_pos h]

theorem first_of_isWordStart (h : isWordStart b = true) (rest : Bytes) :
    first b rest = word (b :: rest.takeWhile isWord) (rest.dropWhile isWord) := by
  have hquote : ¬ isQuote b = true := by simp [isQuote_eq_false h rfl rfl]
  have hdigit : ¬ isDigit b = true := by
    intro hdigit
    exact absurd (Hole.isWordStart_eq_false hdigit) (by simp [h])
  rw [first, if_neg (ne_of_class h rfl), if_neg hquote, if_neg hdigit, if_pos h]

theorem first_dollar {rest : Bytes} (h : rest.head?.any isWordStart = true) :
    first dollar rest = shown .identifier (dollar :: rest.takeWhile isWord) := by
  show (if dollar = dollar ∧ rest.head?.any isWordStart = true
    then shown .identifier (dollar :: rest.takeWhile isWord) else _) = _
  exact if_pos ⟨rfl, h⟩

/-- A space does not continue an operator. -/
theorem first_of_mem_operators {rest behind : Bytes} {kind : TokenKind}
    (h : (b :: rest, kind) ∈ printedOperators)
    (hbehind : ∀ c, behind.head? = some c → c = space) :
    first b (rest ++ behind) = shown kind (b :: rest) := by
  simp only [printedOperators, List.map_cons, List.map_nil, List.mem_cons, Prod.mk.injEq,
    List.not_mem_nil, or_false] at h
  rcases h with h | h | h | h | h | h | h | h | h | h | h | h | h | h
  all_goals
    obtain ⟨htext, rfl⟩ := h
    cases htext
    cases behind with
    | nil => rfl
    | cons c behind =>
        obtain rfl := hbehind c rfl
        rfl

theorem first_of_mem_marks (h : b ∈ printedMarks) (rest : Bytes) :
    first b rest = shown .punctuation [b] := by
  rcases mem_printedMarks_cases h with rfl | rfl | rfl | rfl | rfl | rfl | rfl | rfl | rfl | rfl
  all_goals rfl

end Lexeme

/-! ## One lexeme -/

namespace Printed

/-- The lexeme that is read where this one is printed in front of the lexeme `next`. -/
def lexeme (next : Option Printed) : Printed → Lexeme
  | quoted _ body _ _ => .quoted ⟨body, true⟩
  | printed => .shown (printed.kind next) printed.written

variable (printed : Printed) (next : Option Printed)

theorem width_lexeme : (printed.lexeme next).width = printed.written.length := by
  cases printed with
  | quoted closer body _ _ => simp [lexeme, written, Lexeme.width]
  | _ => rfl

theorem token?_lexeme (start : Nat) :
    (printed.lexeme next).token? start = some (printed.token start next) := by
  cases printed with
  | quoted closer body _ _ => simp [lexeme, token, kind, value, written, Lexeme.token?, Lexeme.width]
  | _ => rfl

/-- A call is opened by a parenthesis, and nothing else that is printed starts with one, or with what may stand
    in front of it. -/
theorem exists_written_eq_cons :
    ∃ b rest, printed.written = b :: rest ∧ isSpaceOrTab b = false ∧
      (b == openParen) = printed.opens := by
  have hother (p : UInt8 → Bool) (hspace : p space = false) (htab : p tab = false)
      (hparen : p openParen = false) {b : UInt8} (hb : p b = true) :
      isSpaceOrTab b = false ∧ (b == openParen) = false := by
    simp [isSpaceOrTab, ne_of_class hb hspace, ne_of_class hb htab, ne_of_class hb hparen]
  cases printed with
  | word text h =>
      cases h with
      | cons hfirst _ => exact ⟨_, _, rfl, hother isWordStart rfl rfl rfl hfirst⟩
  | number text h =>
      cases h with
      | cons hfirst _ => exact ⟨_, _, rfl, hother isDigit rfl rfl rfl hfirst⟩
  | quoted closer body hquote _ =>
      exact ⟨_, _, rfl, hother isQuote rfl rfl rfl hquote⟩
  | builtIn letters _ => exact ⟨_, _, rfl, rfl, rfl⟩
  | reference name _ => exact ⟨_, _, rfl, rfl, rfl⟩
  | operator text kind h =>
      have htable : ∀ entry ∈ printedOperators, entry.1.head?.any
          (fun b => !isSpaceOrTab b && b != openParen) = true := by decide
      have hhead := htable _ h
      cases text with
      | nil => exact absurd hhead (by simp)
      | cons b rest => exact ⟨b, rest, rfl, by simpa [written, opens] using hhead⟩
  | mark b h =>
      refine ⟨b, [], rfl, ?_, rfl⟩
      rcases mem_printedMarks_cases h with rfl | rfl | rfl | rfl | rfl | rfl | rfl | rfl | rfl | rfl
      all_goals rfl

/-- What is read where a lexeme is printed. -/
theorem first_eq {b : UInt8} {rest behind : Bytes} (hwritten : printed.written = b :: rest)
    (hbehind : ∀ c, behind.head? = some c → c = space)
    (hcall : opensCall behind = next.any opens) :
    Lexeme.first b (rest ++ behind) = printed.lexeme next := by
  have hstop (p : UInt8 → Bool) (hp : p space = false) : ∀ c, behind.head? = some c → p c = false := by
    intro c hc
    rwa [hbehind c hc]
  cases printed with
  | word text h =>
      cases h with
      | cons hfirst hmore =>
          obtain ⟨rfl, rfl⟩ := List.cons.inj hwritten
          obtain ⟨htake, hdrop⟩ := Bytes.takeWhile_part hmore (hstop isWord rfl)
          rw [Lexeme.first_of_isWordStart hfirst, htake, hdrop, Lexeme.word, hcall]
          simp only [lexeme, kind, written]
          split
          · rfl
          · split <;> rfl
  | number text h =>
      cases h with
      | cons hfirst hmore =>
          obtain ⟨rfl, rfl⟩ := List.cons.inj hwritten
          obtain ⟨htake, -⟩ := Bytes.takeWhile_part hmore (hstop _ rfl)
          rw [Lexeme.first_of_isDigit hfirst, htake]
          rfl
  | quoted closer body hquote hbody =>
      obtain ⟨rfl, rfl⟩ := List.cons.inj hwritten
      rw [Lexeme.first_of_isQuote hquote, List.append_assoc]
      exact congrArg Lexeme.quoted ((passes_moveQuoted hquote hbody).read_eq (if_pos rfl))
  | builtIn letters h =>
      obtain ⟨rfl, rfl⟩ := List.cons.inj hwritten
      obtain ⟨htake, -⟩ := h.takeWhile_append (fun _ => id) (hstop isLower rfl)
      show Lexeme.builtIn (letters ++ behind) = _
      rw [Lexeme.builtIn, htake]
      exact if_neg h.ne_nil
  | reference name h =>
      obtain ⟨rfl, rfl⟩ := List.cons.inj hwritten
      obtain ⟨htake, -⟩ := h.takeWhile_append (fun _ => isWord_of_isWordStart)
        (hstop isWord rfl)
      rw [Lexeme.first_dollar (h.any_head?_append behind), htake]
      rfl
  | operator text kind h =>
      obtain rfl : text = b :: rest := hwritten
      exact Lexeme.first_of_mem_operators h hbehind
  | mark c h =>
      obtain ⟨rfl, rfl⟩ := List.cons.inj hwritten
      exact Lexeme.first_of_mem_marks h behind

/-- A printed lexeme is read as its token, and the next one is read behind it. -/
theorem tokensFrom_written_append {behind : Bytes} (hbehind : ∀ c, behind.head? = some c → c = space)
    (hcall : opensCall behind = next.any opens) (start : Nat) :
    Expression.tokensFrom start (printed.written ++ behind)
      = printed.token start next
        :: Expression.tokensFrom (start + printed.written.length) behind := by
  obtain ⟨b, rest, hwritten, -⟩ := printed.exists_written_eq_cons
  have hdrop : (rest ++ behind).drop (printed.written.length - 1) = behind := by
    rw [hwritten, List.length_cons, Nat.add_sub_cancel, List.drop_left]
  have htext : printed.written ++ behind = b :: (rest ++ behind) := by
    rw [hwritten, List.cons_append]
  rw [htext, Expression.tokensFrom]
  simp only [first_eq printed next hwritten hbehind hcall, width_lexeme, token?_lexeme, hdrop]
  rfl

/-! ## Expressions -/

/-- What is printed behind a lexeme, with the space. -/
def behind : List Printed → Bytes
  | [] => []
  | lexemes@(_ :: _) => space :: text lexemes

theorem text_cons (lexemes : List Printed) :
    text (printed :: lexemes) = printed.written ++ behind lexemes := by
  cases lexemes with
  | nil => exact (List.intercalate_singleton).trans (List.append_nil _).symm
  | cons other lexemes =>
      rw [text, List.map_cons, List.map_cons, List.intercalate_cons_cons, List.append_assoc]
      rfl

theorem eq_space_of_head?_behind {lexemes : List Printed} {c : UInt8}
    (h : (behind lexemes).head? = some c) : c = space := by
  cases lexemes with
  | nil => exact absurd h (by simp [behind])
  | cons other lexemes => exact (Option.some.inj h).symm

/-- A call opens behind a lexeme if the next lexeme opens one. -/
theorem opensCall_behind (lexemes : List Printed) :
    opensCall (behind lexemes) = lexemes.head?.any opens := by
  cases lexemes with
  | nil => rfl
  | cons other lexemes =>
      obtain ⟨b, rest, hwritten, hblank, hopens⟩ := other.exists_written_eq_cons
      have hspace : isSpaceOrTab space = true := rfl
      rw [behind, text_cons, hwritten, opensCall, List.dropWhile_cons_of_pos hspace, List.cons_append,
        List.dropWhile_cons_of_neg (by simp [hblank])]
      exact hopens

/-- The space in front of a lexeme is skipped. -/
theorem tokensFrom_behind (start : Nat) (lexemes : List Printed) :
    Expression.tokensFrom start (behind lexemes)
      = Expression.tokensFrom (start + 1) (text lexemes) := by
  cases lexemes with
  | nil => rw [behind, text, List.map_nil, List.intercalate_nil, Expression.tokensFrom,
      Expression.tokensFrom]
  | cons other lexemes =>
      have hskip : Lexeme.first space (text (other :: lexemes)) = .skip 0 := rfl
      rw [behind, Expression.tokensFrom, hskip]
      rfl

/-- **Printed lexemes are read back**, one by one. -/
theorem tokensFrom_text (start : Nat) (lexemes : List Printed) :
    Expression.tokensFrom start (text lexemes) = tokensFrom start lexemes := by
  induction lexemes generalizing start with
  | nil =>
      rw [text, List.map_nil, List.intercalate_nil, Expression.tokensFrom]
      rfl
  | cons printed lexemes ih =>
      rw [text_cons, tokensFrom_written_append printed lexemes.head?
        (fun _ => eq_space_of_head?_behind) (opensCall_behind lexemes), tokensFrom_behind, ih]
      rfl

end Printed

/-- **Reading printed lexemes gives back what was printed**: one token for each lexeme, in order and at its
    offset, with its kind and its value. -/
theorem Mode.tokens_printed (lexemes : List Printed) :
    expression.tokens (Printed.text lexemes) = Printed.tokensFrom 0 lexemes :=
  Printed.tokensFrom_text 0 lexemes

/-- A reserved word, a call, and quoted text with a parenthesis in it. -/
theorem Mode.tokens_printed_call :
    ∃ lexemes : List Printed,
      Printed.text lexemes = Bytes.ofString "Not f ( 'é(' )" ∧
      expression.tokens (Bytes.ofString "Not f ( 'é(' )")
        = [⟨.logical, Bytes.ofString "Not", 0, 3⟩, ⟨.function, Bytes.ofString "f", 4, 5⟩,
          ⟨.punctuation, Bytes.ofString "(", 6, 7⟩, ⟨.string, Bytes.ofString "é(", 8, 13⟩,
          ⟨.punctuation, Bytes.ofString ")", 14, 15⟩] := by
  have hnot : Bytes.IsRun isWordStart isWord (Bytes.ofString "Not") :=
    .cons rfl (List.all_eq_true.mp rfl)
  have hf : Bytes.IsRun isWordStart isWord (Bytes.ofString "f") :=
    .cons rfl (List.all_eq_true.mp rfl)
  have hbody : IsQuotable apostrophe (Bytes.ofString "é(") :=
    .single (by decide) (.single (by decide) (.single (by decide) .nil))
  have htext : Printed.text [.word _ hnot, .word _ hf, .mark openParen (by decide),
      .quoted apostrophe _ rfl hbody, .mark closeParen (by decide)]
        = Bytes.ofString "Not f ( 'é(' )" := rfl
  refine ⟨_, htext, ?_⟩
  rw [← htext, Mode.tokens_printed]
  rfl

end LogMarkup
