import LogMarkup.Expression.Token
import LogMarkup.Text.Enclosed

/-!
# `LogMarkup.Expression.Lexeme` — expressions, one lexeme at a time

In an expression every name, literal and operator counts. What has no meaning there is skipped, so
that every text is read to its end.

## Contents
- **Words.** The reserved words, in any case, and the look-ahead for a call.
- **Quoted text.** `moveQuoted`: a backslash takes the byte behind it along.
- **One lexeme.** `Lexeme`, with its width and its token, and `Lexeme.first`.
- **All tokens.** `Expression.tokensFrom`.
-/

namespace LogMarkup

open Ascii

/-! ## Words -/

/-- The reserved words. -/
def keywords : List Bytes :=
  ["and", "or", "not", "in", "like", "is", "null", "if", "then", "else"].map Bytes.ofString

/-- Whether a word is reserved, in capital or small letters. -/
def isKeyword (word : Bytes) : Bool := keywords.contains (word.map toLower)

/-- Whether the next thing on the line is an opening parenthesis. -/
def opensCall (behind : Bytes) : Bool := (behind.dropWhile isSpaceOrTab).head? == some openParen

/-! ## Quoted text -/

/-- A byte that opens and closes quoted text. -/
def isQuote (b : UInt8) : Bool := b == apostrophe || b == quote

/-- The walk over quoted text, up to the quote `closer`. -/
def moveQuoted (closer : UInt8) (_ : Unit) (b : UInt8) (_ : Bytes) : Move Unit :=
  if b = closer then .close
  else if b = backslash then .pair ()
  else .single ()

/-! ## One lexeme -/

/-- What stands at the head of an expression. -/
inductive Lexeme
  /-- Text without a meaning: one byte and `more` behind it. -/
  | skip (more : Nat)
  /-- A token that shows its text. -/
  | shown (kind : TokenKind) (text : Bytes)
  /-- Quoted text, which may lack its closing quote. -/
  | quoted (enclosed : Enclosed)
deriving Repr, DecidableEq

namespace Lexeme

/-- The number of bytes that a lexeme takes. -/
def width : Lexeme → Nat
  | skip more => more + 1
  | shown _ text => text.length
  | quoted enclosed => enclosed.content.length + if enclosed.closed then 2 else 1

/-- The token of a lexeme at an offset. -/
def token? (start : Nat) : Lexeme → Option Token
  | skip _ => none
  | shown kind text => some (Token.ofText kind start text)
  | lexeme@(quoted enclosed) =>
    some ⟨.string, enclosed.content, start, start + lexeme.width⟩

/-- A word, with what is behind it. -/
def word (text behind : Bytes) : Lexeme :=
  if isKeyword text then shown .logical text
  else if opensCall behind then shown .function text
  else shown .identifier text

/-- An `@` and the small letters behind it; an `@` without any is skipped. -/
def builtIn (rest : Bytes) : Lexeme :=
  let letters := rest.takeWhile isLower
  if letters = [] then skip 0 else shown .builtIn (atSign :: letters)

/-- Operators of two bytes. -/
def isOperatorPair (first second : UInt8) : Bool :=
  (second == equals
      && (first == equals || first == exclamation || first == less || first == greater))
    || (first == less && second == greater)

/-- Bytes that operators start with. -/
def isOperator (b : UInt8) : Bool :=
  b == equals || b == exclamation || b == less || b == greater
    || b == plus || b == minus || b == asterisk || b == slash || b == percent

/-- The kind of an operator of one byte. -/
def operatorKind (b : UInt8) : TokenKind :=
  if b = equals ∨ b = less ∨ b = greater then .comparison
  else if b = exclamation then .unknown
  else .arithmetic

/-- The operator that starts with a byte, as long as it can be. -/
def operator (b : UInt8) : Bytes → Lexeme
  | [] => shown (operatorKind b) [b]
  | c :: _ =>
    if isOperatorPair b c then shown .comparison [b, c] else shown (operatorKind b) [b]

/-- Bytes that are punctuation wherever they stand. -/
def isPunctuation (b : UInt8) : Bool :=
  b == openParen || b == closeParen || b == openBracket || b == closeBracket || isBrace b
    || b == comma || b == dot || b == colon || b == question

/-- The lexeme that starts with the byte `b` and goes on in `rest`. -/
def first (b : UInt8) (rest : Bytes) : Lexeme :=
  if b = backslash then skip 1
  else if isQuote b then quoted (Enclosed.read (moveQuoted b) () rest)
  else if isDigit b then shown .number (b :: rest.takeWhile fun c => isDigit c || c == dot)
  else if isWordStart b then word (b :: rest.takeWhile isWord) (rest.dropWhile isWord)
  else if b = atSign then builtIn rest
  else if b = dollar ∧ rest.head?.any isWordStart then
    shown .identifier (b :: rest.takeWhile isWord)
  else if isOperator b then operator b rest
  else if isPunctuation b then shown .punctuation [b]
  else skip 0

end Lexeme

/-! ## All tokens -/

/-- The tokens of an expression whose first byte has the offset `start`. -/
def Expression.tokensFrom (start : Nat) (text : Bytes) : List Token :=
  match text with
  | [] => []
  | b :: rest =>
    let lexeme := Lexeme.first b rest
    (lexeme.token? start).toList
      ++ tokensFrom (start + lexeme.width) (rest.drop (lexeme.width - 1))
termination_by text.length
decreasing_by
  simp only [List.length_drop, List.length_cons]
  omega

end LogMarkup
