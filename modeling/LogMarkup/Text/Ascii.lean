/-!
# `LogMarkup.Text.Ascii` — texts as bytes, and the characters that carry meaning

Every offset, column and length of this library counts bytes of UTF-8, so a text is the list of its
bytes. All characters that the grammars give a meaning to are ASCII, and an ASCII byte never occurs
inside the encoding of another character: the scanners therefore look at one byte at a time.

## Contents
- **Texts.** `Bytes`, and `Bytes.ofString` for the words that a grammar reserves.
- **Named characters.** One constant per character with a meaning.
- **Classes.** White space, digits, letters, and the characters of a word.
-/

namespace LogMarkup

/-- A text, as the list of its UTF-8 bytes. -/
abbrev Bytes := List UInt8

/-- The UTF-8 bytes of a string. -/
def Bytes.ofString (s : String) : Bytes := s.toUTF8.data.toList

/-- The number of bytes equal to `b` at the head of a text. -/
def Bytes.run (b : UInt8) (text : Bytes) : Nat := (text.takeWhile (· == b)).length

namespace Ascii

/-! ## Named characters -/

abbrev tab : UInt8 := 0x09
abbrev lineFeed : UInt8 := 0x0A
abbrev formFeed : UInt8 := 0x0C
abbrev carriageReturn : UInt8 := 0x0D
abbrev space : UInt8 := 0x20
abbrev exclamation : UInt8 := 0x21
abbrev quote : UInt8 := 0x22
abbrev hash : UInt8 := 0x23
abbrev dollar : UInt8 := 0x24
abbrev percent : UInt8 := 0x25
abbrev apostrophe : UInt8 := 0x27
abbrev openParen : UInt8 := 0x28
abbrev closeParen : UInt8 := 0x29
abbrev asterisk : UInt8 := 0x2A
abbrev plus : UInt8 := 0x2B
abbrev comma : UInt8 := 0x2C
abbrev minus : UInt8 := 0x2D
abbrev dot : UInt8 := 0x2E
abbrev slash : UInt8 := 0x2F
abbrev colon : UInt8 := 0x3A
abbrev semicolon : UInt8 := 0x3B
abbrev less : UInt8 := 0x3C
abbrev equals : UInt8 := 0x3D
abbrev greater : UInt8 := 0x3E
abbrev question : UInt8 := 0x3F
abbrev atSign : UInt8 := 0x40
abbrev openBracket : UInt8 := 0x5B
abbrev backslash : UInt8 := 0x5C
abbrev closeBracket : UInt8 := 0x5D
abbrev underscore : UInt8 := 0x5F
abbrev openBrace : UInt8 := 0x7B
abbrev closeBrace : UInt8 := 0x7D

/-! ## Classes -/

/-- Space, tab, line feed, form feed and carriage return; the vertical tab is not among them. -/
def isSpace (b : UInt8) : Bool :=
  b == space || b == tab || b == lineFeed || b == formFeed || b == carriageReturn

/-- A space or a tab: the white space that stays on a line and is not invisible at its end. -/
def isSpaceOrTab (b : UInt8) : Bool := b == space || b == tab

/-- A decimal digit. -/
def isDigit (b : UInt8) : Bool := 0x30 ≤ b && b ≤ 0x39

/-- A capital letter. -/
def isUpper (b : UInt8) : Bool := 0x41 ≤ b && b ≤ 0x5A

/-- A small letter. -/
def isLower (b : UInt8) : Bool := 0x61 ≤ b && b ≤ 0x7A

/-- A letter of either case. -/
def isLetter (b : UInt8) : Bool := isUpper b || isLower b

/-- A character that a word may start with: a letter or an underscore. -/
def isWordStart (b : UInt8) : Bool := isLetter b || b == underscore

/-- A character that a word may go on with: a letter, a digit or an underscore. -/
def isWord (b : UInt8) : Bool := isWordStart b || isDigit b

/-- One of the two braces. -/
def isBrace (b : UInt8) : Bool := b == openBrace || b == closeBrace

theorem isBrace_iff {b : UInt8} : isBrace b = true ↔ b = openBrace ∨ b = closeBrace := by
  simp [isBrace]

theorem isBrace_eq_false_iff {b : UInt8} : isBrace b = false ↔ b ≠ openBrace ∧ b ≠ closeBrace := by
  simp [isBrace]

/-- The small letter for a capital one, and any other byte itself. -/
def toLower (b : UInt8) : UInt8 := if isUpper b then b + 0x20 else b

end Ascii

end LogMarkup
