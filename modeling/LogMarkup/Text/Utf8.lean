import LogMarkup.Text.Ascii

/-!
# `LogMarkup.Text.Utf8` — characters out of bytes

Patterns, the blank test at the head of a line, and quoted output speak of characters, while the rest
of the library speaks of bytes. This module reads the character at the head of a text together with
the number of its bytes, and from that the list of all characters and the test that a file holds text.

## Contents
- **One character.** `Utf8.first?` accepts exactly the shortest encodings of scalar values.
- **All characters.** `Utf8.symbols`, each with its width in bytes; a stray byte reads as U+FFFD.
  `Utf8.widthOf` adds the widths up.
- **Texts of files.** `Utf8.isValid`, and `Bytes.toString` for what is printed.
-/

namespace LogMarkup

/-- A character of a text and the number of bytes that it takes there. -/
structure Symbol where
  char : Char
  width : Nat
deriving Repr, DecidableEq

namespace Utf8

/-- Whether a byte continues a character, that is, whether its two high bits are `10`. -/
def isContinuation (b : UInt8) : Bool := b &&& 0xC0 == 0x80

/-- The value of a sequence whose lead byte gave `value`, with `more` continuation bytes of six bits
    each still to come. -/
def continued? (value : Nat) : Nat → Bytes → Option Nat
  | 0, _ => some value
  | _ + 1, [] => none
  | more + 1, b :: rest =>
    if isContinuation b then continued? (value * 64 + (b &&& 0x3F).toNat) more rest else none

/-- The character of a sequence with `more` continuation bytes, if its value is a scalar value and
    not below `lowest`, the least value that needs that many bytes. -/
def sequence? (lowest lead more : Nat) (rest : Bytes) : Option Symbol :=
  match continued? lead more rest with
  | none => none
  | some value =>
    if lowest ≤ value ∧ value.isValidChar then some ⟨Char.ofNat value, more + 1⟩ else none

/-- The character at the head of a text, if the text starts with a well-formed one. -/
def first? : Bytes → Option Symbol
  | [] => none
  | b :: rest =>
    if b < 0x80 then some ⟨Char.ofNat b.toNat, 1⟩
    else if b < 0xC0 then none
    else if b < 0xE0 then sequence? 0x80 (b &&& 0x1F).toNat 1 rest
    else if b < 0xF0 then sequence? 0x800 (b &&& 0x0F).toNat 2 rest
    else if b < 0xF8 then sequence? 0x10000 (b &&& 0x07).toNat 3 rest
    else none

/-- What a byte that starts no well-formed character reads as. -/
def stray : Symbol := ⟨Char.ofNat 0xFFFD, 1⟩

/-- The characters of a text whose first `skip` bytes belong to a character read before. -/
def symbolsAfter : Nat → Bytes → List Symbol
  | _, [] => []
  | skip + 1, _ :: rest => symbolsAfter skip rest
  | 0, b :: rest =>
    let symbol := (first? (b :: rest)).getD stray
    symbol :: symbolsAfter (symbol.width - 1) rest

/-- The characters of a text with their widths. -/
def symbols (text : Bytes) : List Symbol := symbolsAfter 0 text

/-- The number of bytes that characters take. -/
def widthOf : List Symbol → Nat
  | [] => 0
  | symbol :: symbols => symbol.width + widthOf symbols

/-- Whether the bytes after the first `skip` ones are well-formed characters throughout. -/
def isValidAfter : Nat → Bytes → Bool
  | _, [] => true
  | skip + 1, _ :: rest => isValidAfter skip rest
  | 0, b :: rest =>
    match first? (b :: rest) with
    | none => false
    | some symbol => isValidAfter (symbol.width - 1) rest

/-- Whether the bytes are UTF-8: a sequence of well-formed characters. -/
def isValid (text : Bytes) : Bool := isValidAfter 0 text

end Utf8

/-- The string that a text encodes. -/
def Bytes.toString (text : Bytes) : String := String.ofList ((Utf8.symbols text).map Symbol.char)

end LogMarkup
