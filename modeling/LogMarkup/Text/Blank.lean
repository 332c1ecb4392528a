import LogMarkup.Text.Utf8

/-!
# `LogMarkup.Text.Blank` — Unicode white space and the indentation of a line

White space here is the Unicode property `White_Space`. It is wider than the ASCII white space of
`Ascii.isSpace`: it has the vertical tab, the no-break spaces and the ideographic space. It does not
have the zero-width space or the byte-order mark.

## Contents
- `isBlank`, the property.
- `Bytes.indentation`, the width of the blanks at the head of a line, and `Bytes.unindented`.
-/

namespace LogMarkup

/-- The Unicode property `White_Space`. -/
def isBlank (c : Char) : Bool :=
  let n := c.toNat
  (0x09 ≤ n && n ≤ 0x0D) || n == 0x20 || n == 0x85 || n == 0xA0 || n == 0x1680
    || (0x2000 ≤ n && n ≤ 0x200A) || n == 0x2028 || n == 0x2029 || n == 0x202F || n == 0x205F
    || n == 0x3000

/-- The number of bytes that the blank characters at the head of a line take. -/
def Bytes.indentation (line : Bytes) : Nat :=
  Utf8.widthOf ((Utf8.symbols line).takeWhile (isBlank ·.char))

/-- A line without the blank characters at its head. -/
def Bytes.unindented (line : Bytes) : Bytes := line.drop line.indentation

end LogMarkup
