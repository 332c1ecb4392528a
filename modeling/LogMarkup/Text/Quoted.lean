import LogMarkup.Text.Printable

/-!
# `LogMarkup.Text.Quoted` — a string between quotes, on one line

A quoted string shows its text between double quotes. Quotes and backslashes get a backslash, four
controls have names, and every other hidden character is written as `\u{…}` with its code point in
small hexadecimal digits. An apostrophe is not escaped.

## Contents
- `Quoted.hexDigits` and `Quoted.escape`, the written form of one character.
- `Quoted.write`, that of a string.
-/

namespace LogMarkup.Quoted

/-- A number in small hexadecimal digits, without leading zeros. -/
def hexDigits (n : Nat) : List Char := Nat.toDigits 16 n

/-- The written form of one character. -/
def escape (c : Char) : List Char :=
  if c = '"' then ['\\', '"']
  else if c = '\\' then ['\\', '\\']
  else if c = '\n' then ['\\', 'n']
  else if c = '\r' then ['\\', 'r']
  else if c = '\t' then ['\\', 't']
  else if c.toNat = 0 then ['\\', '0']
  else if isPrintable c then [c]
  else ['\\', 'u', Char.ofNat 0x7B] ++ hexDigits c.toNat ++ [Char.ofNat 0x7D]

/-- The written form of a string. -/
def write (s : String) : String := String.ofList ('"' :: (s.toList.flatMap escape ++ ['"']))

end LogMarkup.Quoted
