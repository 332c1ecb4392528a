import LogMarkup.Message.Escape

/-!
# `LogMarkup.Message.Hole` — the holes of a message template

A hole is written `{`, an optional sigil, a name, an optional alignment behind a comma, an optional
format behind a colon, and `}`. The name is a word or a run of digits, the alignment is a number with
an optional sign, and the format is any text without a `}`.

## Contents
- `Sigil` and `Hole`, with `Hole.text`, the way a hole is written.
- `Hole.read?`, the hole at the head of a text. Each part is taken as long as it can be, and this
  loses nothing, since no part may be followed by a character that could continue it.
- `Hole.allFrom`, the holes of a text from left to right.
-/

namespace LogMarkup

open Ascii

/-- The sign in front of a name. -/
inductive Sigil
  /-- `@`: capture the structure of the value. -/
  | destructure
  /-- `$`: capture the text of the value. -/
  | stringify
  /-- `#`: a directive of expression templates. -/
  | directive
deriving Repr, DecidableEq

/-- The character of a sigil. -/
def Sigil.byte : Sigil → UInt8
  | destructure => atSign
  | stringify => dollar
  | directive => hash

/-- The parts of a hole. -/
structure Hole where
  sigil : Option Sigil
  name : Bytes
  /-- The number behind the comma. -/
  alignment : Option Bytes
  /-- The text behind the colon, which may be empty. -/
  format : Option Bytes
deriving Repr, DecidableEq

namespace Hole

/-- An optional part, written behind the character that announces it. -/
def optionalText (announcer : UInt8) : Option Bytes → Bytes
  | none => []
  | some part => announcer :: part

/-- The text of a hole. -/
def text (hole : Hole) : Bytes :=
  openBrace :: ((hole.sigil.map Sigil.byte).toList ++ hole.name
    ++ optionalText comma hole.alignment ++ optionalText colon hole.format ++ [closeBrace])

theorem length_text_pos (hole : Hole) : 0 < hole.text.length := by
  simp [text]

/-! ## Reading -/

/-- The sigil at the head of a text, and what is behind it. -/
def readSigil : Bytes → Option Sigil × Bytes
  | [] => (none, [])
  | b :: rest =>
    if b = atSign then (some .destructure, rest)
    else if b = dollar then (some .stringify, rest)
    else if b = hash then (some .directive, rest)
    else (none, b :: rest)

/-- The name at the head of a text: a word, or a run of digits. -/
def readName? : Bytes → Option (Bytes × Bytes)
  | [] => none
  | b :: rest =>
    if isWordStart b then some (b :: rest.takeWhile isWord, rest.dropWhile isWord)
    else if isDigit b then some (b :: rest.takeWhile isDigit, rest.dropWhile isDigit)
    else none

/-- The sign at the head of a number. -/
def readSign : Bytes → Bytes × Bytes
  | [] => ([], [])
  | b :: rest => if b = plus ∨ b = minus then ([b], rest) else ([], b :: rest)

/-- The alignment at the head of a text. A comma without a number behind it is none. -/
def readAlignment : Bytes → Option Bytes × Bytes
  | [] => (none, [])
  | b :: rest =>
    if b = comma then
      let (sign, behind) := readSign rest
      let digits := behind.takeWhile isDigit
      if digits = [] then (none, b :: rest)
      else (some (sign ++ digits), behind.dropWhile isDigit)
    else (none, b :: rest)

/-- The format at the head of a text. -/
def readFormat : Bytes → Option Bytes × Bytes
  | [] => (none, [])
  | b :: rest =>
    if b = colon then (some (rest.takeWhile (· != closeBrace)), rest.dropWhile (· != closeBrace))
    else (none, b :: rest)

/-- The hole whose `{` stands right before a text. -/
def readInside? (text : Bytes) : Option Hole :=
  let (sigil, rest) := readSigil text
  match readName? rest with
  | none => none
  | some (name, rest) =>
    let (alignment, rest) := readAlignment rest
    let (format, rest) := readFormat rest
    if rest.head? = some closeBrace then some ⟨sigil, name, alignment, format⟩ else none

/-- The hole at the head of a text. -/
def read? : Bytes → Option Hole
  | [] => none
  | b :: rest => if b = openBrace then readInside? rest else none

/-- The holes of a text whose first byte has the offset `start`, each with its offset. The search
    goes on behind a hole, and at the next byte where there is none. -/
def allFrom (start : Nat) (text : Bytes) : List (Nat × Hole) :=
  match text with
  | [] => []
  | b :: rest =>
    match read? (b :: rest) with
    | none => allFrom (start + 1) rest
    | some hole =>
      (start, hole) :: allFrom (start + hole.text.length) (rest.drop (hole.text.length - 1))
termination_by text.length
decreasing_by
  · simp
  · simp only [List.length_drop, List.length_cons]
    omega

end Hole

end LogMarkup
