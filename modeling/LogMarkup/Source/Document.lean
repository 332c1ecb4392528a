import LogMarkup.Text.Utf8

/-!
# `LogMarkup.Source.Document` — documents as lists of lines

## Contents
- `Document`, with `Document.line`; a line that the document does not have reads as empty.
- `Document.ofText`: a line feed ends a line, and one carriage return in front of it goes with it.
- `ReadFailure` and `Document.ofFile`, for the contents of files, which may not be text at all.
-/

namespace LogMarkup

open Ascii

/-- The lines of a document, without what ends them. -/
structure Document where
  lines : List Bytes
deriving Repr, DecidableEq

namespace Document

/-- The number of lines. -/
def lineCount (document : Document) : Nat := document.lines.length

/-- The text of a line. -/
def line (document : Document) (n : Nat) : Bytes := document.lines[n]?.getD []

/-! ## Splitting a text -/

/-- The lines of a text, the first of which starts with the bytes in `before`, the last one first. -/
def splitFrom (before : Bytes) : Bytes → List Bytes
  | [] => [before.reverse]
  | b :: rest =>
    if b = lineFeed then before.reverse :: splitFrom [] rest else splitFrom (b :: before) rest

/-- A line without the carriage return at its end, if there is one. -/
def withoutReturn (line : Bytes) : Bytes :=
  if line.getLast? = some carriageReturn then line.dropLast else line

/-- The document that a text holds. It has at least one line. -/
def ofText (text : Bytes) : Document := ⟨(splitFrom [] text).map withoutReturn⟩

end Document

/-! ## Files -/

/-- Why a file gave no document. -/
inductive ReadFailure
  | missing
  | directory
  | notText
  /-- Any other failure, in the words of the system. -/
  | other (reason : String)
deriving Repr, DecidableEq

/-- The reason in words. -/
def ReadFailure.reason : ReadFailure → String
  | missing => "No such file or directory (os error 2)"
  | directory => "Is a directory (os error 21)"
  | notText => "stream did not contain valid UTF-8"
  | other reason => reason

/-- The message about a file that could not be read. -/
def ReadFailure.message (path : String) (failure : ReadFailure) : String :=
  path ++ ": " ++ failure.reason

/-- The document in a file with the given bytes. -/
def Document.ofFile (bytes : Bytes) : Except ReadFailure Document :=
  if Utf8.isValid bytes then .ok (ofText bytes) else .error .notText

end LogMarkup
