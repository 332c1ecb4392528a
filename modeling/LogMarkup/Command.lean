import LogMarkup.BracePair
import LogMarkup.Highlight
import LogMarkup.Text.Quoted

/-!
# `LogMarkup.Command` — the command line

Five commands show what the library finds: the templates and the calls of files, the pair of braces
at a position, the properties of a message template and the regions of an expression. Lines and
columns are counted from one here.

What a command prints depends on its arguments and on the files that it names, and on nothing else.

## Contents
- **Arguments.** `Command`, `CommandError` and `Command.ofArgs`.
- **Text.** How positions, templates, calls and properties are printed.
- **Answers.** `Outcome`, and `Command.answer`, where files are given by a function of their path.
-/

namespace LogMarkup

/-! ## Arguments -/

/-- The commands with their arguments. -/
inductive Command
  | highlight (paths : List String)
  | calls (paths : List String)
  /-- The pair of braces at a line and a column, both counted from one. -/
  | braces (path : String) (line column : Nat)
  | template (text : String)
  | expression (text : String)
deriving Repr, DecidableEq

/-- Why arguments are no command. -/
inductive CommandError
  | usage
  | unknown (name : String)
  | braceArguments
  | notNumbers
  | notPositive
deriving Repr, DecidableEq

/-- The text that explains the commands. -/
def usageText : String :=
  "Usage: logtemplate <command> [args...]\n\n"
    ++ "Commands:\n"
    ++ "  highlight <files...>        Print classified template regions\n"
    ++ "  calls <files...>            Print template-bearing call ranges\n"
    ++ "  braces <file> <line> <col>  Print the brace matching a position\n"
    ++ "  template <text>             Parse a message template\n"
    ++ "  expr <text>                 Classify an expression template\n\n"
    ++ "Lines and columns are 1-based.\n\n"
    ++ "Examples:\n"
    ++ "  logtemplate highlight Program.cs\n"
    ++ "  logtemplate braces Program.cs 12 31\n"
    ++ "  logtemplate template \"User \x7bName\x7d logged in\"\n"

/-- The text that is printed for an error. -/
def CommandError.text : CommandError → String
  | usage => usageText
  | unknown name => "Unknown command: " ++ name ++ "\n"
  | braceArguments => "Error: braces needs <file> <line> <col>\n"
  | notNumbers => "Error: line and column must be numbers\n"
  | notPositive => "Error: line and column are 1-based\n"

namespace Command

/-- The largest number that is accepted. -/
def largestNumber : Nat := wordSize - 1

/-- The number that a text writes in decimal digits, which may follow one plus sign. -/
def number? (text : String) : Option Nat :=
  let digits := match text.toList with
    | '+' :: digits => digits
    | digits => digits
  if digits = [] ∨ digits.all Char.isDigit = false then none
  else
    let value := digits.foldl (fun value digit => value * 10 + (digit.toNat - '0'.toNat)) 0
    if value ≤ largestNumber then some value else none

/-- The arguments of the command that looks for braces. -/
def bracesOfArgs : List String → Except CommandError Command
  | [path, line, column] =>
    match number? line, number? column with
    | some line, some column =>
      if line = 0 ∨ column = 0 then .error .notPositive else .ok (braces path line column)
    | _, _ => .error .notNumbers
  | _ => .error .braceArguments

/-- The command that arguments stand for. Each command takes at least one argument, and all but the
    first of a text are passed over. -/
def ofArgs : List String → Except CommandError Command
  | name :: first :: rest =>
    if name = "--help" ∨ name = "-h" then .error .usage
    else if name = "highlight" then .ok (highlight (first :: rest))
    else if name = "calls" then .ok (calls (first :: rest))
    else if name = "braces" then bracesOfArgs (first :: rest)
    else if name = "template" then .ok (template first)
    else if name = "expr" then .ok (expression first)
    else .error (.unknown name)
  | _ => .error .usage

/-- The paths of the files that a command reads. -/
def paths : Command → List String
  | highlight paths => paths
  | calls paths => paths
  | braces path .. => [path]
  | template _ => []
  | expression _ => []

end Command

/-! ## Text -/

/-- A position, counted from one. -/
def Position.text (position : Position) : String :=
  toString (position.line + 1) ++ ":" ++ toString (position.column + 1)

/-- The two ends of a span. -/
def Span.text (span : Span) : String := span.start.text ++ "-" ++ span.stop.text

/-- The line of a template in a file, and a line for each of its regions. -/
def PlacedTemplate.text (path : String) (template : PlacedTemplate) : String :=
  let regionLine (region : PlacedRegion) : String :=
    "  " ++ region.span.text ++ " " ++ region.classification.name ++ "\n"
  path ++ ":" ++ template.span.text ++ " " ++ template.flavor.name ++ " " ++ template.kind.name
    ++ " " ++ Quoted.write template.content.toString ++ "\n"
    ++ String.join (template.regions.map regionLine)

/-- The line of a call in a file. -/
def Span.callLine (path : String) (call : Span) : String := path ++ ":" ++ call.text ++ "\n"

/-- The line of the first positions of two braces. -/
def BracePair.text (pair : BracePair) : String :=
  pair.opening.start.text ++ " " ++ pair.closing.start.text ++ "\n"

/-- A part that a property may lack. -/
def optionalText (part : Option Bytes) : String := (part.map Bytes.toString).getD "-"

/-- The line of a property. -/
def Property.line (property : Property) : String :=
  toString property.start ++ ".." ++ toString property.stop ++ " " ++ property.kind.name ++ " "
    ++ property.name.toString ++ " alignment=" ++ optionalText property.alignment
    ++ " format=" ++ optionalText property.format ++ "\n"

/-- The line of a region. -/
def Region.line (region : Region) : String :=
  toString region.start ++ ".." ++ toString region.stop ++ " " ++ region.classification.name
    ++ "\n"

/-! ## Answers -/

/-- What a command prints, and the code that it ends with. -/
structure Outcome where
  code : UInt32
  output : String
  errors : String
deriving Repr, DecidableEq

namespace Outcome

/-- Success with some output. -/
def success (output : String) : Outcome := ⟨0, output, ""⟩

/-- Failure with a message. -/
def failure (errors : String) : Outcome := ⟨1, "", errors⟩

/-- Arguments that are no command. -/
def misuse (error : CommandError) : Outcome := ⟨2, "", error.text⟩

/-- One outcome behind another, which fails if one of them does. -/
def andThen (first second : Outcome) : Outcome :=
  ⟨max first.code second.code, first.output ++ second.output, first.errors ++ second.errors⟩

/-- Outcomes one behind the other. -/
def all (outcomes : List Outcome) : Outcome := outcomes.foldr andThen (success "")

end Outcome

/-- The files that a command can read. -/
abbrev Files := String → Except ReadFailure Bytes

/-- The document in a file, or the failure to read it. -/
def Files.document (files : Files) (path : String) : Except ReadFailure Document :=
  match files path with
  | .error failure => .error failure
  | .ok bytes => Document.ofFile bytes

namespace Command

/-- The outcome for one file: what is printed about its document, or the failure to read it. -/
def onFile (files : Files) (print : String → Document → String) (path : String) : Outcome :=
  match files.document path with
  | .error failure => .failure (failure.message path ++ "\n")
  | .ok document => .success (print path document)

/-- The templates of a document. -/
def printTemplates (path : String) (document : Document) : String :=
  String.join ((LogMarkup.highlight document {}).map (PlacedTemplate.text path))

/-- The calls of a document. -/
def printCalls (path : String) (document : Document) : String :=
  String.join ((LogMarkup.calls document {}).map (Span.callLine path))

/-- The outcome for a position of a file, counted from one. -/
def onPosition (files : Files) (path : String) (line column : Nat) : Outcome :=
  match files.document path with
  | .error failure => .failure (failure.message path ++ "\n")
  | .ok document =>
    match bracePairAt? document {} ⟨line - 1, column - 1⟩ with
    | some pair => .success pair.text
    | none =>
      .failure (path ++ ": no matching brace at " ++ toString line ++ ":" ++ toString column
        ++ "\n")

/-- What a command prints. -/
def run (files : Files) : Command → Outcome
  | highlight paths => .all (paths.map (onFile files printTemplates))
  | calls paths => .all (paths.map (onFile files printCalls))
  | braces path line column => onPosition files path line column
  | template text =>
    .success (String.join ((Property.all (Bytes.ofString text)).map Property.line))
  | expression text =>
    .success (String.join ((Expression.regions (Bytes.ofString text)).map Region.line))

/-- What is printed for arguments. -/
def answer (files : Files) (args : List String) : Outcome :=
  match ofArgs args with
  | .error error => .misuse error
  | .ok command => command.run files

end Command

end LogMarkup
