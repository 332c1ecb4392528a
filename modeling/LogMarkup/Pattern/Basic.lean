import LogMarkup.Text.Blank
import LogMarkup.Text.WordChar

/-!
# `LogMarkup.Pattern.Basic` — patterns and what they match

A pattern is searched for in a line, at the leftmost place where it matches. Of several matches at
one place the preferred one counts: an alternative that is written first is preferred, and so is one
more round of a repetition, unless the repetition is a lazy one.

The search therefore computes, for a pattern and a place, the list of all places where a match can
end, the preferred one first. Such a list names no place twice, so it never has more entries than the
line has characters, whatever the pattern is.

## Contents
- **Syntax.** `CharSet`, `Assertion`, `Pattern`.
- **Meaning.** `CharSet.has`, `Assertion.holds`, and `Pattern.ends`, with `repetitionEnds` for the
  rounds of a repetition.
- **Search.** `Pattern.firstEnd?` and `Pattern.matchEnd?`, the end of the match in bytes.
-/

namespace LogMarkup

/-! ## Syntax -/

/-- Sets of characters. -/
inductive CharSet
  | none
  | range (first last : Char)
  /-- White space. -/
  | blank
  /-- Decimal digits. -/
  | digit
  /-- Word characters. -/
  | word
  | except (set : CharSet)
  | either (left right : CharSet)
deriving Repr, DecidableEq

/-- The set of one character. -/
def CharSet.only (c : Char) : CharSet := range c c

/-- Conditions on a place in a line. -/
inductive Assertion
  | start
  | stop
  /-- Exactly one of the two characters at the place is a word character. -/
  | wordBoundary
  | noWordBoundary
deriving Repr, DecidableEq

/-- Patterns. -/
inductive Pattern
  /-- The empty text. -/
  | empty
  /-- One character of a set. -/
  | char (set : CharSet)
  /-- The empty text at a place with a property. -/
  | assert (assertion : Assertion)
  /-- One pattern behind another. -/
  | sequence (first second : Pattern)
  /-- One of two patterns, rather the first. -/
  | either (preferred other : Pattern)
  /-- Any number of rounds, rather many of them than few if `greedy`. -/
  | star (greedy : Bool) (round : Pattern)
deriving Repr, DecidableEq

namespace Pattern

/-- At least one round. -/
def plus (greedy : Bool) (round : Pattern) : Pattern := sequence round (star greedy round)

/-- At most one round. -/
def optional (greedy : Bool) (round : Pattern) : Pattern :=
  if greedy then either round empty else either empty round

end Pattern

/-! ## Meaning -/

/-- Whether a set has a character. -/
def CharSet.has : CharSet → Char → Bool
  | none, _ => false
  | range first last, c => first ≤ c && c ≤ last
  | blank, c => isBlank c
  | digit, c => isDecimalDigit c
  | word, c => isWordChar c
  | except set, c => !set.has c
  | either left right, c => left.has c || right.has c

/-- A line as its characters, which is what patterns speak of. -/
abbrev Subject := Array Symbol

/-- Whether there is a word character at a place. -/
def Subject.hasWordAt (subject : Subject) (place : Nat) : Bool :=
  subject[place]?.any (isWordChar ·.char)

/-- Whether a word starts or ends at a place. -/
def Subject.isWordBoundary (subject : Subject) (place : Nat) : Bool :=
  (0 < place && subject.hasWordAt (place - 1)) != subject.hasWordAt place

/-- Whether a condition holds at a place. -/
def Assertion.holds (subject : Subject) (place : Nat) : Assertion → Bool
  | start => place == 0
  | stop => place == subject.size
  | wordBoundary => subject.isWordBoundary place
  | noWordBoundary => !subject.isWordBoundary place

/-- Add a place to those that were found before, the last one first. -/
def noteEnd (found : List Nat) (place : Nat) : List Nat :=
  if found.contains place then found else place :: found

/-- The ends of a repetition from a place on, the last one first, added to those in `found`. Each
    round is given by its own ends. A round that matches the empty text ends the repetition where it
    is; every other round uses up a character, so that no more than `rounds` of them follow one
    another where `rounds` characters are left. -/
def repetitionEnds (greedy : Bool) (round : Nat → List Nat) (rounds : Nat) (found : List Nat)
    (place : Nat) : List Nat :=
  match rounds with
  | 0 => noteEnd found place
  | rounds + 1 =>
    if found.contains place then found
    else
      let before := if greedy then found else noteEnd found place
      let behind := (round place).foldl
        (fun found next =>
          if next = place then noteEnd found place
          else repetitionEnds greedy round rounds found next)
        before
      noteEnd behind place

namespace Pattern

/-- The places where a match that starts at a place can end, the preferred one first. -/
def ends (subject : Subject) : Pattern → Nat → List Nat
  | empty, place => [place]
  | char set, place => if subject[place]?.any (set.has ·.char) then [place + 1] else []
  | assert assertion, place => if assertion.holds subject place then [place] else []
  | sequence first second, place =>
    ((ends subject first place).flatMap (ends subject second)).eraseDups
  | either preferred other, place =>
    (ends subject preferred place ++ ends subject other place).eraseDups
  | star greedy round, place =>
    (repetitionEnds greedy (ends subject round) (subject.size - place) [] place).reverse

/-! ## Search -/

/-- The place where the leftmost match ends. -/
def firstEnd? (pattern : Pattern) (subject : Subject) : Option Nat :=
  (List.range (subject.size + 1)).findSome? fun place => (pattern.ends subject place).head?

/-- The offset, in bytes, where the leftmost match in a line ends. -/
def matchEnd? (pattern : Pattern) (line : Bytes) : Option Nat :=
  let symbols := Utf8.symbols line
  (pattern.firstEnd? symbols.toArray).map fun place => Utf8.widthOf (symbols.take place)

end Pattern

end LogMarkup
