import LogMarkup.Pattern.Basic

/-!
# `LogMarkup.Pattern.Reader` — patterns out of their written form

The written form is the customary one: `.`, sets in brackets, `\s`, `\d`, `\w`, `\b` and their
opposites, groups, alternatives behind `|`, repetitions `*`, `+` and `?` with an optional `?` behind
them, `^` and `$` for the ends of the line, and a backslash in front of punctuation for itself.

What else is customary is refused, lest it be read for something else:
- repetitions that are counted, such as `a{2,3}`;
- groups with names or flags, flags by themselves, and conditions on what stands around a place;
- all other escapes by a letter or a digit, such as `\A`, `\z`, `\x41`, `\p{Greek}` and `\1`, and `\<` and `\>`;
- in sets, names of classes such as `[:alpha:]`, and the operators `&&`, `--` and `~~`.

A pattern is read in one pass. Groups and sets that are still open wait on stacks.

## Contents
- `PatternError`, why a text is no pattern.
- `OpenSet` and `OpenGroup`, what has been read of a set and of a group.
- `Pattern.readFrom` and `Pattern.read`.
-/

namespace LogMarkup

/-- Why a text is no pattern. -/
inductive PatternError
  | unclosedGroup
  | unopenedGroup
  | unsupportedGroup
  | unclosedSet
  | unsupportedSet
  | reversedRange (first last : Char)
  | nothingToRepeat
  | unsupportedCount
  | unfinishedEscape
  | unknownEscape (c : Char)
deriving Repr, DecidableEq

/-- The error in words. -/
def PatternError.message : PatternError → String
  | unclosedGroup => "a group is not closed"
  | unopenedGroup => "a closing parenthesis closes no group"
  | unsupportedGroup => "only plain groups and groups that start with (?: are known"
  | unclosedSet => "a set of characters is not closed"
  | unsupportedSet => "names of classes and operators on sets are not known"
  | reversedRange first last =>
    "the range from " ++ first.toString ++ " to " ++ last.toString ++ " is empty"
  | nothingToRepeat => "there is nothing to repeat"
  | unsupportedCount => "counted repetitions are not known"
  | unfinishedEscape => "there is nothing behind the last backslash"
  | unknownEscape c => "there is no escape for " ++ c.toString

/-! ## Escapes -/

/-- What an escape stands for. -/
inductive Escape
  | character (c : Char)
  | set (set : CharSet)
  | assertion (assertion : Assertion)
deriving Repr, DecidableEq

/-- What the character behind a backslash stands for. -/
def Escape.of? (c : Char) : Option Escape :=
  if c = 's' then some (set .blank)
  else if c = 'S' then some (set (.except .blank))
  else if c = 'd' then some (set .digit)
  else if c = 'D' then some (set (.except .digit))
  else if c = 'w' then some (set .word)
  else if c = 'W' then some (set (.except .word))
  else if c = 'b' then some (assertion .wordBoundary)
  else if c = 'B' then some (assertion .noWordBoundary)
  else if c = 'n' then some (character '\n')
  else if c = 'r' then some (character '\r')
  else if c = 't' then some (character '\t')
  else if c.toNat < 0x80 && !c.isAlphanum && c != '<' && c != '>' then some (character c)
  else none

/-! ## Sets -/

/-- What has been read of a set in brackets. -/
structure OpenSet where
  negated : Bool
  /-- Whether nothing of the set has been read yet. -/
  fresh : Bool
  read : CharSet
  /-- The last character, which may be the first one of a range. -/
  pending : Option Char
  /-- Whether a hyphen was read behind the pending character. -/
  hyphen : Bool
deriving Repr, DecidableEq

/-- The names of classes that may stand in sets, between brackets and colons. -/
def classNames : List String :=
  ["alnum", "alpha", "ascii", "blank", "cntrl", "digit", "graph", "lower", "print", "punct", "space",
   "upper", "word", "xdigit"]

/-- Whether what stands behind an opening bracket in a set is the name of a class, and not a set. -/
def startsClassName (text : List Char) : Bool :=
  classNames.any fun name =>
    (":" ++ name ++ ":]").toList.isPrefixOf text || (":^" ++ name ++ ":]").toList.isPrefixOf text

/-- Whether a character of a set and what stands behind it are an operator. -/
def startsSetOperator (c : Char) (rest : List Char) : Bool :=
  (c == '&' || c == '-' || c == '~') && rest.head? == some c

namespace OpenSet

/-- A set right behind its bracket. -/
def new (negated : Bool) : OpenSet := ⟨negated, true, .none, none, false⟩

/-- Take in what is pending. -/
def settle (set : OpenSet) : OpenSet :=
  let read := match set.pending with
    | none => set.read
    | some c => .either set.read (.only c)
  let read := if set.hyphen then .either read (.only '-') else read
  { set with fresh := false, read := read, pending := none, hyphen := false }

/-- Add all characters of a set. -/
def addSet (set : OpenSet) (more : CharSet) : OpenSet :=
  let set := set.settle
  { set with read := .either set.read more }

/-- Add a character, or the range that it ends. -/
def addChar (set : OpenSet) (c : Char) : Except PatternError OpenSet :=
  match set.pending, set.hyphen with
  | some first, true =>
    if first ≤ c then
      .ok { set with
        fresh := false, read := .either set.read (.range first c), pending := none, hyphen := false }
    else .error (.reversedRange first c)
  | _, _ => .ok { set.settle with pending := some c }

/-- Add a hyphen, which makes a range of its neighbours if it has a character in front. -/
def addHyphen (set : OpenSet) : Except PatternError OpenSet :=
  if set.pending.isSome && !set.hyphen then .ok { set with hyphen := true } else set.addChar '-'

/-- The whole set. -/
def close (set : OpenSet) : CharSet :=
  let read := set.settle.read
  if set.negated then .except read else read

end OpenSet

/-! ## Groups -/

/-- What has been read of a group: its alternatives before the last `|`, and the items since then,
    each with the last one first. -/
structure OpenGroup where
  alternatives : List Pattern
  items : List Pattern
deriving Repr, DecidableEq

namespace OpenGroup

/-- A group right behind its parenthesis. -/
def new : OpenGroup := ⟨[], []⟩

/-- The items since the last `|`, one behind the other. -/
def itemSequence (group : OpenGroup) : Pattern :=
  match group.items with
  | [] => .empty
  | last :: before => before.foldl (fun behind item => .sequence item behind) last

/-- The whole group. -/
def close (group : OpenGroup) : Pattern :=
  group.alternatives.foldl (fun others preferred => .either preferred others) group.itemSequence

/-- Add an item. -/
def add (group : OpenGroup) (item : Pattern) : OpenGroup :=
  { group with items := item :: group.items }

/-- Begin the next alternative. -/
def alternate (group : OpenGroup) : OpenGroup :=
  ⟨group.itemSequence :: group.alternatives, []⟩

/-- Repeat the last item. -/
def repeatLast (group : OpenGroup) (repetition : Pattern → Pattern) :
    Except PatternError OpenGroup :=
  match group.items with
  | [] => .error .nothingToRepeat
  | last :: before => .ok { group with items := repetition last :: before }

end OpenGroup

/-! ## Reading -/

/-- The repetition that a character stands for. -/
def repetition? (c : Char) : Option (Bool → Pattern → Pattern) :=
  if c = '*' then some .star
  else if c = '+' then some .plus
  else if c = '?' then some .optional
  else none

namespace Pattern

/-- What a character that is no operator matches. -/
def ofChar (c : Char) : Pattern :=
  if c = '.' then char (.except (.only '\n'))
  else if c = '^' then assert .start
  else if c = '$' then assert .stop
  else char (.only c)

/-- What an escape outside of sets matches. -/
def ofEscape : Escape → Pattern
  | .character c => char (.only c)
  | .set set => char set
  | .assertion assertion => assert assertion

/-- Read on, with the groups `outer` around `group`, and inside of the sets `sets`, the innermost of
    each first. -/
def readFrom (outer : List OpenGroup) (group : OpenGroup) (sets : List OpenSet) :
    List Char → Except PatternError Pattern
  | [] =>
    if sets ≠ [] then .error .unclosedSet
    else if outer ≠ [] then .error .unclosedGroup
    else .ok group.close
  | c :: rest =>
    match sets with
    | set :: others =>
      if c = ']' ∧ set.fresh = false then
        match others with
        | [] => readFrom outer (group.add (char set.close)) [] rest
        | parent :: others => readFrom outer group (parent.addSet set.close :: others) rest
      else if startsSetOperator c rest then .error .unsupportedSet
      else if c = '[' then
        if startsClassName rest then .error .unsupportedSet
        else match rest with
        | '^' :: rest => readFrom outer group (OpenSet.new true :: set :: others) rest
        | rest => readFrom outer group (OpenSet.new false :: set :: others) rest
      else if c = '\\' then
        match rest with
        | [] => .error .unclosedSet
        | d :: rest =>
          match Escape.of? d with
          | some (.character d) =>
            match set.addChar d with
            | .error error => .error error
            | .ok set => readFrom outer group (set :: others) rest
          | some (.set more) => readFrom outer group (set.addSet more :: others) rest
          | _ => .error (.unknownEscape d)
      else
        match if c = '-' then set.addHyphen else set.addChar c with
        | .error error => .error error
        | .ok set => readFrom outer group (set :: others) rest
    | [] =>
      if c = '\\' then
        match rest with
        | [] => .error .unfinishedEscape
        | d :: rest =>
          match Escape.of? d with
          | some escape => readFrom outer (group.add (ofEscape escape)) [] rest
          | none => .error (.unknownEscape d)
      else if c = '(' then
        match rest with
        | '?' :: ':' :: rest => readFrom (group :: outer) OpenGroup.new [] rest
        | '?' :: _ => .error .unsupportedGroup
        | rest => readFrom (group :: outer) OpenGroup.new [] rest
      else if c = ')' then
        match outer with
        | [] => .error .unopenedGroup
        | parent :: outer => readFrom outer (parent.add group.close) [] rest
      else if c = '|' then readFrom outer group.alternate [] rest
      else if c = '[' then
        match rest with
        | '^' :: rest => readFrom outer group [OpenSet.new true] rest
        | rest => readFrom outer group [OpenSet.new false] rest
      else if c.toNat = 0x7B then .error .unsupportedCount
      else
        match repetition? c with
        | none => readFrom outer (group.add (ofChar c)) [] rest
        | some repetition =>
          match rest with
          | '?' :: rest =>
            match group.repeatLast (repetition false) with
            | .error error => .error error
            | .ok group => readFrom outer group [] rest
          | rest =>
            match group.repeatLast (repetition true) with
            | .error error => .error error
            | .ok group => readFrom outer group [] rest

/-- The pattern with a written form. -/
def read (source : String) : Except PatternError Pattern :=
  readFrom [] OpenGroup.new [] source.toList

end Pattern

end LogMarkup
