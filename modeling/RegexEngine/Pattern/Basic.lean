import RegexEngine.CharSet.Basic
import RegexEngine.Look
import RegexEngine.Options

/-!
# Patterns

A `Pattern` is the tree of a regular expression.  Alternatives and the modes of
repetition are in order of preference: a match is the first that the order
finds, not the longest.

The functions below `Pattern` build common trees.  `Pattern.seq` and
`Pattern.choice` leave a single part as it is.
-/

namespace RegexEngine

/-- Which number of repetitions is preferred. -/
inductive Mode where
  /-- As many as possible. -/
  | greedy
  /-- As few as possible. -/
  | lazy
  /-- As many as possible, and none is given back. -/
  | possessive
deriving DecidableEq, Repr

/-- On which side of a position a lookaround looks. -/
inductive Direction where
  /-- At the text that starts at the position. -/
  | ahead
  /-- At the text that ends at the position. -/
  | behind
deriving DecidableEq, Repr

/-- How a capture group is named. -/
inductive GroupKey where
  /-- By its number; group 0 is the whole match. -/
  | index (n : Nat)
  /-- By its name. -/
  | name (s : String)
deriving DecidableEq, Repr

/-- An assertion of a pattern. -/
inductive Assertion where
  /-- `\b` -/
  | wordBoundary
  /-- `\B` -/
  | notWordBoundary
  /-- `^` -/
  | inputStart
  /-- `$` -/
  | inputEnd
deriving DecidableEq, Repr

/-- What an assertion means under the given options. -/
def Assertion.look (options : Options) : Assertion → Look
  | wordBoundary => .wordBoundary
  | notWordBoundary => .notWordBoundary
  | inputStart => if options.multiline then .lineStart else .textStart
  | inputEnd => if options.multiline then .lineEnd else .textEnd

/-- A regular expression. -/
inductive Pattern where
  /-- The given characters, one after the other. -/
  | text (chars : List Char)
  /-- The parts, one after the other. -/
  | concat (parts : List Pattern)
  /-- One of the branches, the first that leads to a match. -/
  | alt (branches : List Pattern)
  /-- From `min` to `max` times the body; without `max` there is no upper
  bound. -/
  | repeated (body : Pattern) (min : Nat) (max : Option Nat) (mode : Mode)
  /-- One character of the set. -/
  | oneOf (set : CharSet)
  /-- Nothing, where the assertion holds. -/
  | assert (assertion : Assertion)
  /-- The body under changed options. -/
  | withFlags (flags : FlagOverride) (body : Pattern)
  /-- Nothing, where the body matches on the given side, or where it does
  not. -/
  | lookAround (direction : Direction) (negated : Bool) (body : Pattern)
  /-- The body, of whose matches only the first is tried. -/
  | atomic (body : Pattern)
  /-- The body, recorded as a group. -/
  | capture (name : Option String) (body : Pattern)
  /-- The text of a group once more. -/
  | reference (group : GroupKey)
deriving Repr

namespace Pattern

/-- The pattern of the empty text. -/
def empty : Pattern :=
  concat []

instance : Inhabited Pattern := ⟨empty⟩

/-- `.` -/
def any : Pattern :=
  oneOf CharSet.any

/-- The parts, one after the other. -/
def seq : List Pattern → Pattern
  | [part] => part
  | parts => concat parts

/-- One of the branches. -/
def choice : List Pattern → Pattern
  | [branch] => branch
  | branches => alt branches

/-- Any number of times. -/
def zeroOrMore (body : Pattern) (mode : Mode) : Pattern :=
  repeated body 0 none mode

/-- At least once. -/
def oneOrMore (body : Pattern) (mode : Mode) : Pattern :=
  repeated body 1 none mode

/-- At most once. -/
def optional (body : Pattern) (mode : Mode) : Pattern :=
  repeated body 0 (some 1) mode

/-- Where the body matches what follows. -/
def lookAhead (body : Pattern) : Pattern :=
  lookAround .ahead false body

/-- Where the body matches what precedes. -/
def lookBehind (body : Pattern) : Pattern :=
  lookAround .behind false body

/-- The body from the start of the subject to its end. -/
def anchored (body : Pattern) : Pattern :=
  concat [assert .inputStart, body, assert .inputEnd]

end Pattern

end RegexEngine
