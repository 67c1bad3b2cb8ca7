import RegexEngine.CharSet.Named
import RegexEngine.Text.Subject

/-!
# Assertions and the categories that decide them

An assertion consumes nothing.  Whether it holds depends only on the
categories of what stands on the two sides of a position, so a category is all
that an automaton has to remember of its context.

* `Category` names what stands on one side; `Category.before` and
  `Category.after` read it off a subject.
* `PerCategory` is a table with one entry for each category.
* `Look` is an assertion; `Look.holds` decides it.
-/

namespace RegexEngine

/-- What stands on one side of a position. -/
inductive Category where
  /-- The start or the end of the subject. -/
  | edge
  /-- A word character. -/
  | word
  /-- A line terminator. -/
  | lineTerminator
  /-- Any other character. -/
  | other
deriving DecidableEq, Repr

namespace Category

/-- All categories. -/
def all : List Category :=
  [edge, word, lineTerminator, other]

/-- The categories that a character can have. -/
def ofCharacters : List Category :=
  [word, lineTerminator, other]

/-- The category of a character. -/
def of (c : Char) : Category :=
  if CharSet.word.test c then word
  else if CharSet.lineTerminators.test c then lineTerminator
  else other

/-- The category of a character that may be missing. -/
def ofChar? : Option Char → Category
  | none => edge
  | some c => of c

/-- The category of what ends at `pos`. -/
def before (text : Subject) (pos : Nat) : Category :=
  ofChar? (text.charBefore? pos)

/-- The category of what starts at `pos`. -/
def after (text : Subject) (pos : Nat) : Category :=
  ofChar? (text.charAt? pos)

/-- The characters of a category. -/
def members : Category → CharSet
  | edge => CharSet.empty
  | word => CharSet.word
  | lineTerminator => CharSet.lineTerminators
  | other => (CharSet.word.union CharSet.lineTerminators).compl

end Category

/-- One value for each category. -/
structure PerCategory (α : Type) where
  /-- The value at an edge of the subject. -/
  edge : α
  /-- The value next to a word character. -/
  word : α
  /-- The value next to a line terminator. -/
  lineTerminator : α
  /-- The value next to any other character. -/
  other : α
deriving DecidableEq, Repr

namespace PerCategory

/-- The value of a category. -/
def get {α : Type} (t : PerCategory α) : Category → α
  | .edge => t.edge
  | .word => t.word
  | .lineTerminator => t.lineTerminator
  | .other => t.other

/-- The table of a function. -/
def ofFn {α : Type} (f : Category → α) : PerCategory α where
  edge := f .edge
  word := f .word
  lineTerminator := f .lineTerminator
  other := f .other

@[simp] theorem get_ofFn {α : Type} (f : Category → α) (c : Category) :
    (ofFn f).get c = f c := by
  cases c <;> rfl

end PerCategory

/-- An assertion about a position. -/
inductive Look where
  /-- A word character stands on exactly one side. -/
  | wordBoundary
  /-- A word character stands on both sides or on neither. -/
  | notWordBoundary
  /-- The subject starts here. -/
  | textStart
  /-- The subject ends here. -/
  | textEnd
  /-- A line starts here. -/
  | lineStart
  /-- A line ends here. -/
  | lineEnd
deriving DecidableEq, Repr

namespace Look

/-- All assertions. -/
def all : List Look :=
  [wordBoundary, notWordBoundary, textStart, textEnd, lineStart, lineEnd]

/-- Decides the assertion from the categories on the two sides. -/
def holds : Look → Category → Category → Bool
  | wordBoundary, before, after => (before == .word) != (after == .word)
  | notWordBoundary, before, after => (before == .word) == (after == .word)
  | textStart, before, _ => before == .edge
  | textEnd, _, after => after == .edge
  | lineStart, before, _ => before == .edge || before == .lineTerminator
  | lineEnd, _, after => after == .edge || after == .lineTerminator

/-- Decides the assertion at a position of a subject. -/
def holdsAt (look : Look) (text : Subject) (pos : Nat) : Bool :=
  look.holds (.before text pos) (.after text pos)

end Look

end RegexEngine
