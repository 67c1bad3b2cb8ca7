import RegexEngine.Text.Quoted

/-!
# Errors of patterns

A `ParseError` says what is wrong with the text of a pattern and where.  The
places are of any type `α`: while a text is read a place is what remains of the
text from there on, and in the final answer it is a byte offset.

A `PatternError` says why a pattern cannot be compiled.  That nothing matches is
never an error.
-/

namespace RegexEngine

/-- What is wrong with the text of a pattern. -/
inductive ParseError (α : Type) where
  /-- A `)` without a group. -/
  | unmatchedClose (place : α)
  /-- A group without its `)`. -/
  | unclosedGroup (place : α)
  /-- A quantifier without anything before it. -/
  | nothingToRepeat (place : α)
  /-- A class without its `]`. -/
  | unterminatedClass (place : α)
  /-- A range of a class whose bounds are no range. -/
  | badClassRange (first last : Char)
  /-- An escape without meaning. -/
  | badEscape (place : α)
  /-- A property that no table has. -/
  | unknownProperty (name : List Char)
  /-- Something other than the expected character. -/
  | missing (expected : Char) (place : α)
  /-- A `(?` that starts no group. -/
  | badGroup (place : α)
  /-- A quantifier whose maximum is less than its minimum. -/
  | badRepetition (place : α)
deriving DecidableEq, Repr

namespace ParseError

variable {α β : Type}

/-- The same error at the places that `f` gives. -/
def map (f : α → β) : ParseError α → ParseError β
  | unmatchedClose place => unmatchedClose (f place)
  | unclosedGroup place => unclosedGroup (f place)
  | nothingToRepeat place => nothingToRepeat (f place)
  | unterminatedClass place => unterminatedClass (f place)
  | badClassRange first last => badClassRange first last
  | badEscape place => badEscape (f place)
  | unknownProperty name => unknownProperty name
  | missing expected place => missing expected (f place)
  | badGroup place => badGroup (f place)
  | badRepetition place => badRepetition (f place)

/-- The text of an error whose places are byte offsets. -/
def message : ParseError Nat → String
  | unmatchedClose place => s!"unmatched ')' at offset {place}"
  | unclosedGroup place => s!"missing ')' for group opened at offset {place}"
  | nothingToRepeat place => s!"nothing to repeat at offset {place}"
  | unterminatedClass place =>
    s!"unterminated character class starting at offset {place}"
  | badClassRange first last =>
    "invalid range " ++ Text.quotedChar first ++ "-" ++ Text.quotedChar last ++
      " in character class"
  | badEscape place => s!"invalid escape sequence at offset {place}"
  | unknownProperty name => "unknown unicode property " ++ Text.quoted name
  | missing expected place =>
    "missing " ++ Text.quotedChar expected ++ s!" at offset {place}"
  | badGroup place => s!"invalid group syntax at offset {place}"
  | badRepetition place => s!"invalid repetition bounds at offset {place}"

end ParseError

/-- Why a pattern cannot be compiled. -/
inductive PatternError where
  /-- The text is not the text of a pattern. -/
  | parse (error : ParseError Nat)
  /-- A repetition has a maximum below its minimum. -/
  | invalidRepetition (min max : Nat)
  /-- The pattern has choices that the next character does not settle. -/
  | notRegular
deriving DecidableEq, Repr

namespace PatternError

/-- The text of an error. -/
def message : PatternError → String
  | parse error => "invalid pattern: " ++ error.message
  | invalidRepetition min max => s!"repetition minimum {min} exceeds maximum {max}"
  | notRegular => "pattern needs backtracking and cannot be compiled to a DFA"

end PatternError

end RegexEngine
