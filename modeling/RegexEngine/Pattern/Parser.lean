import RegexEngine.Pattern.Token
import RegexEngine.Text.Subject

/-!
# Reading patterns

A pattern text is read token by token.  What has been read is kept as a stack
of levels, one for the whole pattern and one for each group that is open.  A
level holds its finished branches, the finished parts of the branch that is
being read, and the atom read last, which waits for a quantifier.

* `Partial.add` says what a token does to the stack, at places of any type `α`.
* `Partial.readAll` reads a text to its end.
* `Pattern.parse` reads the pattern of a text.
-/

namespace RegexEngine

/-! ## Levels -/

/-- What has been read of a group or of the whole pattern. -/
structure Level where
  /-- The finished branches, the last one first. -/
  branches : List Pattern := []
  /-- The finished parts of the current branch, the last one first. -/
  parts : List Pattern := []
  /-- The atom that a quantifier would apply to. -/
  atom : Option Pattern := none

namespace Level

/-- Adds a part to parts of which the last is first.  Neighbouring texts become
one. -/
def push : Pattern → List Pattern → List Pattern
  | .text t, .text s :: parts => .text (s ++ t) :: parts
  | part, parts => part :: parts

/-- The parts of the current branch, the atom included. -/
def settled (l : Level) : List Pattern :=
  match l.atom with
  | none => l.parts
  | some atom => push atom l.parts

/-- The level after one more atom. -/
def addAtom (l : Level) (atom : Pattern) : Level :=
  { l with parts := l.settled, atom := some atom }

/-- The current branch. -/
def branch (l : Level) : Pattern :=
  .seq l.settled.reverse

/-- The level after the end of a branch. -/
def addBar (l : Level) : Level where
  branches := l.branch :: l.branches

/-- The pattern of the whole level. -/
def pattern (l : Level) : Pattern :=
  .choice (l.branch :: l.branches).reverse

end Level

/-! ## Partial patterns -/

/-- A group that is open, and the level around it. -/
structure OpenGroup (α : Type) where
  /-- What the group does. -/
  kind : GroupKind
  /-- The place of its parenthesis. -/
  start : α
  /-- What was read before it. -/
  outer : Level

/-- What has been read of a pattern text. -/
structure Partial (α : Type) where
  /-- The innermost level. -/
  level : Level := {}
  /-- The open groups, the innermost one first. -/
  groups : List (OpenGroup α) := []

namespace Partial

variable {α : Type}

/-- The partial pattern after one more token, which was read at `start`. -/
def add (p : Partial α) (start : α) : Token → Except (ParseError α) (Partial α)
  | .atom pattern => .ok { p with level := p.level.addAtom pattern }
  | .quantifier min max mode =>
    match p.level.atom with
    | none => .error (.nothingToRepeat start)
    | some atom =>
      let parts := .repeated atom min max mode :: p.level.parts
      .ok { p with level := { p.level with parts, atom := none } }
  | .opening kind => .ok ⟨{}, ⟨kind, start, p.level⟩ :: p.groups⟩
  | .bar => .ok { p with level := p.level.addBar }
  | .close =>
    match p.groups with
    | [] => .error (.unmatchedClose start)
    | group :: groups =>
      .ok ⟨group.outer.addAtom (group.kind.group p.level.pattern), groups⟩

/-- The pattern, if no group is open. -/
def finish (p : Partial α) : Except (ParseError α) Pattern :=
  match p.groups with
  | [] => .ok p.level.pattern
  | group :: _ => .error (.unclosedGroup group.start)

/-- Reads the rest of a pattern text. -/
def readAll (p : Partial (List Char)) (s : List Char) :
    Except (ParseError (List Char)) Pattern :=
  match s with
  | [] => p.finish
  | c :: s =>
    match _h : Token.read c s with
    | .error e => .error e
    | .ok (token, rest) =>
      match p.add (c :: s) token with
      | .error e => .error e
      | .ok p => p.readAll rest
termination_by s.length
decreasing_by exact Nat.lt_succ_of_le (Token.length_le_of_read _h)

end Partial

/-! ## Whole patterns -/

namespace Pattern

/-- Reads a pattern.  The places of errors are what remained of the text. -/
def read (text : List Char) : Except (ParseError (List Char)) Pattern :=
  Partial.readAll {} text

/-- The byte offset in `text` at which `rest` remains. -/
def offset (text rest : List Char) : Nat :=
  byteLength text - byteLength rest

/-- Reads a pattern.  The places of errors are byte offsets. -/
def parse (text : List Char) : Except (ParseError Nat) Pattern :=
  (read text).mapError (·.map (offset text))

end Pattern

end RegexEngine
