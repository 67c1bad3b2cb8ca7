import RegexEngine.Automaton.Promotion
import RegexEngine.Pattern.Parser
import RegexEngine.Search.Run
import RegexEngine.Yield

/-!
# Matches

A `Match` records where a pattern and its groups were found.

* `Automaton.matchAt` finds the match that starts at a position.
* `Automaton.findAt` and `Automaton.find` find the leftmost match.
* `Automaton.findAll` finds matches one after the other.
* `isMatch` decides whether the text of a pattern matches somewhere.
-/

namespace RegexEngine

/-- The offsets of a piece of text. -/
abbrev Span := Nat × Nat

/-- Where a pattern and its groups were found. -/
structure Match where
  /-- The whole match. -/
  whole : Span
  /-- The groups that have a number, from 1 on.  A group need not take part in
  a match. -/
  groups : List (Option Span)
  /-- The groups that have a name. -/
  names : List (String × Option Span)
deriving DecidableEq, Repr

namespace Match

/-- Where the match starts. -/
def start (m : Match) : Nat :=
  m.whole.1

/-- Where the match ends. -/
def stop (m : Match) : Nat :=
  m.whole.2

/-- The whole match and the groups that have a number. -/
def spans (m : Match) : List (Option Span) :=
  some m.whole :: m.groups

/-- Where a group was found. -/
def group? (m : Match) : GroupKey → Option Span
  | .index n => m.spans[n]?.join
  | .name s => (m.names.lookup s).join

/-- Where the search for the next match begins.  After an empty match it is one
character further on. -/
def resume (m : Match) (text : Subject) : Option Nat :=
  if m.stop = m.start then (text.charAt? m.stop).map fun c => m.stop + c.utf8Size
  else some m.stop

end Match

namespace Automaton

/-- The match that a search has found. -/
def toMatch (a : Automaton) (start stop : Nat) (r : Registers) : Match where
  whole := (start, stop)
  groups := a.groups.toList.tail.map r.span?
  names := a.names.map fun (name, slot) => (name, r.span? slot)

/-- The match that starts at `pos`.  None starts within a character. -/
def matchAt (a : Automaton) (text : Subject) (pos : Nat) : Except Fault (Option Match) := do
  if !text.isBoundary pos then return none
  let (stop, r) ← (a.run text a.entry pos).run (.fresh a)
  return stop.map fun stop => a.toMatch pos stop r

/-- The first match that starts at one of the positions. -/
def matchAmong (a : Automaton) (text : Subject) : List Nat → Except Fault (Option Match)
  | [] => return none
  | pos :: later => do
    match ← a.matchAt text pos with
    | some m => return some m
    | none => a.matchAmong text later

/-- The leftmost match that starts at `start` or later. -/
def findAt (a : Automaton) (text : Subject) (start : Nat) : Except Fault (Option Match) :=
  a.matchAmong text (text.boundariesFrom start)

/-- The leftmost match. -/
def find (a : Automaton) (text : Subject) : Except Fault (Option Match) :=
  a.findAt text 0

/-- Whether there is a match. -/
def isMatch (a : Automaton) (text : Subject) : Except Fault Bool :=
  return (← a.find text).isSome

/-- The matches from `start` on, one after the other.  The search moves on to the
right with each of them, until it finds none or has no answer. -/
def findAllFrom (a : Automaton) (text : Subject) (start : Nat) : Yield Fault Match :=
  match a.findAt text start with
  | .error fault => .stopped fault
  | .ok none => {}
  | .ok (some m) =>
    match m.resume text with
    | none => { items := [m] }
    | some next =>
      if _h : start < next ∧ next ≤ text.size then (a.findAllFrom text next).cons m
      else { items := [m] }
termination_by text.size - start

/-- The matches, one after the other. -/
def findAll (a : Automaton) (text : Subject) : Yield Fault Match :=
  a.findAllFrom text 0

/-- The automaton of a pattern text. -/
def ofText (options : Options) (pattern : List Char) : Except PatternError Automaton := do
  ofPattern options (← (Pattern.parse pattern).mapError .parse)

end Automaton

/-- Whether the pattern with the given text matches somewhere. -/
def isMatch (pattern : List Char) (text : Subject) :
    Except PatternError (Except Fault Bool) :=
  return (← Automaton.ofText {} pattern).isMatch text

end RegexEngine
