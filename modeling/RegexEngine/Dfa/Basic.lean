import RegexEngine.Look

/-!
# Deterministic automata

A `Dfa` reads a subject from left to right and never goes back.  Its states
accept depending on the category of the next character, and it starts in a
state that depends on the category of the character before the start.  That is
all it has to know to decide assertions.

`Dfa.runBounded` finds the longest match at a position.
-/

namespace RegexEngine

/-- A state of a deterministic automaton. -/
structure Dfa.State where
  /-- The sets of characters that lead on, and where they lead. -/
  transitions : List (CharSet × Nat) := []
  /-- The categories of the next character at which the state accepts. -/
  accepting : PerCategory Bool := .ofFn fun _ => false

/-- A deterministic automaton. -/
structure Dfa where
  /-- The states, by number. -/
  states : Array Dfa.State
  /-- The first state, for the category of the character before the start. -/
  roots : PerCategory Nat

namespace Dfa

/-- The state after `c`. -/
def State.step (s : State) (c : Char) : Option Nat :=
  (s.transitions.find? fun (set, _) => set.test c).map (·.2)

/-- Goes on from a state at `pos`, where `last` is the last position that was
accepted.  Nothing is read from `limit` on. -/
def scan (d : Dfa) (text : Subject) (limit state pos : Nat) (last : Option Nat) :
    Option Nat :=
  match d.states[state]? with
  | none => last
  | some s =>
    let last := if s.accepting.get (.after text pos) then some pos else last
    if limit ≤ pos then last
    else
      match _h : text.charAt? pos with
      | none => last
      | some c =>
        match s.step c with
        | none => last
        | some next => d.scan text limit next (pos + c.utf8Size) last
termination_by text.size - pos
decreasing_by
  have := Subject.lt_size_of_charAt? _h
  have := c.utf8Size_pos
  omega

/-- The end of the longest match at `start` of which nothing lies beyond
`limit`.  Assertions see the whole subject. -/
def runBounded (d : Dfa) (text : Subject) (start limit : Nat) :
    Except Fault (Option Nat) := do
  text.checkBoundary start
  return d.scan text limit (d.roots.get (.before text start)) start none

/-- The end of the longest match at `start`. -/
def run (d : Dfa) (text : Subject) (start : Nat) : Except Fault (Option Nat) :=
  d.runBounded text start text.size

/-- The leftmost match among those that start at the given positions. -/
def findAmong (d : Dfa) (text : Subject) :
    List Nat → Except Fault (Option (Nat × Nat))
  | [] => .ok none
  | start :: later => do
    match ← d.run text start with
    | some stop => return some (start, stop)
    | none => d.findAmong text later

/-- The leftmost match. -/
def find (d : Dfa) (text : Subject) : Except Fault (Option (Nat × Nat)) :=
  d.findAmong text text.boundaries

end Dfa

end RegexEngine
