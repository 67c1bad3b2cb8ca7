import RegexEngine.Automaton.Basic
import RegexEngine.Reachability

/-!
# Choices that the next character settles

A deterministic automaton finds the longest match, and a search by preference
finds the first.  Both are the same if every choice is settled by the next
character, where a choice to end is settled by what comes after the end.

* `Automaton.outlook` is what can come next after a way has been taken.
* `Automaton.isDeterministic` decides whether the part of an automaton between
  a start and a goal has only choices that are settled.
-/

namespace RegexEngine

namespace Automaton

/-! ## Looking ahead -/

/-- What can come next. -/
structure Outlook where
  /-- The characters that can be consumed next. -/
  chars : CharSet
  /-- Whether the match can end without consuming any. -/
  canEnd : Bool
deriving DecidableEq, Repr

/-- Anything can come next. -/
def Outlook.unknown : Outlook where
  chars := CharSet.any
  canEnd := true

/-- What one state contributes to an outlook. -/
structure Sight where
  /-- Whether nothing can be told about what lies behind the state. -/
  hidden : Bool := false
  /-- The characters that it consumes. -/
  chars : CharSet := .empty
  /-- Whether the match can end in it. -/
  canEnd : Bool := false
  /-- The states to which it leads without consuming anything. -/
  next : List Nat := []

/-- What a state contributes to an outlook.  After the goal it has been decided
where the match of the part ends, so an assertion there hides what follows. -/
def State.sight (s : State) (afterGoal : Bool) : Sight :=
  match s.action with
  | .none | .text _ _ =>
    match s.transition with
    | none => { canEnd := s.accepting, next := s.epsilons }
    | some ⟨.oneOf set, _⟩ => { chars := set, canEnd := s.accepting, next := s.epsilons }
    | some ⟨.look _, target⟩ =>
      { hidden := afterGoal, canEnd := s.accepting, next := target :: s.epsilons }
  | .capture _ body _ _ => { next := [body] }
  | .captureClose _ next => { next := [next] }
  | _ => { hidden := true }

/-- The node of a state in a walk.  A walk that has met the goal is after it, and
has nodes of its own. -/
def walkNode (goal state : Nat) (afterGoal : Bool) : Nat :=
  2 * state + (if afterGoal || state == goal then 1 else 0)

/-- What a node of a walk contributes to an outlook. -/
def walkSight (a : Automaton) (node : Nat) : Sight :=
  match a.states[node / 2]? with
  | none => { hidden := true }
  | some s => s.sight (node % 2 == 1)

/-- The nodes to which a node of a walk leads.  Nothing hidden is looked
into. -/
def walkNext (a : Automaton) (goal node : Nat) : List Nat :=
  let sight := a.walkSight node
  if sight.hidden then []
  else sight.next.map fun state => walkNode goal state (node % 2 == 1)

/-- What can come next from a state on. -/
def outlook (a : Automaton) (goal state : Nat) : Outlook :=
  let nodes := reachable (2 * a.states.size) (a.walkNext goal) [walkNode goal state false]
  let sights := nodes.map a.walkSight
  if sights.any (·.hidden) then .unknown
  else
    { chars := sights.foldl (fun chars sight => chars.union sight.chars) .empty
      canEnd := sights.any (·.canEnd) }

/-! ## Choices -/

/-- What can come next after each way out of a state, in order of
preference. -/
def waysOut (a : Automaton) (goal : Nat) (s : State) : List Outlook :=
  let moves := match s.transition with
    | none => []
    | some ⟨.oneOf set, _⟩ => [⟨set, false⟩]
    | some ⟨.look _, target⟩ => [a.outlook goal target]
  let stops := if s.accepting then [⟨.empty, true⟩] else []
  moves ++ stops ++ s.epsilons.map (a.outlook goal)

/-- Whether no two ways have a next character in common, and none but the last
can end.  The characters in `taken` belong to earlier ways. -/
def settled (taken : CharSet) : List Outlook → Bool
  | [] => true
  | way :: ways =>
    (!way.canEnd || ways.isEmpty) && !way.chars.overlaps taken &&
      settled (taken.union way.chars) ways

/-- Whether the next character settles which way leads out of a state. -/
def isSettled (a : Automaton) (goal state : Nat) : Bool :=
  match a.states[state]? with
  | none => false
  | some s => !s.lazy && s.action.isPlain && settled .empty (a.waysOut goal s)

/-- The states to which a state leads, apart from its action.  Nothing leads on
from the goal. -/
def successors (a : Automaton) (goal state : Nat) : List Nat :=
  if state = goal then []
  else
    match a.states[state]? with
    | none => []
    | some s => (s.transition.map (·.target)).toList ++ s.epsilons

/-- Whether the next character settles every choice between `start` and
`goal`. -/
def isDeterministic (a : Automaton) (start goal : Nat) : Bool :=
  (reachable a.states.size (a.successors goal) [start]).all fun state =>
    state == goal || a.isSettled goal state

end Automaton

end RegexEngine
