import RegexEngine.Automaton.Determinism

/-!
# Deterministic automata by subset construction

A state of the deterministic automaton stands for the set of the states in
which a part of an `Automaton` can be.  If one of them has an assertion, the
category of the character before is kept with the set.  The category of the
character after is known when the transitions of the state are made.

* `Dfa.closure` and `Dfa.resolve` add what can be reached without consuming
  anything.
* `Dfa.partition` splits the characters by where they lead.
* `Dfa.ofPart` makes the whole automaton.
-/

namespace RegexEngine

namespace Dfa

/-! ## Sets of states -/

/-- The states to which epsilons lead from a state before the goal. -/
def epsilonsOf (a : Automaton) (goal state : Nat) : List Nat :=
  if state = goal then []
  else
    match a.states[state]? with
    | none => []
    | some s => s.epsilons

/-- The transition of a state before the goal. -/
def transitionOf (a : Automaton) (goal state : Nat) : Option Transition :=
  if state = goal then none else a.states[state]?.bind (·.transition)

/-- The states that can be reached by epsilons. -/
def closure (a : Automaton) (goal : Nat) (states : List Nat) : List Nat :=
  reachable a.states.size (epsilonsOf a goal) states

/-- The state to which an assertion leads, if it holds between the two
categories. -/
def assertedOf (a : Automaton) (goal : Nat) (before after : Category) (state : Nat) :
    List Nat :=
  match transitionOf a goal state with
  | some ⟨.look look, target⟩ => if look.holds before after then [target] else []
  | _ => []

/-- The states that can be reached by epsilons and by assertions that hold
between the two categories. -/
def resolve (a : Automaton) (goal : Nat) (before after : Category) (states : List Nat) :
    List Nat :=
  reachable a.states.size
    (fun state => assertedOf a goal before after state ++ epsilonsOf a goal state) states

/-- Whether one of the states has an assertion. -/
def hasLook (a : Automaton) (goal : Nat) (states : List Nat) : Bool :=
  states.any fun state =>
    match transitionOf a goal state with
    | some ⟨.look _, _⟩ => true
    | _ => false

/-! ## Splitting the characters -/

/-- Lets the characters of `set` lead to `target` too.  The sets of the pieces
are disjoint and stay so. -/
def refine (target : Nat) (set : CharSet) :
    List (CharSet × List Nat) → List (CharSet × List Nat)
  | [] => if set.isEmpty then [] else [(set, [target])]
  | (piece, targets) :: pieces =>
    let common := piece.inter set
    if common.isEmpty then (piece, targets) :: refine target set pieces
    else
      let outside := piece.diff set
      (if outside.isEmpty then [] else [(outside, targets)]) ++
        (common, targets.insert target) :: refine target (set.diff piece) pieces

/-- The sets of characters that lead to the same states, and these states.  Only
the members of `within` count, if it is given. -/
def partition (a : Automaton) (goal : Nat) (within : Option CharSet) (states : List Nat) :
    List (CharSet × List Nat) :=
  states.foldl (fun pieces state =>
    match transitionOf a goal state with
    | some ⟨.oneOf set, target⟩ =>
      refine target (match within with
        | some within => set.inter within
        | none => set) pieces
    | _ => pieces) []

/-- Adds a transition, joining it with one that leads to the same state. -/
def addTransition (transitions : List (CharSet × Nat)) (set : CharSet) (target : Nat) :
    List (CharSet × Nat) :=
  match transitions with
  | [] => [(set, target)]
  | (other, target') :: transitions =>
    if target' = target then (other.union set, target') :: transitions
    else (other, target') :: addTransition transitions set target

/-- Joins the transitions that lead to the same state. -/
def mergeTargets (transitions : List (CharSet × Nat)) : List (CharSet × Nat) :=
  transitions.foldl (fun merged (set, target) => addTransition merged set target) []

/-! ## The construction -/

/-- What a state of the deterministic automaton stands for. -/
structure Key where
  /-- The states, in ascending order. -/
  states : List Nat
  /-- The category of the character before, if one of the states has an
  assertion. -/
  before : Option Category
deriving DecidableEq, Repr

/-- What has been constructed so far. -/
structure Draft where
  /-- What each state stands for. -/
  keys : Array Key := #[]
  /-- The states.  One that is pending has no transitions yet. -/
  states : Array State := #[]
  /-- The states that have to be made, the next one first. -/
  pending : List Nat := []

/-- The number of the state that stands for the states of `a` after a character
of category `before`. -/
def intern (a : Automaton) (goal : Nat) (states : List Nat) (before : Category) :
    StateM Draft Nat := fun d =>
  let key : Key := ⟨states, if hasLook a goal states then some before else none⟩
  match d.keys.idxOf? key with
  | some id => (id, d)
  | none =>
    let id := d.keys.size
    (id, { keys := d.keys.push key, states := d.states.push {}, pending := id :: d.pending })

/-- The transitions for the characters of a piece, one for each category that
has to be told apart. -/
def pieceTransitions (a : Automaton) (goal : Nat) :
    CharSet × List Nat → StateM Draft (List (CharSet × Nat))
  | (piece, targets) => do
    let next := closure a goal targets
    if hasLook a goal next then
      let parts := Category.ofCharacters.map fun category =>
        (category, piece.inter category.members)
      (parts.filter fun (_, part) => !part.isEmpty).mapM fun (category, part) =>
        return (part, ← intern a goal next category)
    else
      return [(piece, ← intern a goal next .other)]

/-- The state that stands for states without assertions. -/
def plainState (a : Automaton) (goal : Nat) (states : List Nat) : StateM Draft State := do
  let transitions ← (partition a goal none states).mapM (pieceTransitions a goal)
  return {
    transitions := mergeTargets transitions.flatten
    accepting := .ofFn fun _ => states.contains goal }

/-- The transitions for the next characters of one category. -/
def categoryTransitions (a : Automaton) (goal : Nat) (states : List Nat)
    (before category : Category) : StateM Draft (List (CharSet × Nat)) :=
  let resolved := resolve a goal before category states
  (partition a goal (some category.members) resolved).mapM fun (piece, targets) =>
    return (piece, ← intern a goal (closure a goal targets) category)

/-- The state that stands for states with assertions after a character of
category `before`. -/
def lookingState (a : Automaton) (goal : Nat) (states : List Nat) (before : Category) :
    StateM Draft State := do
  let transitions ←
    Category.ofCharacters.mapM (categoryTransitions a goal states before)
  return {
    transitions := mergeTargets transitions.flatten
    accepting := .ofFn fun after => (resolve a goal before after states).contains goal }

/-- The state of a key. -/
def keyState (a : Automaton) (goal : Nat) (key : Key) : StateM Draft State :=
  match key.before with
  | none => plainState a goal key.states
  | some before => lookingState a goal key.states before

/-- Makes pending states until there is none or `fuel` of them are made. -/
def complete (a : Automaton) (goal : Nat) : Nat → Draft → Draft
  | 0, d => d
  | fuel + 1, d =>
    match d.pending with
    | [] => d
    | id :: pending =>
      match d.keys[id]? with
      | none => d
      | some key =>
        let (s, d) := keyState a goal key { d with pending }
        complete a goal fuel { d with states := d.states.setIfInBounds id s }

/-- The first states. -/
def seed (a : Automaton) (start goal : Nat) : StateM Draft (PerCategory Nat) := do
  let states := closure a goal [start]
  let edge ← intern a goal states .edge
  let word ← intern a goal states .word
  let lineTerminator ← intern a goal states .lineTerminator
  let other ← intern a goal states .other
  return { edge, word, lineTerminator, other }

/-- The deterministic automaton of the part of `a` from `start` to `goal`.  There
are no more keys than sets of states, with or without a category, which bounds
the work. -/
def ofPart (a : Automaton) (start goal : Nat) : Dfa :=
  let (roots, d) := seed a start goal {}
  { states := (complete a goal (5 * Nat.pow 2 a.states.size) d).states, roots }

end Dfa

end RegexEngine
