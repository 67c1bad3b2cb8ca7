import RegexEngine.Dfa.Basic
import RegexEngine.Pattern.Basic

/-!
# Automata

An `Automaton` has numbered states.  A state leads on by an action, by a
transition that consumes one character or asserts something, or by epsilons,
which consume nothing and are tried in order.  Parts of a pattern that are
matched on their own, such as the body of a lookaround, are fragments with
their own start and accepting state.

The text of a group is recorded in a slot.  Slots are shared by all copies of a
group that repetition makes, and by all groups of one name.
-/

namespace RegexEngine

/-- What a transition asks for. -/
inductive Guard where
  /-- One character of the set. -/
  | oneOf (set : CharSet)
  /-- That the assertion holds here. -/
  | look (look : Look)
deriving DecidableEq, Repr

/-- A way from a state to another one. -/
structure Transition where
  /-- What it asks for. -/
  guard : Guard
  /-- Where it leads. -/
  target : Nat
deriving DecidableEq, Repr

/-- What a state does before it leads on.  A state with an action other than
`none` leads where its action says. -/
inductive Action where
  /-- Nothing: the state leads on by its transition or its epsilons. -/
  | none
  /-- Consumes the characters.  The transition of the state starts a chain of
  transitions that consumes the same. -/
  | text (chars : List Char) (next : Nat)
  /-- Opens a slot and goes on with the body, or runs a deterministic automaton
  over the body and goes on where the slot is closed. -/
  | capture (slot body close : Nat) (dfa : Option Nat)
  /-- Closes a slot. -/
  | captureClose (slot next : Nat)
  /-- Consumes the text of a group once more. -/
  | reference (group : GroupKey) (slot : Option Nat) (ignoreCase : Bool) (next : Nat)
  /-- Goes on if a fragment matches on one side, or if it does not. -/
  | lookAround (direction : Direction) (negated : Bool) (fragment next : Nat)
  /-- Consumes the first match of a fragment. -/
  | atomic (fragment next : Nat)
  /-- Consumes first matches of a fragment, one after the other. -/
  | possessive (fragment min : Nat) (max : Option Nat) (next : Nat)
  /-- Consumes the longest match of a deterministic automaton. -/
  | dfa (dfa next : Nat)
deriving DecidableEq, Repr

/-- Whether the transition and the epsilons of a state say all that the state
can do. -/
def Action.isPlain : Action → Bool
  | .none | .text _ _ => true
  | _ => false

namespace Automaton

/-- A state of an automaton. -/
structure State where
  /-- What the state does. -/
  action : Action := .none
  /-- A way that asks for something. -/
  transition : Option Transition := none
  /-- The ways that ask for nothing, in order of preference, or in reverse
  order if the state is lazy. -/
  epsilons : List Nat := []
  /-- Whether a match may end here. -/
  accepting : Bool := false
  /-- Whether the last epsilon is preferred. -/
  lazy : Bool := false
  /-- The loop of which this is the head.  Its first epsilon starts a new
  iteration. -/
  loopHead : Option Nat := none
  /-- The loop of which this ends an iteration.  An iteration that consumed
  nothing fails here. -/
  loopBack : Option Nat := none
deriving DecidableEq, Repr, Inhabited

/-- A part of an automaton that is matched on its own. -/
structure Fragment where
  /-- The first state. -/
  start : Nat
  /-- The only accepting state. -/
  accept : Nat
  /-- A deterministic automaton with the same matches. -/
  dfa : Option Nat := none
  /-- Whether the fragment has groups. -/
  captures : Bool
deriving DecidableEq, Repr

/-- A part of an automaton that may run on a deterministic automaton. -/
inductive Region where
  /-- The body of the capture that a state opens. -/
  | capture (state : Nat)
  /-- A fragment. -/
  | fragment (id : Nat)
deriving DecidableEq, Repr

end Automaton

/-- An automaton for a pattern. -/
structure Automaton where
  /-- The states, by number. -/
  states : Array Automaton.State
  /-- The fragments, by number. -/
  fragments : Array Automaton.Fragment
  /-- The deterministic automata, by number. -/
  dfas : Array Dfa
  /-- The regions, an inner one before an outer one. -/
  regions : List Automaton.Region
  /-- The number of slots.  Slot 0 belongs to the whole match and is not
  used. -/
  slotCount : Nat
  /-- The slots of the groups that have a number. -/
  groups : Array Nat
  /-- The slots of the groups that have a name. -/
  names : List (String × Nat)
  /-- The number of loops. -/
  loopCount : Nat
  /-- The first state of the pattern. -/
  start : Nat
  /-- The accepting state of the pattern. -/
  accept : Nat
  /-- Where a match begins: at `start`, or at a state that runs a deterministic
  automaton for the whole pattern. -/
  entry : Nat

namespace Automaton

/-- The number of groups that have a number, without group 0. -/
def groupCount (a : Automaton) : Nat :=
  a.groups.size - 1

/-- The slot of a group. -/
def slot? (a : Automaton) : GroupKey → Option Nat
  | .index n => a.groups[n]?
  | .name s => a.names.lookup s

/-- Whether the whole pattern runs on one deterministic automaton. -/
def isPromoted (a : Automaton) : Bool :=
  a.entry != a.start

end Automaton

end RegexEngine
