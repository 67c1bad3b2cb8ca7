import RegexEngine.Automaton.Compile
import RegexEngine.Dfa.Subset

/-!
# Running on deterministic automata

A region of an automaton whose choices are settled by the next character has
the same matches on a deterministic automaton.  `Automaton.promote` makes one
for every such region, an inner one before an outer one, and for the whole
pattern if it is such a region itself.

`Automaton.ofPattern` is the automaton of a pattern with all that promoted, and
`Dfa.ofPattern` is the deterministic automaton of a whole pattern.
-/

namespace RegexEngine

namespace Automaton

/-- Adds the deterministic automaton of the part from `start` to `goal`. -/
def addDfa (a : Automaton) (start goal : Nat) : Automaton :=
  { a with dfas := a.dfas.push (Dfa.ofPart a start goal) }

/-- Lets a region run on a deterministic automaton, if it may. -/
def promoteRegion (a : Automaton) : Region → Automaton
  | .capture state =>
    match a.states[state]?.map State.action with
    | some (Action.capture slot body close _) =>
      if a.isDeterministic body close then
        let action := .capture slot body close (some a.dfas.size)
        { a.addDfa body close with
          states := a.states.modify state fun s => { s with action } }
      else a
    | _ => a
  | .fragment id =>
    match a.fragments[id]? with
    | some fragment =>
      if a.isDeterministic fragment.start fragment.accept then
        { a.addDfa fragment.start fragment.accept with
          fragments := a.fragments.modify id fun f => { f with dfa := some a.dfas.size } }
      else a
    | none => a

/-- Lets the whole pattern run on a deterministic automaton, if it may. -/
def promoteWhole (a : Automaton) : Automaton :=
  if a.isDeterministic a.start a.accept then
    { a.addDfa a.start a.accept with
      states := a.states.push { action := .dfa a.dfas.size a.accept }
      entry := a.states.size }
  else a

/-- Lets all that may run on deterministic automata. -/
def promote (a : Automaton) : Automaton :=
  (a.regions.foldl promoteRegion a).promoteWhole

/-- The automaton of a pattern. -/
def ofPattern (options : Options) (pattern : Pattern) : Except PatternError Automaton :=
  (compile options pattern).map promote

end Automaton

/-- The deterministic automaton of a pattern. -/
def Dfa.ofPattern (options : Options) (pattern : Pattern) : Except PatternError Dfa := do
  let a ← Automaton.compile options pattern
  if a.isDeterministic a.start a.accept then return .ofPart a a.start a.accept
  else throw .notRegular

end RegexEngine
