/-!
# Faults

A fault says that an operation has no answer at all, which is different from
answering "no match".  Offsets, state numbers and registers come from callers,
so an operation that cannot use them as they are stops with the cause.
-/

namespace RegexEngine

/-- Why an operation has no answer. -/
inductive Fault where
  /-- A piece of text was asked for whose ends are not boundaries of it, or are
  in the wrong order. -/
  | badSlice (start stop : Nat)
  /-- The automaton has no state of this number. -/
  | missingState
  /-- There is no capture slot or loop record of this number. -/
  | missingRegister
  /-- The search went deeper than its bound. -/
  | tooDeep
deriving DecidableEq, Repr

/-- Offsets and counts are numbers below this bound: they have 64 bits. -/
def sizeLimit : Nat :=
  0x10000000000000000

end RegexEngine
