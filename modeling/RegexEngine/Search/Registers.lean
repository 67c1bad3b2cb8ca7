import RegexEngine.Automaton.Basic

/-!
# Registers

A search remembers where groups have been opened and closed, and where the
current iteration of each loop began.  `Registers` hold that, one slot for each
group and one record for each loop.

A `Search` is a step of a search.  It reads and changes registers, and it may
have no answer.  What it changed is lost then.
-/

namespace RegexEngine

/-- What is recorded of a group: where it was opened, and where it was closed
since. -/
structure Slot where
  /-- Where the group was opened. -/
  start : Nat
  /-- Where it was closed. -/
  stop : Option Nat := none
deriving DecidableEq, Repr

/-- The offsets of a group that has been closed. -/
def Slot.span (s : Slot) : Option (Nat × Nat) :=
  s.stop.map fun stop => (s.start, stop)

/-- What a search remembers. -/
structure Registers where
  /-- The slots of the groups. -/
  slots : Array (Option Slot) := #[]
  /-- Where the current iteration of each loop began. -/
  loops : Array (Option Nat) := #[]
deriving DecidableEq, Repr

namespace Registers

/-- The registers in which nothing is recorded. -/
def fresh (a : Automaton) : Registers where
  slots := Array.replicate a.slotCount none
  loops := Array.replicate a.loopCount none

/-- The offsets of a slot that has been closed. -/
def span? (r : Registers) (slot : Nat) : Option (Nat × Nat) :=
  r.slots[slot]?.join.bind Slot.span

end Registers

/-- A step of a search. -/
abbrev Search := StateT Registers (Except Fault)

namespace Search

/-- The content of a slot. -/
def slot (id : Nat) : Search (Option Slot) := do
  match (← get).slots[id]? with
  | some slot => return slot
  | none => throw .missingRegister

/-- Writes a slot. -/
def setSlot (id : Nat) (slot : Option Slot) : Search Unit := do
  let r ← get
  if id < r.slots.size then set { r with slots := r.slots.setIfInBounds id slot }
  else throw .missingRegister

/-- Where the current iteration of a loop began. -/
def iteration (id : Nat) : Search (Option Nat) := do
  match (← get).loops[id]? with
  | some start => return start
  | none => throw .missingRegister

/-- Records where the current iteration of a loop began. -/
def setIteration (id : Nat) (start : Option Nat) : Search Unit := do
  let r ← get
  if id < r.loops.size then set { r with loops := r.loops.setIfInBounds id start }
  else throw .missingRegister

/-- Puts back all slots. -/
def restore (slots : Array (Option Slot)) : Search Unit :=
  modify fun r => { r with slots }

/-- A step that does two things has an answer if both have. -/
theorem bind_eq_ok {α β : Type} {x : Search α} {f : α → Search β} {r r' : Registers}
    {b : β} :
    (x >>= f) r = .ok (b, r') ↔ ∃ a s, x r = .ok (a, s) ∧ f a s = .ok (b, r') := by
  show Except.bind (x r) (fun p => f p.1 p.2) = .ok (b, r') ↔ _
  cases x r with
  | error e => simp [Except.bind]
  | ok p => exact ⟨fun h => ⟨p.1, p.2, rfl, h⟩, fun ⟨_, _, hp, h⟩ => by cases hp; exact h⟩

/-- A step that does nothing. -/
theorem pure_eq_ok {α : Type} {a b : α} {r r' : Registers} :
    (pure a : Search α) r = .ok (b, r') ↔ a = b ∧ r = r' := by
  show (Except.ok (a, r) : Except Fault (α × Registers)) = .ok (b, r') ↔ _
  simp

end Search

end RegexEngine
