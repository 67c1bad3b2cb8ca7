import RegexEngine.Search.Registers

/-!
# Stacks of pending work

A search keeps the ways that it has not tried on a stack, together with what has
to be undone before it goes on.  A frame that takes up a way says how many more
states the way may visit.  Handling a frame replaces it by frames of lower rank,
however many, so the work ends: `RankStack.wellFounded` says that the top of a
stack cannot be replaced forever.
-/

namespace RegexEngine

/-- A piece of pending work.  `budget` bounds the number of states to visit. -/
inductive Frame where
  /-- Go on in a state. -/
  | visit (budget state pos : Nat)
  /-- Follow the action or the transition of a state. -/
  | step (budget state pos : Nat)
  /-- Start an iteration of a loop whose body begins in a state. -/
  | enter (budget loop state pos : Nat)
  /-- End the match. -/
  | accept (pos : Nat)
  /-- Put back all slots. -/
  | restoreSlots (slots : Array (Option Slot))
  /-- Put back where the iteration of a loop began. -/
  | restoreLoop (loop : Nat) (start : Option Nat)
deriving Repr

/-- Handling a frame leaves only frames of lower rank. -/
def Frame.rank : Frame → Nat
  | visit budget _ _ => 2 * budget
  | step budget _ _ => 2 * budget + 1
  | enter budget _ _ _ => 2 * budget + 1
  | accept _ => 0
  | restoreSlots _ => 0
  | restoreLoop _ _ => 0

/-- The ranks of the frames on a stack. -/
def RankStack := List Nat

namespace RankStack

/-- The ranks of the given frames. -/
def ofFrames (frames : List Frame) : RankStack :=
  frames.map Frame.rank

/-- Replaces the top of a stack by any number of smaller ranks. -/
def Replaces (new old : RankStack) : Prop :=
  ∃ (k : Nat) (rest smaller : List Nat),
    old = k :: rest ∧ new = smaller ++ rest ∧ ∀ j ∈ smaller, j < k

theorem acc_cons (k : Nat) (rest : List Nat) (h : Acc Replaces rest) :
    Acc Replaces (k :: rest : List Nat) := by
  induction k using Nat.strongRecOn generalizing rest with
  | ind k ih =>
    constructor
    rintro new ⟨k', rest', smaller, hold, rfl, hlt⟩
    cases hold
    induction smaller with
    | nil => exact h
    | cons j js ihjs =>
      exact ih j (hlt j (by simp)) _ (ihjs fun i hi => hlt i (by simp [hi]))

/-- The top of a stack cannot be replaced forever. -/
theorem wellFounded : WellFounded Replaces :=
  ⟨fun stack => by
    induction stack with
    | nil => exact ⟨_, fun _ ⟨_, _, _, hold, _⟩ => by cases hold⟩
    | cons k rest ih => exact acc_cons k rest ih⟩

instance : WellFoundedRelation RankStack := ⟨Replaces, wellFounded⟩

theorem replaces_ofFrames {frame : Frame} {new rest : List Frame}
    (h : ∀ g ∈ new, g.rank < frame.rank) :
    Replaces (ofFrames (new ++ rest)) (ofFrames (frame :: rest)) :=
  ⟨frame.rank, rest.map Frame.rank, new.map Frame.rank, rfl, List.map_append, by simpa⟩

end RankStack

end RegexEngine
