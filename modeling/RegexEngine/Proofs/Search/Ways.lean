import RegexEngine.Search.Run

/-!
# The ways out of a state
-/

namespace RegexEngine.Automaton

variable {s : State} {mayEnd : Bool} {next : Nat} {loop : Option Nat}

/-- A state leads on by its transition or its action, if it has any. -/
theorem step_mem_ways : .step ∈ s.ways mayEnd ↔ s.transition.isSome || s.action != .none := by
  have hepsilon : Way.step ∉ s.epsilonWays := fun h => by
    obtain ⟨_, _, h⟩ := List.mem_map.1 h
    cases h
  unfold State.ways
  cases s.lazy <;> simp [hepsilon]

/-- A match may end in an accepting state. -/
theorem accept_mem_ways : .accept ∈ s.ways mayEnd ↔ s.accepting ∧ mayEnd := by
  have hepsilon : Way.accept ∉ s.epsilonWays := fun h => by
    obtain ⟨_, _, h⟩ := List.mem_map.1 h
    cases h
  unfold State.ways
  cases s.lazy <;> simp [hepsilon]

/-- The ways along epsilons do not depend on where the match may end. -/
theorem epsilon_mem_ways :
    .epsilon next loop ∈ s.ways mayEnd ↔ .epsilon next loop ∈ s.epsilonWays := by
  unfold State.ways
  cases s.lazy <;> simp

/-- A way along an epsilon is one of the epsilons of the state. -/
theorem mem_epsilons_of_mem_ways (h : .epsilon next loop ∈ s.ways mayEnd) :
    next ∈ s.epsilons ∧ loop = if s.epsilons.head? = some next then s.loopHead else none := by
  obtain ⟨next', hnext, heq⟩ := List.mem_map.1 (epsilon_mem_ways.1 h)
  cases heq
  exact ⟨hnext, rfl⟩

end RegexEngine.Automaton
