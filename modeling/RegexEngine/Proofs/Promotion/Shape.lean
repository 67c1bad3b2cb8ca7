import RegexEngine.Proofs.Dfa.Reading

/-!
# What does not depend on deterministic automata

Which choices are settled, and which paths there are, does not depend on whether captures
run on deterministic automata: it is the same for automata of the same shape.
-/

namespace RegexEngine

/-- An action, but for the deterministic automaton that a capture runs. -/
def Action.shape : Action → Action
  | capture slot body close _ => capture slot body close Option.none
  | action => action

namespace Automaton

/-- A state, but for the deterministic automaton that a capture runs. -/
def State.shape (s : State) : State :=
  { s with action := s.action.shape }

/-- Two automata differ only in the deterministic automata that captures run. -/
def SameShape (a b : Automaton) : Prop :=
  b.states.map State.shape = a.states.map State.shape

variable {a b : Automaton} {goal : Nat} {s : State}

theorem State.sight_shape (s : State) (after : Bool) : s.shape.sight after = s.sight after := by
  unfold State.shape State.sight Action.shape
  cases s.action <;> rfl

theorem State.isPlain_shape (s : State) : s.shape.action.isPlain = s.action.isPlain := by
  unfold State.shape Action.shape
  cases s.action <;> rfl

theorem SameShape.symm (h : a.SameShape b) : b.SameShape a :=
  Eq.symm h

theorem SameShape.size_eq (h : a.SameShape b) : b.states.size = a.states.size := by
  have hsize := congrArg Array.size h
  simpa using hsize

/-- The states of two automata of one shape have one shape. -/
theorem SameShape.map_eq (h : a.SameShape b) {α : Type} {f : State → α} (hf : ∀ s, f s.shape = f s)
    (id : Nat) : b.states[id]?.map f = a.states[id]?.map f := by
  have hmap (states : Array State) : states[id]?.map f = (states.map State.shape)[id]?.map f := by
    rw [Array.getElem?_map, Option.map_map]
    exact congrArg (Option.map · _) (funext fun s => (hf s).symm)
  rw [hmap b.states, hmap a.states, show b.states.map State.shape = a.states.map State.shape from h]

/-- What only depends on the shape of a state is the same. -/
theorem SameShape.match_eq (h : a.SameShape b) {α : Type} {f : State → α}
    (hf : ∀ s, f s.shape = f s) (id : Nat) (none : α) :
    (match b.states[id]? with
      | .none => none
      | some s => f s) = match a.states[id]? with
      | .none => none
      | some s => f s := by
  have hmap := h.map_eq hf id
  cases ha : a.states[id]? <;> cases hb : b.states[id]? <;> simp_all

theorem SameShape.walkSight_eq (h : a.SameShape b) : b.walkSight = a.walkSight := by
  funext node
  exact h.match_eq (fun s => s.sight_shape _) _ _

theorem SameShape.outlook_eq (h : a.SameShape b) (goal : Nat) :
    b.outlook goal = a.outlook goal := by
  funext state
  unfold outlook walkNext
  rw [h.walkSight_eq, h.size_eq]

theorem SameShape.waysOut_eq (h : a.SameShape b) (goal : Nat) :
    b.waysOut goal = a.waysOut goal := by
  funext s
  unfold waysOut
  rw [h.outlook_eq]

theorem SameShape.isSettled_eq (h : a.SameShape b) (goal : Nat) :
    b.isSettled goal = a.isSettled goal := by
  funext state
  unfold isSettled
  rw [h.waysOut_eq]
  refine h.match_eq (fun s => ?_) _ _
  rw [s.isPlain_shape]
  rfl

theorem SameShape.successors_eq (h : a.SameShape b) (goal : Nat) :
    b.successors goal = a.successors goal := by
  funext state
  unfold successors
  split
  · rfl
  · exact h.match_eq (fun _ => rfl) _ _

/-- The same choices are settled. -/
theorem SameShape.isDeterministic_eq (h : a.SameShape b) (start goal : Nat) :
    b.isDeterministic start goal = a.isDeterministic start goal := by
  unfold isDeterministic
  rw [h.successors_eq, h.isSettled_eq, h.size_eq]

/-- There is a state with the same transition and the same epsilons. -/
theorem SameShape.exists_state (h : a.SameShape b) {id : Nat} (hstate : a.states[id]? = some s) :
    ∃ s', b.states[id]? = some s' ∧ s'.transition = s.transition ∧ s'.epsilons = s.epsilons := by
  have hmap := h.map_eq (f := fun s => (s.transition, s.epsilons)) (fun _ => rfl) id
  rw [hstate, Option.map_some] at hmap
  obtain ⟨s', hstate', heq⟩ := Option.map_eq_some_iff.1 hmap
  exact ⟨s', hstate', congrArg Prod.fst heq, congrArg Prod.snd heq⟩

/-- There are the same paths. -/
theorem Reads.of_sameShape (h : a.SameShape b) {text : Subject} {id pos stop : Nat}
    (hreads : a.Reads text goal id pos stop) : b.Reads text goal id pos stop := by
  induction hreads with
  | goal pos => exact .goal pos
  | epsilon hgoal hstate htarget _ ih =>
    obtain ⟨s', hstate', -, hepsilons⟩ := h.exists_state hstate
    exact .epsilon hgoal hstate' (hepsilons ▸ htarget) ih
  | look hgoal hstate htransition hlook _ ih =>
    obtain ⟨s', hstate', htransition', -⟩ := h.exists_state hstate
    exact .look hgoal hstate' (htransition'.trans htransition) hlook ih
  | char hgoal hstate htransition hchar htest _ ih =>
    obtain ⟨s', hstate', htransition', -⟩ := h.exists_state hstate
    exact .char hgoal hstate' (htransition'.trans htransition) hchar htest ih

theorem SameShape.reads_iff (h : a.SameShape b) {text : Subject} {id pos stop : Nat} :
    b.Reads text goal id pos stop ↔ a.Reads text goal id pos stop :=
  ⟨.of_sameShape h.symm, .of_sameShape h⟩

end Automaton

end RegexEngine
