import RegexEngine.Dfa.Subset
import RegexEngine.Proofs.Reachability
import RegexEngine.Proofs.Text.Boundary

/-!
# Paths through a part of an automaton

`Automaton.Reads` is what a deterministic automaton has to find: the paths from a
state to a goal, over epsilons, characters of the subject and assertions that
hold.

* `Dfa.reads_closure_iff` says that adding what epsilons lead to changes nothing.
* `Dfa.reads_states_iff` takes the paths from a set of states apart: one ends at
  once, if assertions and epsilons lead to the goal, or reads a character.
-/

namespace RegexEngine

namespace Automaton

/-- There is a path from a state to `goal` that consumes what lies between two
positions.  Nothing leads on from the goal. -/
inductive Reads (a : Automaton) (text : Subject) (goal : Nat) : Nat → Nat → Nat → Prop
  /-- The path ends at the goal. -/
  | goal (pos : Nat) : Reads a text goal goal pos pos
  /-- An epsilon consumes nothing. -/
  | epsilon {state target pos stop : Nat} {s : State} (hgoal : state ≠ goal)
      (hstate : a.states[state]? = some s) (htarget : target ∈ s.epsilons)
      (hrest : Reads a text goal target pos stop) : Reads a text goal state pos stop
  /-- An assertion consumes nothing and has to hold in the subject. -/
  | look {state target pos stop : Nat} {s : State} {look : Look} (hgoal : state ≠ goal)
      (hstate : a.states[state]? = some s) (htransition : s.transition = some ⟨.look look, target⟩)
      (hlook : look.holdsAt text pos) (hrest : Reads a text goal target pos stop) :
      Reads a text goal state pos stop
  /-- A class consumes one of its characters. -/
  | char {state target pos stop : Nat} {s : State} {set : CharSet} {c : Char}
      (hgoal : state ≠ goal) (hstate : a.states[state]? = some s)
      (htransition : s.transition = some ⟨.oneOf set, target⟩)
      (hchar : text.charAt? pos = some c) (htest : set.test c)
      (hrest : Reads a text goal target (pos + c.utf8Size) stop) : Reads a text goal state pos stop

theorem Reads.le {a : Automaton} {text : Subject} {goal state pos stop : Nat}
    (h : a.Reads text goal state pos stop) : pos ≤ stop := by
  induction h with
  | goal pos => exact Nat.le_refl _
  | epsilon _ _ _ _ ih => exact ih
  | look _ _ _ _ _ ih => exact ih
  | char _ _ _ _ _ _ ih => omega

/-- A path leads from one boundary to another. -/
theorem Reads.isBoundary {a : Automaton} {text : Subject} {goal state pos stop : Nat}
    (h : a.Reads text goal state pos stop) (hpos : text.isBoundary pos) :
    text.isBoundary stop := by
  induction h with
  | goal pos => exact hpos
  | epsilon _ _ _ _ ih => exact ih hpos
  | look _ _ _ _ _ ih => exact ih hpos
  | char _ _ _ hchar _ _ ih => exact ih (Subject.isBoundary_add hchar)

end Automaton

namespace Dfa

open Relation Automaton

variable {a : Automaton} {text : Subject} {goal : Nat}

/-! ## What leads on from a state -/

theorem mem_epsilonsOf_iff {state target : Nat} :
    target ∈ epsilonsOf a goal state ↔
      state ≠ goal ∧ ∃ s, a.states[state]? = some s ∧ target ∈ s.epsilons := by
  unfold epsilonsOf
  split
  · simp_all
  · cases h : a.states[state]? <;> simp_all

theorem transitionOf_eq_some_iff {state : Nat} {transition : Transition} :
    transitionOf a goal state = some transition ↔
      state ≠ goal ∧ ∃ s, a.states[state]? = some s ∧ s.transition = some transition := by
  unfold transitionOf
  split
  · simp_all
  · simp_all [Option.bind_eq_some_iff]

theorem mem_assertedOf_iff {before after : Category} {state target : Nat} :
    target ∈ assertedOf a goal before after state ↔
      ∃ look, transitionOf a goal state = some ⟨.look look, target⟩ ∧ look.holds before after := by
  unfold assertedOf
  split
  · rename_i look target' h
    simp only [h, Option.some.injEq, Transition.mk.injEq, Guard.look.injEq,
      List.mem_ite_nil_right, List.mem_singleton]
    constructor
    · rintro ⟨hlook, rfl⟩
      exact ⟨look, ⟨rfl, rfl⟩, hlook⟩
    · rintro ⟨_, ⟨rfl, rfl⟩, hlook⟩
      exact ⟨hlook, rfl⟩
  · rename_i h
    simp only [List.not_mem_nil, false_iff]
    rintro ⟨look, hlook, _⟩
    exact h look target hlook

/-- The moves that consume nothing between two categories. -/
def freeMoves (a : Automaton) (goal : Nat) (before after : Category) (state : Nat) : List Nat :=
  assertedOf a goal before after state ++ epsilonsOf a goal state

/-- The states to which the states lead by the character `c`. -/
def targets (a : Automaton) (goal : Nat) (states : List Nat) (c : Char) : List Nat :=
  states.filterMap fun state =>
    match transitionOf a goal state with
    | some ⟨.oneOf set, target⟩ => if set.test c then some target else none
    | _ => none

theorem mem_targets_iff {states : List Nat} {c : Char} {target : Nat} :
    target ∈ targets a goal states c ↔
      ∃ state ∈ states, ∃ set, transitionOf a goal state = some ⟨.oneOf set, target⟩ ∧
        set.test c := by
  simp only [targets, List.mem_filterMap]
  refine exists_congr fun state => and_congr_right fun _ => ?_
  split
  · rename_i set target' h
    simp only [h, Option.ite_none_right_eq_some, Option.some.injEq, Transition.mk.injEq,
      Guard.oneOf.injEq]
    constructor
    · rintro ⟨htest, rfl⟩
      exact ⟨set, ⟨rfl, rfl⟩, htest⟩
    · rintro ⟨_, ⟨rfl, rfl⟩, htest⟩
      exact ⟨htest, rfl⟩
  · rename_i h
    simp only [reduceCtorEq, false_iff]
    rintro ⟨set, hset, _⟩
    exact h set target hset

/-! ## Paths and moves -/

/-- A path may begin with moves that consume nothing. -/
theorem reads_of_freeMoves {state state' pos stop : Nat}
    (hpath : ReflTransGen (StepBelow a.states.size
      (freeMoves a goal (.before text pos) (.after text pos))) state state')
    (h : a.Reads text goal state' pos stop) : a.Reads text goal state pos stop := by
  induction hpath with
  | refl => exact h
  | tail _ hstep ih =>
    refine ih ?_
    rcases List.mem_append.1 hstep.2 with hasserted | hepsilon
    · obtain ⟨look, htransition, hlook⟩ := mem_assertedOf_iff.1 hasserted
      obtain ⟨hgoal, s, hs, htransition⟩ := transitionOf_eq_some_iff.1 htransition
      exact .look hgoal hs htransition hlook h
    · obtain ⟨hgoal, s, hs, htarget⟩ := mem_epsilonsOf_iff.1 hepsilon
      exact .epsilon hgoal hs htarget h

theorem lt_size_of_getElem? {state : Nat} {s : Automaton.State} (h : a.states[state]? = some s) :
    state < a.states.size :=
  (Array.getElem?_eq_some_iff.1 h).1

/-- A path consists of moves that consume nothing, and then it is at its goal or
reads a character. -/
theorem exists_freeMoves_of_reads {state pos stop : Nat} (h : a.Reads text goal state pos stop) :
    ∃ state', ReflTransGen (StepBelow a.states.size
        (freeMoves a goal (.before text pos) (.after text pos))) state state' ∧
      (state' = goal ∧ stop = pos ∨
        ∃ c set target, text.charAt? pos = some c ∧
          transitionOf a goal state' = some ⟨.oneOf set, target⟩ ∧ set.test c ∧
          a.Reads text goal target (pos + c.utf8Size) stop) := by
  induction h with
  | goal pos => exact ⟨goal, ReflTransGen.refl, Or.inl ⟨rfl, rfl⟩⟩
  | epsilon hgoal hs htarget _ ih =>
    obtain ⟨state', hpath, hend⟩ := ih
    refine ⟨state', ReflTransGen.head ⟨lt_size_of_getElem? hs, ?_⟩ hpath, hend⟩
    exact List.mem_append_right _ (mem_epsilonsOf_iff.2 ⟨hgoal, _, hs, htarget⟩)
  | look hgoal hs htransition hlook _ ih =>
    obtain ⟨state', hpath, hend⟩ := ih
    refine ⟨state', ReflTransGen.head ⟨lt_size_of_getElem? hs, ?_⟩ hpath, hend⟩
    refine List.mem_append_left _ (mem_assertedOf_iff.2 ⟨_, ?_, hlook⟩)
    exact transitionOf_eq_some_iff.2 ⟨hgoal, _, hs, htransition⟩
  | char hgoal hs htransition hchar htest hrest _ =>
    refine ⟨_, ReflTransGen.refl, Or.inr ⟨_, _, _, hchar, ?_, htest, hrest⟩⟩
    exact transitionOf_eq_some_iff.2 ⟨hgoal, _, hs, htransition⟩

theorem lt_size_of_reads (hgoal : goal < a.states.size) {state pos stop : Nat}
    (h : a.Reads text goal state pos stop) : state < a.states.size := by
  cases h with
  | goal => exact hgoal
  | epsilon _ hs _ _ => exact lt_size_of_getElem? hs
  | look _ hs _ _ _ => exact lt_size_of_getElem? hs
  | char _ hs _ _ _ _ => exact lt_size_of_getElem? hs

/-- What epsilons lead to has the same paths. -/
theorem reads_closure_iff (hgoal : goal < a.states.size) {states : List Nat} {pos stop : Nat} :
    (∃ s ∈ closure a goal states, a.Reads text goal s pos stop) ↔
      ∃ s ∈ states, a.Reads text goal s pos stop := by
  constructor
  · rintro ⟨s, hs, h⟩
    obtain ⟨_, s', hs', hpath⟩ := mem_reachable_iff.1 hs
    refine ⟨s', hs', reads_of_freeMoves (ReflTransGen.mono ?_ _ _ hpath) h⟩
    exact fun x y hxy => ⟨hxy.1, List.mem_append_right _ hxy.2⟩
  · rintro ⟨s, hs, h⟩
    exact ⟨s, mem_reachable_iff.2 ⟨lt_size_of_reads hgoal h, s, hs, ReflTransGen.refl⟩, h⟩

/-- A path from one of the states ends at once or reads a character. -/
theorem reads_states_iff (hgoal : goal < a.states.size) {states : List Nat} {pos stop : Nat} :
    (∃ s ∈ states, a.Reads text goal s pos stop) ↔
      (stop = pos ∧
        goal ∈ resolve a goal (.before text pos) (.after text pos) states) ∨
      ∃ c, text.charAt? pos = some c ∧
        ∃ t ∈ targets a goal (resolve a goal (.before text pos) (.of c) states) c,
          a.Reads text goal t (pos + c.utf8Size) stop := by
  constructor
  · rintro ⟨s, hs, h⟩
    obtain ⟨s', hpath, ⟨rfl, rfl⟩ | ⟨c, set, target, hchar, htransition, htest, hrest⟩⟩ :=
      exists_freeMoves_of_reads h
    · exact Or.inl ⟨rfl, mem_reachable_iff.2 ⟨hgoal, s, hs, hpath⟩⟩
    · obtain ⟨_, _, hs', _⟩ := transitionOf_eq_some_iff.1 htransition
      rw [Category.after_of_charAt? hchar] at hpath
      have hmem : s' ∈ resolve a goal (.before text pos) (.of c) states :=
        mem_reachable_iff.2 ⟨lt_size_of_getElem? hs', s, hs, hpath⟩
      exact Or.inr ⟨c, hchar, target, mem_targets_iff.2 ⟨s', hmem, set, htransition, htest⟩, hrest⟩
  · rintro (⟨rfl, hmem⟩ | ⟨c, hchar, t, ht, hrest⟩)
    · obtain ⟨_, s, hs, hpath⟩ := mem_reachable_iff.1 hmem
      exact ⟨s, hs, reads_of_freeMoves hpath (.goal stop)⟩
    · obtain ⟨s', hs', set, htransition, htest⟩ := mem_targets_iff.1 ht
      obtain ⟨_, s, hs, hpath⟩ := mem_reachable_iff.1 hs'
      rw [← Category.after_of_charAt? hchar] at hpath
      obtain ⟨hne, st, hst, htransition⟩ := transitionOf_eq_some_iff.1 htransition
      exact ⟨s, hs, reads_of_freeMoves hpath (.char hne hst htransition hchar htest hrest)⟩

end Dfa

end RegexEngine
