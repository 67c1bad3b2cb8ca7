import Mathlib.Data.List.Pairwise
import RegexEngine.Proofs.Choice.Sight
import RegexEngine.Proofs.Dfa.Reading

/-!
# Regions in which the next character settles every choice

* `Automaton.Foreseen` says it of the states between a start and a goal.
* `sees_of_reads` and `free_of_reads` say what a path through the region means for what is seen.
* `not_sees_of_cycle` says that nothing is seen from a state to which one can come back
  without consuming anything: the ways out of such a state would have everything in common.
-/

namespace RegexEngine

namespace Automaton

open Relation

/-- The next character settles every choice between some states and a goal.  No match ends
in them. -/
structure Foreseen (a : Automaton) (goal : Nat) (inside : Nat → Prop) : Prop where
  /-- The choices are settled. -/
  settled : ∀ id, inside id → id ≠ goal → ∃ s, a.states[id]? = some s ∧ s.lazy = false ∧
    s.accepting = false ∧ s.action.isPlain ∧ (a.waysOut goal s).Pairwise Outlook.Apart
  /-- States lead to states of the region. -/
  closed : ∀ id s target, inside id → id ≠ goal → a.states[id]? = some s →
    (∃ guard, s.transition = some ⟨guard, target⟩) ∨ target ∈ s.epsilons → inside target

/-- A state before the goal leads to another one without consuming anything. -/
def Free (a : Automaton) (goal id target : Nat) : Prop :=
  id ≠ goal ∧ ∃ s, a.states[id]? = some s ∧
    (target ∈ s.epsilons ∨ ∃ look, s.transition = some ⟨.look look, target⟩)

variable {a : Automaton} {goal id target : Nat} {inside : Nat → Prop} {next : Option Char}
  {text : Subject} {pos stop : Nat}

/-- A class shows its characters. -/
theorem sight_of_oneOf {s : State} {set : CharSet} {target : Nat} (hplain : s.action.isPlain)
    (h : s.transition = some ⟨.oneOf set, target⟩) (after : Bool) :
    s.sight after = { chars := set, canEnd := s.accepting, next := s.epsilons } := by
  unfold State.sight
  cases haction : s.action with
  | none => simp [h]
  | text chars next => simp [h]
  | _ => simp [haction, Action.isPlain] at hplain

/-- An assertion hides what is behind it, once the goal has been reached. -/
theorem sight_of_look {s : State} {look : Look} {target : Nat} (hplain : s.action.isPlain)
    (h : s.transition = some ⟨.look look, target⟩) (after : Bool) :
    s.sight after = { hidden := after, canEnd := s.accepting, next := target :: s.epsilons } := by
  unfold State.sight
  cases haction : s.action with
  | none => simp [h]
  | text chars next => simp [h]
  | _ => simp [haction, Action.isPlain] at hplain

/-- What a state contributes before the goal. -/
theorem sight_before {s : State} (hplain : s.action.isPlain) :
    s.sight false = match s.transition with
      | none => { canEnd := s.accepting, next := s.epsilons }
      | some ⟨.oneOf set, _⟩ => { chars := set, canEnd := s.accepting, next := s.epsilons }
      | some ⟨.look _, target⟩ => { canEnd := s.accepting, next := target :: s.epsilons } := by
  unfold State.sight
  cases haction : s.action with
  | none => rfl
  | text chars next => rfl
  | _ => simp [haction, Action.isPlain] at hplain

theorem not_after (h : id ≠ goal) : (false || id == goal) = false := by
  simpa using h

namespace Foreseen

variable (h : a.Foreseen goal inside)

include h

theorem inside_of_free (hid : inside id) (hfree : a.Free goal id target) : inside target := by
  obtain ⟨hgoal, s, hstate, htarget⟩ := hfree
  refine h.closed id s target hid hgoal hstate ?_
  rcases htarget with htarget | ⟨look, htarget⟩
  · exact .inr htarget
  · exact .inl ⟨_, htarget⟩

/-- What is seen behind a state is seen from it. -/
theorem sees_of_free (hid : inside id) (hfree : a.Free goal id target)
    (hsees : a.Sees goal false target next) : a.Sees goal false id next := by
  obtain ⟨hgoal, s, hstate, htarget⟩ := hfree
  obtain ⟨s', hstate', -, -, hplain, -⟩ := h.settled id hid hgoal
  obtain rfl := Option.some.inj (hstate'.symm.trans hstate)
  have hsight := sight_before hplain
  have hrest : a.Sees goal (false || id == goal) target next := by rwa [not_after hgoal]
  refine .behind hstate ?_ ?_ hrest
  · rw [not_after hgoal, hsight]
    split <;> rfl
  · rw [not_after hgoal, hsight]
    rcases htarget with htarget | ⟨look, htarget⟩
    · split <;> simp [htarget]
    · simp [htarget]

theorem sees_of_path (hid : inside id) (hpath : ReflTransGen (a.Free goal) id target)
    (hsees : a.Sees goal false target next) : a.Sees goal false id next := by
  induction hpath using ReflTransGen.head_induction_on with
  | refl => exact hsees
  | head hfree _ ih => exact h.sees_of_free hid hfree (ih (h.inside_of_free hid hfree))

/-- A class shows its characters. -/
theorem sees_of_char {s : State} {set : CharSet} {c : Char} (hid : inside id) (hgoal : id ≠ goal)
    (hstate : a.states[id]? = some s) (htransition : s.transition = some ⟨.oneOf set, target⟩)
    (htest : set.test c) : a.Sees goal false id (some c) := by
  obtain ⟨s', hstate', -, -, hplain, -⟩ := h.settled id hid hgoal
  obtain rfl := Option.some.inj (hstate'.symm.trans hstate)
  refine .here hstate ?_
  rw [not_after hgoal, sight_before hplain, htransition]
  simp [Sight.shows, htest]

/-- A path that consumes something begins with a character that is seen. -/
theorem sees_of_reads (hid : inside id) (hreads : a.Reads text goal id pos stop)
    (hlt : pos < stop) :
    ∃ c, text.charAt? pos = some c ∧ a.Sees goal false id (some c) := by
  induction hreads with
  | goal pos => omega
  | @epsilon id target pos stop s hgoal hstate htarget _ ih =>
    have hfree : a.Free goal id target := ⟨hgoal, s, hstate, .inl htarget⟩
    obtain ⟨c, hc, hsees⟩ := ih (h.inside_of_free hid hfree) hlt
    exact ⟨c, hc, h.sees_of_free hid hfree hsees⟩
  | @look id target pos stop s look hgoal hstate htransition _ _ ih =>
    have hfree : a.Free goal id target := ⟨hgoal, s, hstate, .inr ⟨look, htransition⟩⟩
    obtain ⟨c, hc, hsees⟩ := ih (h.inside_of_free hid hfree) hlt
    exact ⟨c, hc, h.sees_of_free hid hfree hsees⟩
  | @char id target pos stop s set c hgoal hstate htransition hc htest _ _ =>
    exact ⟨c, hc, h.sees_of_char hid hgoal hstate htransition htest⟩

omit h in
/-- A path that consumes nothing. -/
theorem free_of_reads (hreads : a.Reads text goal id pos stop) (heq : stop = pos) :
    ReflTransGen (a.Free goal) id goal := by
  induction hreads with
  | goal pos => exact .refl
  | @epsilon id target pos stop s hgoal hstate htarget _ ih =>
    exact .head ⟨hgoal, s, hstate, .inl htarget⟩ (ih heq)
  | @look id target pos stop s look hgoal hstate htransition _ _ ih =>
    exact .head ⟨hgoal, s, hstate, .inr ⟨look, htransition⟩⟩ (ih heq)
  | @char id target pos stop s set c _ _ _ _ _ hrest _ =>
    have := hrest.le
    have := c.utf8Size_pos
    omega

/-! ## The ways out of a state -/

/-- The ways out of a state are its transition and its epsilons. -/
theorem pairwise_ways (hid : inside id) (hgoal : id ≠ goal) {s : State}
    (hstate : a.states[id]? = some s) :
    ((match s.transition with
      | none => []
      | some ⟨.oneOf set, _⟩ => [⟨set, false⟩]
      | some ⟨.look _, target⟩ => [a.outlook goal target]) ++
        s.epsilons.map (a.outlook goal)).Pairwise Outlook.Apart := by
  obtain ⟨s', hstate', -, haccepting, -, hpairwise⟩ := h.settled id hid hgoal
  obtain rfl := Option.some.inj (hstate'.symm.trans hstate)
  unfold waysOut at hpairwise
  rw [haccepting, if_neg Bool.false_ne_true] at hpairwise
  dsimp only at hpairwise
  rwa [List.append_nil] at hpairwise

/-- Nothing can come next both at a class and behind an epsilon. -/
theorem not_char_and_free {s : State} {set : CharSet} {other : Nat} {c : Char} (hid : inside id)
    (hgoal : id ≠ goal) (hstate : a.states[id]? = some s)
    (htransition : s.transition = some ⟨.oneOf set, other⟩) (htest : set.test c)
    (hfree : a.Free goal id target) (hsees : a.Sees goal false target (some c)) : False := by
  obtain ⟨_, s', hstate', htarget⟩ := hfree
  obtain rfl := Option.some.inj (hstate'.symm.trans hstate)
  have hpairwise := h.pairwise_ways hid hgoal hstate
  rw [htransition] at hpairwise
  rcases htarget with htarget | ⟨look, htarget⟩
  · have happart := (List.pairwise_append.1 hpairwise).2.2 _ (List.mem_singleton_self _) _
      (List.mem_map_of_mem htarget)
    exact happart.2 c ⟨htest, admits_outlook.2 hsees⟩
  · rw [htransition] at htarget
    cases htarget

/-- What can come next tells to which state to go on. -/
theorem free_unique {target' : Nat} (hid : inside id) (hfree : a.Free goal id target)
    (hfree' : a.Free goal id target') (hsees : a.Sees goal false target next)
    (hsees' : a.Sees goal false target' next) : target = target' := by
  obtain ⟨hgoal, s, hstate, htarget⟩ := hfree
  obtain ⟨_, s', hstate', htarget'⟩ := hfree'
  obtain rfl := Option.some.inj (hstate'.symm.trans hstate)
  have hpairwise := h.pairwise_ways hid hgoal hstate
  have hadmits := admits_outlook.2 hsees
  have hadmits' := admits_outlook.2 hsees'
  have hcross {look : Look} {target target' : Nat}
      (htransition : s'.transition = some ⟨.look look, target⟩)
      (htarget' : target' ∈ s'.epsilons) (hadmits : (a.outlook goal target).admits next)
      (hadmits' : (a.outlook goal target').admits next) : False := by
    rw [htransition] at hpairwise
    have happart := (List.pairwise_append.1 hpairwise).2.2 _ (List.mem_singleton_self _) _
      (List.mem_map_of_mem htarget')
    exact happart.not_both hadmits hadmits'
  rcases htarget with htarget | ⟨look, htarget⟩
  · rcases htarget' with htarget' | ⟨look, htarget'⟩
    · by_contra hne
      have hepsilons := List.pairwise_map.1 (List.pairwise_append.1 hpairwise).2.1
      have hnone : s'.epsilons.Pairwise fun x y =>
          ¬((a.outlook goal x).admits next ∧ (a.outlook goal y).admits next) :=
        hepsilons.imp fun happart hboth => happart.not_both hboth.1 hboth.2
      have : Std.Symm fun x y =>
          ¬((a.outlook goal x).admits next ∧ (a.outlook goal y).admits next) :=
        ⟨fun x y hxy hboth => hxy hboth.symm⟩
      exact hnone.forall htarget htarget' hne ⟨hadmits, hadmits'⟩
    · exact (hcross htarget' htarget hadmits' hadmits).elim
  · rcases htarget' with htarget' | ⟨look', htarget'⟩
    · exact (hcross htarget htarget' hadmits hadmits').elim
    · rw [htarget] at htarget'
      cases htarget'
      rfl

/-- Nothing is seen from a state to which one can come back without consuming anything. -/
theorem not_sees_of_cycle (hid : inside id) (hcycle : TransGen (a.Free goal) id id)
    (hsees : a.Sees goal false id next) : False := by
  generalize hafter : false = after at hsees
  induction hsees with
  | @here after id s next hstate hshows =>
    subst hafter
    obtain ⟨target, hfree, hback⟩ := TransGen.head'_iff.1 hcycle
    have hgoal := hfree.1
    obtain ⟨s', hstate', -, haccepting, hplain, -⟩ := h.settled id hid hgoal
    obtain rfl := Option.some.inj (hstate'.symm.trans hstate)
    have hsees := h.sees_of_path (h.inside_of_free hid hfree) hback (.here hstate hshows)
    rw [not_after hgoal, sight_before hplain, haccepting] at hshows
    rcases htransition : s'.transition with _ | ⟨set | look, other⟩
    · cases next <;> simp [htransition, Sight.shows] at hshows
    · cases next with
      | none => simp [htransition, Sight.shows] at hshows
      | some c =>
        have htest : set.test c := by simpa [htransition, Sight.shows] using hshows
        exact h.not_char_and_free hid hgoal hstate htransition htest hfree hsees
    · cases next <;> simp [htransition, Sight.shows] at hshows
  | @behind after id target s next hstate hopen htarget hrest ih =>
    subst hafter
    -- The walk and the cycle leave the state for the same state, so that lies on a cycle too.
    obtain ⟨mid, hfree, hback⟩ := TransGen.head'_iff.1 hcycle
    have hgoal := hfree.1
    obtain ⟨s', hstate', -, -, hplain, -⟩ := h.settled id hid hgoal
    obtain rfl := Option.some.inj (hstate'.symm.trans hstate)
    have hsees :=
      h.sees_of_path (h.inside_of_free hid hfree) hback (.behind hstate hopen htarget hrest)
    rw [not_after hgoal] at htarget hrest ih
    have hfree' : a.Free goal id target := by
      refine ⟨hgoal, s', hstate, ?_⟩
      rw [sight_before hplain] at htarget
      rcases htransition : s'.transition with _ | ⟨set | look, other⟩
      · exact .inl (by simpa [htransition] using htarget)
      · exact .inl (by simpa [htransition] using htarget)
      · rcases List.mem_cons.1
          (by simpa [htransition] using htarget : target ∈ other :: s'.epsilons) with rfl | htarget
        · exact .inr ⟨look, rfl⟩
        · exact .inl htarget
    obtain rfl := h.free_unique hid hfree hfree' hsees hrest
    exact ih (h.inside_of_free hid hfree) (TransGen.tail' hback hfree) rfl

end Foreseen

end Automaton

end RegexEngine
