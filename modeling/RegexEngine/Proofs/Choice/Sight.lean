import RegexEngine.Automaton.Determinism
import RegexEngine.Proofs.CharSet.Membership
import RegexEngine.Proofs.Reachability

/-!
# What can come next

An outlook is computed by a walk through an automaton.  `Automaton.Sees` says what the walk
finds: the next characters, and that a match can end.  Nothing is known of what lies behind
a hidden state, so everything can come next there.

* `admits_outlook` says that an outlook is what is seen.
* `pairwise_of_settled` says what it means that choices are settled.
-/

namespace RegexEngine

namespace Automaton

open Relation

/-! ## Sights -/

/-- Whether a character, or the end of the match, can come next. -/
def Outlook.admits (o : Outlook) : Option Char → Bool
  | none => o.canEnd
  | some c => o.chars.test c

/-- Whether a state shows a character, or the end of the match. -/
def Sight.shows (sight : Sight) : Option Char → Bool
  | none => sight.hidden || sight.canEnd
  | some c => sight.hidden || sight.chars.test c

/-- A walk from a state finds a character, or the end of the match.  After the goal it
goes on beyond the part. -/
inductive Sees (a : Automaton) (goal : Nat) : Bool → Nat → Option Char → Prop
  /-- The state shows it. -/
  | here {after : Bool} {id : Nat} {s : State} {next : Option Char}
      (hstate : a.states[id]? = some s) (hshows : (s.sight (after || id == goal)).shows next) :
      Sees a goal after id next
  /-- It is found behind a state that leads on. -/
  | behind {after : Bool} {id target : Nat} {s : State} {next : Option Char}
      (hstate : a.states[id]? = some s) (hopen : (s.sight (after || id == goal)).hidden = false)
      (htarget : target ∈ (s.sight (after || id == goal)).next)
      (hrest : Sees a goal (after || id == goal) target next) : Sees a goal after id next

variable {a : Automaton} {goal id target : Nat} {after : Bool} {s : State} {next : Option Char}

/-- Behind a hidden state everything can come next. -/
theorem sees_of_hidden (hstate : a.states[id]? = some s)
    (hhidden : (s.sight (after || id == goal)).hidden = true) (next : Option Char) :
    a.Sees goal after id next :=
  .here hstate (by cases next <;> simp [Sight.shows, hhidden])

/-! ## Walks -/

theorem walkNode_div (goal id : Nat) (after : Bool) : walkNode goal id after / 2 = id := by
  unfold walkNode
  split <;> omega

theorem walkNode_mod (goal id : Nat) (after : Bool) :
    (walkNode goal id after % 2 == 1) = (after || id == goal) := by
  unfold walkNode
  cases h : (after || id == goal) <;> simp

/-- The contribution of a node is that of its state. -/
theorem walkSight_walkNode (hstate : a.states[id]? = some s) :
    a.walkSight (walkNode goal id after) = s.sight (after || id == goal) := by
  unfold walkSight
  rw [walkNode_div, hstate, walkNode_mod]

theorem mem_walkNext_walkNode (hstate : a.states[id]? = some s) {node : Nat} :
    node ∈ a.walkNext goal (walkNode goal id after) ↔
      (s.sight (after || id == goal)).hidden = false ∧
        ∃ target ∈ (s.sight (after || id == goal)).next,
          node = walkNode goal target (after || id == goal) := by
  unfold walkNext
  dsimp only
  rw [walkSight_walkNode hstate, walkNode_mod]
  cases (s.sight (after || id == goal)).hidden with
  | true => simp
  | false => simp [eq_comm]

/-- A node belongs to a state that exists, just if it is below the bound. -/
theorem walkNode_lt_iff : walkNode goal id after < 2 * a.states.size ↔ id < a.states.size := by
  unfold walkNode
  split <;> omega

/-- What is seen is what some node shows that the walk reaches. -/
theorem sees_iff_exists_node :
    a.Sees goal after id next ↔
      ∃ node, node < 2 * a.states.size ∧
        ReflTransGen (StepBelow (2 * a.states.size) (a.walkNext goal))
          (walkNode goal id after) node ∧
        (a.walkSight node).shows next := by
  constructor
  · intro h
    induction h with
    | @here after id s next hstate hshows =>
      have hlt := (Array.getElem?_eq_some_iff.1 hstate).1
      exact ⟨_, walkNode_lt_iff.2 hlt, .refl, by rwa [walkSight_walkNode hstate]⟩
    | @behind after id target s next hstate hopen htarget _ ih =>
      obtain ⟨node, hlt, hpath, hshows⟩ := ih
      have hid := (Array.getElem?_eq_some_iff.1 hstate).1
      refine ⟨node, hlt, .head ⟨walkNode_lt_iff.2 hid, ?_⟩ hpath, hshows⟩
      exact (mem_walkNext_walkNode hstate).2 ⟨hopen, target, htarget, rfl⟩
  · rintro ⟨node, hlt, hpath, hshows⟩
    generalize hfirst : walkNode goal id after = first at hpath
    induction hpath using ReflTransGen.head_induction_on generalizing id after with
    | refl =>
      subst hfirst
      have hstate := Array.getElem?_eq_getElem (walkNode_lt_iff.1 hlt)
      rw [walkSight_walkNode hstate] at hshows
      exact .here hstate hshows
    | head hstep _ ih =>
      subst hfirst
      obtain ⟨hid, hnext⟩ := hstep
      have hstate := Array.getElem?_eq_getElem (walkNode_lt_iff.1 hid)
      obtain ⟨hopen, target, htarget, heq⟩ := (mem_walkNext_walkNode hstate).1 hnext
      exact .behind hstate hopen htarget (ih heq.symm)

theorem test_foldl_union {sights : List Sight} {chars : CharSet} {c : Char} :
    (sights.foldl (fun chars sight => chars.union sight.chars) chars).test c ↔
      chars.test c ∨ ∃ sight ∈ sights, sight.chars.test c := by
  induction sights generalizing chars with
  | nil => simp
  | cons sight sights ih =>
    rw [List.foldl_cons, ih, CharSet.test_union]
    simp [or_assoc]

/-- An outlook admits what is seen. -/
theorem admits_outlook : (a.outlook goal id).admits next ↔ a.Sees goal false id next := by
  have hmem {node : Nat} : node ∈ reachable (2 * a.states.size)
    (a.walkNext goal) [walkNode goal id false] ↔
      node < 2 * a.states.size ∧
        ReflTransGen (StepBelow (2 * a.states.size) (a.walkNext goal))
            (walkNode goal id false) node := by
    simp [mem_reachable_iff]
  rw [sees_iff_exists_node]
  unfold outlook
  dsimp only
  split
  · rename_i hhidden
    obtain ⟨sight, hsight, hhidden⟩ := List.any_eq_true.1 hhidden
    obtain ⟨node, hnode, rfl⟩ := List.mem_map.1 hsight
    obtain ⟨hlt, hpath⟩ := hmem.1 hnode
    refine iff_of_true ?_ ⟨node, hlt, hpath, ?_⟩
    · cases next <;> simp [Outlook.admits, Outlook.unknown]
    · cases next <;> simp [Sight.shows, hhidden]
  · rename_i hopen
    have hshown {node : Nat}
        (hnode : node ∈ reachable (2 * a.states.size) (a.walkNext goal) [walkNode goal id false]) :
        (a.walkSight node).hidden = false := by
      simp only [List.any_eq_true, not_exists, not_and, Bool.not_eq_true] at hopen
      exact hopen _ (List.mem_map_of_mem hnode)
    have hadmits : (∃ node, node < 2 * a.states.size ∧
        ReflTransGen (StepBelow (2 * a.states.size) (a.walkNext goal))
          (walkNode goal id false) node ∧
        (a.walkSight node).shows next) ↔
        ∃ node ∈ reachable (2 * a.states.size) (a.walkNext goal) [walkNode goal id false],
          (a.walkSight node).shows next := by
      simp only [hmem, and_assoc]
    rw [hadmits]
    cases next with
    | none =>
      simp only [Outlook.admits, List.any_map, List.any_eq_true, Function.comp]
      refine exists_congr fun node => and_congr_right fun hnode => ?_
      simp [Sight.shows, hshown hnode]
    | some c =>
      simp only [Outlook.admits, test_foldl_union, CharSet.test_empty, Bool.false_eq_true, false_or,
        List.mem_map, exists_exists_and_eq_and]
      refine exists_congr fun node => and_congr_right fun hnode => ?_
      simp [Sight.shows, hshown hnode]

/-! ## Settled choices -/

/-- The first of two ways cannot end, and no character can come next on both. -/
def Outlook.Apart (o o' : Outlook) : Prop :=
  o.canEnd = false ∧ ∀ c, ¬(o.chars.test c ∧ o'.chars.test c)

/-- Nothing can come next on both of two ways. -/
theorem Outlook.Apart.not_both {o o' : Outlook} (h : o.Apart o') (hadmits : o.admits next)
    (hadmits' : o'.admits next) : False := by
  cases next with
  | none =>
    have hnone : o.canEnd = true := hadmits
    rw [h.1] at hnone
    cases hnone
  | some c => exact h.2 c ⟨hadmits, hadmits'⟩

/-- If choices are settled then any two ways are apart, and from what has been taken. -/
theorem pairwise_of_settled {taken : CharSet} {ways : List Outlook} (h : settled taken ways) :
    ways.Pairwise Outlook.Apart ∧ ∀ way ∈ ways, ∀ c, ¬(way.chars.test c ∧ taken.test c) := by
  induction ways generalizing taken with
  | nil => exact ⟨.nil, fun _ h => by cases h⟩
  | cons way ways ih =>
    simp only [settled, Bool.and_eq_true, Bool.not_eq_true', Bool.or_eq_true] at h
    obtain ⟨⟨hend, hoverlaps⟩, hrest⟩ := h
    obtain ⟨hpairwise, htaken⟩ := ih hrest
    have hfirst (c : Char) : ¬(way.chars.test c ∧ taken.test c) := fun hboth => by
      rw [(CharSet.overlaps_iff _ _).2 ⟨c, hboth⟩] at hoverlaps
      cases hoverlaps
    refine ⟨.cons (fun other hother => ⟨?_, fun c hboth => ?_⟩) hpairwise,
      fun other hother c hboth => ?_⟩
    · rcases hend with hend | hempty
      · exact hend
      · rw [List.isEmpty_iff.1 hempty] at hother
        cases hother
    · exact htaken other hother c ⟨hboth.2, by simp [hboth.1]⟩
    · rcases List.mem_cons.1 hother with rfl | hother
      · exact hfirst c hboth
      · exact htaken other hother c ⟨hboth.1, by simp [hboth.2]⟩

end Automaton

end RegexEngine
