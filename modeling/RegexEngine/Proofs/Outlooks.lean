import Mathlib
import RegexEngine.Proofs.Choice.Sight
import RegexEngine.Proofs.WellFormed

/-!
# An outlook is what lies ahead

An outlook is computed by a walk that consumes nothing.  The walk goes on beyond the goal, but there
it cannot see through assertions, so that a state may be met twice.

* `Automaton.Ahead` says where a walk comes, before the goal and after it, without the search that
  finds it.
* `exists_rounds_visit` says that a search comes to an end on every graph, and after how many rounds
  at most.
* `Automaton.outlook_ahead` says that the outlook is anything if something ahead cannot be seen
  through, and that it has what lies ahead otherwise.
* `Automaton.outlook_optionalAny` is an outlook that is anything since all of that lies ahead.
-/

namespace RegexEngine

open Relation

/-! ## Rounds of a search -/

theorem lt_size_of_unseen {seen : Array Bool} {node : Nat} (h : seen[node]? = some false) :
    node < seen.size :=
  (Array.getElem?_eq_some_iff.1 h).1

/-- One round of a search.  The next pending node is taken, and if it is new it is marked and its
successors become pending. -/
def visitRound (next : Nat → List Nat) : Array Bool × List Nat → Array Bool × List Nat
  | (seen, []) => (seen, [])
  | (seen, node :: pending) =>
    if h : seen[node]? = some false then
      (seen.set node true (lt_size_of_unseen h), next node ++ pending)
    else (seen, pending)

/-- The number of edges from nodes that are not marked. -/
def edgesLeft (next : Nat → List Nat) (seen : Array Bool) : Nat :=
  ∑ node ∈ Finset.range seen.size with seen[node]? = some false, (next node).length

/-- Marking a node takes its edges away. -/
theorem edgesLeft_set (next : Nat → List Nat) {seen : Array Bool} {node : Nat}
    (h : seen[node]? = some false) :
    (next node).length + edgesLeft next (seen.set node true (lt_size_of_unseen h)) =
      edgesLeft next seen := by
  have hlt := lt_size_of_unseen h
  have hrest :
      {x ∈ Finset.range (seen.set node true hlt).size | (seen.set node true hlt)[x]? = some false} =
        {x ∈ Finset.range seen.size | seen[x]? = some false}.erase node := by
    ext x
    rw [Array.size_set, Finset.mem_erase]
    by_cases hx : x = node
    · simp [hx]
    · simp [hx, Array.getElem?_set_ne _ (Ne.symm hx)]
  unfold edgesLeft
  rw [hrest]
  exact Finset.add_sum_erase _ (fun node => (next node).length)
    (Finset.mem_filter.2 ⟨Finset.mem_range.2 hlt, h⟩)

theorem edgesLeft_replicate (next : Nat → List Nat) (size : Nat) :
    edgesLeft next (Array.replicate size false) = ∑ node ∈ Finset.range size,
      (next node).length := by
  unfold edgesLeft
  rw [Array.size_replicate, Finset.filter_true_of_mem]
  intro node hnode
  simp [Finset.mem_range.1 hnode]

/-- A search comes to an end.  Each round takes a pending node, and a node is pending for each start
node and for each edge at most. -/
theorem exists_rounds_visit (next : Nat → List Nat) (seen : Array Bool) (pending : List Nat) :
    ∃ rounds ≤ pending.length + edgesLeft next seen,
      (visitRound next)^[rounds] (seen, pending) = (visit next seen pending, []) := by
  fun_induction visit next seen pending with
  | case1 seen => exact ⟨0, Nat.zero_le _, rfl⟩
  | case2 seen node pending h ih =>
    -- the node pays for its successors with the edges that it takes away
    obtain ⟨rounds, hle, hrounds⟩ := ih
    have hedges := edgesLeft_set next h
    refine ⟨rounds + 1, ?_, ?_⟩
    · rw [List.length_append] at hle
      rw [List.length_cons]
      omega
    · rw [Function.iterate_succ_apply, visitRound, dif_pos h]
      exact hrounds
  | case3 seen node pending h ih =>
    obtain ⟨rounds, hle, hrounds⟩ := ih
    refine ⟨rounds + 1, ?_, ?_⟩
    · rw [List.length_cons]
      omega
    · rw [Function.iterate_succ_apply, visitRound, dif_neg h]
      exact hrounds

/-- Whether an action lets a walk see what lies behind it. -/
def Action.isClear : Action → Bool
  | .none | .text _ _ | .capture _ _ _ _ | .captureClose _ _ => true
  | _ => false

namespace Automaton

/-! ## Walks -/

/-- A state leads to another one without consuming anything: by an epsilon, by an assertion before
the goal, or by opening or closing a group. -/
@[mk_iff]
inductive State.Passes (s : State) (afterGoal : Bool) : Nat → Prop
  /-- An epsilon leads there. -/
  | epsilon {target : Nat} (h : target ∈ s.epsilons) : Passes s afterGoal target
  /-- An assertion leads there. -/
  | look {look : Look} {target : Nat} (hbefore : afterGoal = false)
      (h : s.transition = some ⟨.look look, target⟩) : Passes s afterGoal target
  /-- The body of a group begins there. -/
  | opening {slot body close : Nat} {dfa : Option Nat}
      (h : s.action = .capture slot body close dfa) :
      Passes s afterGoal body
  /-- What follows a group begins there. -/
  | closing {slot next : Nat} (h : s.action = .captureClose slot next) : Passes s afterGoal next

/-- A walk from `start` that consumes nothing comes to a state, and has been at the goal by then or
has not. -/
inductive Ahead (a : Automaton) (goal start : Nat) : Nat → Bool → Prop
  /-- It begins at the start. -/
  | start : Ahead a goal start start (start == goal)
  /-- It goes on to where a state leads. -/
  | step {id target : Nat} {after : Bool} {s : State} (h : Ahead a goal start id after)
      (hstate : a.states[id]? = some s) (hpasses : s.Passes after target) :
      Ahead a goal start target (after || target == goal)

/-- A walk cannot see through a state that does something else, and through an assertion after the
goal. -/
def State.Blocks (s : State) (afterGoal : Bool) : Prop :=
  s.action.isClear = false ∨ afterGoal ∧ ∃ look target, s.transition = some ⟨.look look, target⟩

/-- A walk comes to a state that it cannot see through. -/
def Obscured (a : Automaton) (goal start : Nat) : Prop :=
  ∃ id after s, a.Ahead goal start id after ∧ a.states[id]? = some s ∧ s.Blocks after

/-- A walk comes to a state that consumes the character. -/
def CharAhead (a : Automaton) (goal start : Nat) (c : Char) : Prop :=
  ∃ id after s, a.Ahead goal start id after ∧ a.states[id]? = some s ∧
    ∃ set target, s.transition = some ⟨.oneOf set, target⟩ ∧ set.test c

/-- A walk comes to a state where a match may end. -/
def EndAhead (a : Automaton) (goal start : Nat) : Prop :=
  ∃ id after s, a.Ahead goal start id after ∧ a.states[id]? = some s ∧ s.accepting

variable {a : Automaton} {goal start id target : Nat} {after : Bool} {s : State}

/-! ## Single states -/

/-- A state blocks just if it is hidden. -/
theorem State.MovesOnce.hidden_iff (h : s.MovesOnce) : (s.sight after).hidden ↔ s.Blocks after := by
  unfold sight Blocks
  cases haction : s.action with
  | none | text _ _ =>
    rcases htransition : s.transition with _ | ⟨_ | _, _⟩ <;> simp [Action.isClear]
  | capture _ _ _ _ | captureClose _ _ =>
    have htransition := (h.action (by simp [haction, Action.isPlain])).1
    simp [htransition, Action.isClear]
  | _ => simp [Action.isClear]

/-- A state that is not hidden leads to where a walk goes on. -/
theorem State.MovesOnce.mem_next_iff (h : s.MovesOnce) (hopen : (s.sight after).hidden = false) :
    target ∈ (s.sight after).next ↔ s.Passes after target := by
  revert hopen
  unfold sight
  rw [passes_iff]
  cases haction : s.action with
  | none | text _ _ =>
    rcases htransition : s.transition with _ | ⟨_ | _, _⟩
    · simp
    · simp
    · rintro rfl
      simp [or_comm, eq_comm]
  | capture _ _ _ _ | captureClose _ _ =>
    have ⟨htransition, hepsilons, _⟩ := h.action (by simp [haction, Action.isPlain])
    simp [htransition, hepsilons, eq_comm]
  | _ => simp

/-- A state that is not hidden shows the characters that it consumes. -/
theorem State.MovesOnce.test_chars_iff (h : s.MovesOnce) (hopen : (s.sight after).hidden = false)
    {c : Char} : (s.sight after).chars.test c ↔
      ∃ set target, s.transition = some ⟨.oneOf set, target⟩ ∧ set.test c := by
  revert hopen
  unfold sight
  cases haction : s.action with
  | none | text _ _ =>
    rcases htransition : s.transition with _ | ⟨_ | _, _⟩ <;> simp
  | capture _ _ _ _ | captureClose _ _ =>
    have htransition := (h.action (by simp [haction, Action.isPlain])).1
    simp [htransition]
  | _ => simp

/-- A state that is not hidden shows whether a match may end there. -/
theorem State.MovesOnce.canEnd_eq (h : s.MovesOnce) (hopen : (s.sight after).hidden = false) :
    (s.sight after).canEnd = s.accepting := by
  revert hopen
  unfold sight
  cases haction : s.action with
  | none | text _ _ =>
    rcases htransition : s.transition with _ | ⟨_ | _, _⟩ <;> simp
  | capture _ _ _ _ | captureClose _ _ =>
    have haccepting := (h.action (by simp [haction, Action.isPlain])).2.2
    simp [haccepting]
  | _ => simp

/-- A state from which a walk goes on does not block.  It has one way of moving only, which is not
the one that blocks. -/
theorem State.MovesOnce.not_blocks (h : s.MovesOnce) (hpasses : s.Passes after target) :
    ¬s.Blocks after := by
  rintro (haction | ⟨hafter, look, last, htransition⟩)
  · have hplain : s.action.isPlain = false := by
      cases hs : s.action <;> simp [hs, Action.isClear, Action.isPlain] at haction ⊢
    obtain ⟨htransition, hepsilons, -⟩ := h.action hplain
    cases hpasses with
    | epsilon htarget => simp [hepsilons] at htarget
    | look _ hlook => simp [htransition] at hlook
    | opening hgroup | closing hgroup => simp [hgroup, Action.isClear] at haction
  · have hepsilons := (h.transition (by simp [htransition])).1
    cases hpasses with
    | epsilon htarget => simp [hepsilons] at htarget
    | look hbefore => simp [hbefore] at hafter
    | opening hgroup | closing hgroup =>
      have hnone := (h.action (by simp [hgroup, Action.isPlain])).1
      simp [hnone] at htransition

/-- A walk goes on just if nothing is hidden, and to where the state leads. -/
theorem State.MovesOnce.passes_iff (h : s.MovesOnce) :
    s.Passes after target ↔ (s.sight after).hidden = false ∧ target ∈ (s.sight after).next := by
  refine ⟨fun hpasses => ?_, fun ⟨hopen, htarget⟩ => (h.mem_next_iff hopen).1 htarget⟩
  have hopen : (s.sight after).hidden = false := by
    rw [← Bool.not_eq_true, h.hidden_iff]
    exact h.not_blocks hpasses
  exact ⟨hopen, (h.mem_next_iff hopen).2 hpasses⟩

/-! ## Walks and nodes -/

/-- What the states to which a walk comes show. -/
def sights (a : Automaton) (goal start : Nat) : List Sight :=
  (reachable (2 * a.states.size) (a.walkNext goal) [walkNode goal start false]).map a.walkSight

/-- A walk gives up if it comes to a state that is hidden. -/
def givesUp (a : Automaton) (goal start : Nat) : Bool :=
  (a.sights goal start).any (·.hidden)

theorem Ahead.after_eq (h : a.Ahead goal start id after) : (after || id == goal) = after := by
  cases h <;> simp

theorem walkNode_or (goal id : Nat) (after : Bool) :
    walkNode goal id (after || id == goal) = walkNode goal id after := by
  unfold walkNode
  rw [Bool.or_assoc, Bool.or_self]

section

variable (hmoves : ∀ (id : Nat) (s : State), a.states[id]? = some s → s.MovesOnce)

include hmoves

/-- Where a walk comes a path of nodes leads. -/
theorem Ahead.path (h : a.Ahead goal start id after) :
    ReflTransGen (StepBelow (2 * a.states.size) (a.walkNext goal)) (walkNode goal start false)
      (walkNode goal id after) := by
  induction h with
  | start =>
    -- at the goal the walk is after it from the beginning
    rw [← walkNode_or goal start false]
    exact .refl
  | @step id target after s h hstate hpasses ih =>
    obtain ⟨hopen, htarget⟩ := (hmoves id s hstate).passes_iff.1 hpasses
    have hlt := (Array.getElem?_eq_some_iff.1 hstate).1
    rw [walkNode_or]
    refine ih.tail ⟨walkNode_lt_iff.2 hlt, (mem_walkNext_walkNode hstate).2 ?_⟩
    rw [h.after_eq]
    exact ⟨hopen, target, htarget, rfl⟩

/-- Where a path of nodes leads a walk comes. -/
theorem exists_ahead_of_path {node : Nat}
    (h : ReflTransGen (StepBelow (2 * a.states.size) (a.walkNext goal))
    (walkNode goal start false) node) :
    ∃ id after, node = walkNode goal id after ∧ a.Ahead goal start id after := by
  induction h with
  | refl => exact ⟨start, start == goal, (walkNode_or goal start false).symm, .start⟩
  | tail _ hstep ih =>
    obtain ⟨id, after, rfl, hahead⟩ := ih
    obtain ⟨hlt, hnext⟩ := hstep
    have hstate := Array.getElem?_eq_getElem (walkNode_lt_iff.1 hlt)
    rw [mem_walkNext_walkNode hstate, hahead.after_eq] at hnext
    obtain ⟨hopen, target, htarget, rfl⟩ := hnext
    have hpasses := (hmoves id _ hstate).passes_iff.2 ⟨hopen, htarget⟩
    exact ⟨target, _, (walkNode_or goal target after).symm, hahead.step hstate hpasses⟩

/-- What is shown is what the states ahead show. -/
theorem exists_mem_sights_iff {P : Sight → Prop} :
    (∃ sight ∈ a.sights goal start, P sight) ↔
      ∃ id after s, a.Ahead goal start id after ∧ a.states[id]? = some s ∧ P (s.sight after) := by
  unfold sights
  constructor
  · rintro ⟨sight, hsight, hshows⟩
    obtain ⟨node, hnode, rfl⟩ := List.mem_map.1 hsight
    obtain ⟨hlt, first, hfirst, hpath⟩ := mem_reachable_iff.1 hnode
    obtain rfl := List.mem_singleton.1 hfirst
    obtain ⟨id, after, rfl, hahead⟩ := exists_ahead_of_path hmoves hpath
    have hstate := Array.getElem?_eq_getElem (walkNode_lt_iff.1 hlt)
    rw [walkSight_walkNode hstate, hahead.after_eq] at hshows
    exact ⟨id, after, _, hahead, hstate, hshows⟩
  · rintro ⟨id, after, s, hahead, hstate, hshows⟩
    have hlt := (Array.getElem?_eq_some_iff.1 hstate).1
    have hnode := mem_reachable_iff.2
      ⟨walkNode_lt_iff.2 hlt, _, List.mem_singleton_self _, hahead.path hmoves⟩
    refine ⟨_, List.mem_map_of_mem hnode, ?_⟩
    rwa [walkSight_walkNode hstate, hahead.after_eq]

/-- A walk gives up just if it comes to a state that it cannot see through. -/
theorem givesUp_iff : a.givesUp goal start ↔ a.Obscured goal start := by
  unfold givesUp Obscured
  rw [List.any_eq_true, exists_mem_sights_iff hmoves]
  exact exists₃_congr fun id after s => and_congr_right fun _ => and_congr_right fun hstate =>
    (hmoves id s hstate).hidden_iff

end

/-! ## Outlooks -/

/-- An outlook is anything if the walk gives up, and what the states show otherwise. -/
theorem outlook_eq (a : Automaton) (goal start : Nat) :
    a.outlook goal start = if a.givesUp goal start then .unknown else
      { chars := (a.sights goal start).foldl (fun chars sight => chars.union sight.chars) .empty
        canEnd := (a.sights goal start).any (·.canEnd) } :=
  rfl

/-- If nothing blocks then an outlook has what lies ahead. -/
theorem outlook_of_not_obscured
    (hmoves : ∀ (id : Nat) (s : State), a.states[id]? = some s → s.MovesOnce)
    (hopen : ¬a.Obscured goal start) :
    (∀ c, (a.outlook goal start).chars.test c ↔ a.CharAhead goal start c) ∧
      ((a.outlook goal start).canEnd ↔ a.EndAhead goal start) := by
  have hshown {id : Nat} {after : Bool} {s : State} (hahead : a.Ahead goal start id after)
      (hstate : a.states[id]? = some s) : (s.sight after).hidden = false := by
    rw [← Bool.not_eq_true, (hmoves id s hstate).hidden_iff]
    exact fun hblocks => hopen ⟨id, after, s, hahead, hstate, hblocks⟩
  rw [outlook_eq, if_neg (mt (givesUp_iff hmoves).1 hopen)]
  refine ⟨fun c => ?_, ?_⟩
  · rw [test_foldl_union, CharSet.test_empty, exists_mem_sights_iff hmoves]
    simp only [Bool.false_eq_true, false_or]
    exact exists₃_congr fun id after s =>
      and_congr_right fun hahead => and_congr_right fun hstate =>
        (hmoves id s hstate).test_chars_iff (hshown hahead hstate)
  · rw [List.any_eq_true, exists_mem_sights_iff hmoves]
    exact exists₃_congr fun id after s =>
      and_congr_right fun hahead => and_congr_right fun hstate => by
        rw [(hmoves id s hstate).canEnd_eq (hshown hahead hstate)]

/-- An outlook is what lies ahead.  It is anything if a walk comes to a state that it cannot see
through.  Otherwise its characters are those of the states ahead, and the match can end just if it
may end in one of them, so that it is anything only if all characters and an end lie ahead.  The
search comes to an end on every graph. -/
theorem outlook_ahead {o : Options} {p : Pattern} (h : compile o p = .ok a ∨ ofPattern o p = .ok a)
    (goal start : Nat) :
    (a.Obscured goal start → a.outlook goal start = .unknown) ∧
      (¬a.Obscured goal start →
        (∀ c, (a.outlook goal start).chars.test c ↔ a.CharAhead goal start c) ∧
          ((a.outlook goal start).canEnd ↔ a.EndAhead goal start)) ∧
      (a.outlook goal start = .unknown →
        a.Obscured goal start ∨ (∀ c, a.CharAhead goal start c) ∧ a.EndAhead goal start) ∧
      ∀ (size : Nat) (next : Nat → List Nat) (starts : List Nat),
        ∃ rounds ≤ starts.length + ∑ node ∈ Finset.range size, (next node).length,
          (visitRound next)^[rounds] (Array.replicate size false, starts) =
            (visit next (Array.replicate size false) starts, []) := by
  have hmoves := (wellFormed h).movesOnce
  refine ⟨fun hobscured => ?_, outlook_of_not_obscured hmoves, fun hunknown => ?_,
    fun size next starts => ?_⟩
  · rw [outlook_eq, if_pos ((givesUp_iff hmoves).2 hobscured)]
  · refine or_iff_not_imp_left.2 fun hopen => ?_
    obtain ⟨hchars, hend⟩ := outlook_of_not_obscured hmoves hopen
    rw [hunknown] at hchars hend
    exact ⟨fun c => (hchars c).1 (CharSet.test_any c), hend.1 rfl⟩
  · rw [← edgesLeft_replicate]
    exact exists_rounds_visit next _ starts

/-- A group with any number of characters, any number of times, and then the boundary of a word. -/
def groupInLoop : Pattern :=
  .concat [.repeated (.capture none (.repeated (.text ['a']) 0 none .greedy)) 0 none .greedy,
    .assert .wordBoundary]

/-- The states of `groupInLoop`.  From the loop one comes through the group and back without
consuming anything. -/
def groupInLoopStates : Array State := #[
  { epsilons := [2, 1], loopHead := some 0 },
  { transition := some ⟨.look .wordBoundary, 8⟩ },
  { action := .capture 1 4 5 none },
  { epsilons := [0], loopBack := some 0 },
  { epsilons := [6, 5], loopHead := some 1 },
  { action := .captureClose 1 3 },
  { action := .text ['a'] 7, transition := some ⟨.oneOf (.ofChar 'a'), 7⟩ },
  { epsilons := [4], loopBack := some 1 },
  { accepting := true }]

theorem outlook_ahead_groupInLoop :
    ∃ a, compile {} groupInLoop = .ok a ∧
      (a.Obscured 5 4 ∧ a.outlook 5 4 = .unknown) ∧
      (¬a.Obscured 8 0 ∧ a.CharAhead 8 0 'a' ∧ ¬a.CharAhead 8 0 'b' ∧ a.EndAhead 8 0) := by
  have hcompile : (compile {} groupInLoop).toOption.any (·.states = groupInLoopStates) := by
    decide +kernel
  cases ha : compile {} groupInLoop with
  | error fault => simp [ha, Except.toOption] at hcompile
  | ok a =>
    simp only [ha, Except.toOption, Option.any_some, decide_eq_true_eq] at hcompile
    have hmoves := (wellFormed (.inl ha)).movesOnce
    have hgives : a.givesUp 5 4 = true ∧ a.givesUp 8 0 = false := by
      unfold givesUp sights walkNext walkSight
      rw [hcompile]
      constructor <;> cbv
    have hshows : (a.outlook 8 0).chars.test 'a' = true ∧ (a.outlook 8 0).chars.test 'b' = false ∧
        (a.outlook 8 0).canEnd = true := by
      unfold outlook walkNext walkSight
      rw [hcompile]
      refine ⟨?_, ?_, ?_⟩ <;> cbv
    have hobscured := (givesUp_iff hmoves).1 hgives.1
    have hopen : ¬a.Obscured 8 0 := mt (givesUp_iff hmoves).2 (by simp [hgives.2])
    obtain ⟨hunknown, -⟩ := outlook_ahead (.inl ha) 5 4
    obtain ⟨-, hahead, -⟩ := outlook_ahead (.inl ha) 8 0
    obtain ⟨hchars, hend⟩ := hahead hopen
    exact ⟨a, rfl, ⟨hobscured, hunknown hobscured⟩, hopen, (hchars 'a').1 hshows.1,
      mt (hchars 'b').2 (by simp [hshows.2.1]), hend.1 hshows.2.2⟩

/-- Any character, or none. -/
def optionalAny : Pattern :=
  .repeated .any 0 (some 1) .greedy

/-- The states of `optionalAny`, if the dot matches line terminators too. -/
def optionalAnyStates : Array State := #[
  { epsilons := [2, 1] },
  { accepting := true },
  { transition := some ⟨.oneOf .any, 1⟩ }]

/-- All characters and an end lie ahead of the start, so that the outlook is anything although
nothing is hidden. -/
theorem outlook_optionalAny :
    ∃ a, compile { dotAll := true } optionalAny = .ok a ∧
      ¬a.Obscured 1 0 ∧ a.outlook 1 0 = .unknown := by
  have hcompile :
      (compile { dotAll := true } optionalAny).toOption.any (·.states = optionalAnyStates) := by
    decide +kernel
  cases ha : compile { dotAll := true } optionalAny with
  | error fault => simp [ha, Except.toOption] at hcompile
  | ok a =>
    simp only [ha, Except.toOption, Option.any_some, decide_eq_true_eq] at hcompile
    have hgives : a.givesUp 1 0 = false := by
      unfold givesUp sights walkNext walkSight
      rw [hcompile]
      cbv
    have hnodes : reachable (2 * a.states.size)
        (a.walkNext 1) [walkNode 1 0 false] = [0, 3, 4] := by
      unfold walkNext walkSight
      rw [hcompile]
      cbv
    have houtlook : a.outlook 1 0 = .unknown := by
      rw [outlook_eq, hgives, if_neg Bool.false_ne_true, sights, hnodes]
      unfold walkSight
      rw [hcompile]
      decide +kernel
    refine ⟨a, rfl, ?_, houtlook⟩
    rw [← givesUp_iff (wellFormed (.inl ha)).movesOnce, hgives]
    exact Bool.false_ne_true

end Automaton

end RegexEngine
