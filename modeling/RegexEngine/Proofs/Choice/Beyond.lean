import RegexEngine.Proofs.Chart.Compile
import RegexEngine.Proofs.Choice.Foreseen
import RegexEngine.Proofs.Search.Unique
import RegexEngine.Proofs.Search.Ways

/-!
# Behind a region

What lies behind a region matters for its choices: it may be that a match cannot go on with
the next character.  `goes_of_yields` says that where a search goes on at all, this has been
foreseen: the next character is seen behind the goal, or that the match can end, and then
it can end further to the right as well.
-/

namespace RegexEngine

open Automaton

/-! ## First verdicts -/

/-- One of the verdicts is a match or a fault, if the first is. -/
theorem exists_of_firstOf_ne {verdicts : List Verdict} (h : firstOf verdicts ≠ .failure) :
    ∃ v ∈ verdicts, v ≠ .failure := by
  induction verdicts with
  | nil => exact absurd rfl h
  | cons v verdicts ih =>
    by_cases hv : v = .failure
    · rw [firstOf_cons, hv, Verdict.failure_orElse] at h
      obtain ⟨v', hmem, hne⟩ := ih h
      exact ⟨v', List.mem_cons_of_mem _ hmem, hne⟩
    · exact ⟨v, List.mem_cons_self, hv⟩

/-- If one of the verdicts is a match or a fault, so is the first. -/
theorem firstOf_ne {verdicts : List Verdict} {v : Verdict} (hmem : v ∈ verdicts)
    (h : v ≠ .failure) :
    firstOf verdicts ≠ .failure := by
  induction verdicts with
  | nil => cases hmem
  | cons v' verdicts ih =>
    rw [firstOf_cons]
    by_cases hv' : v' = .failure
    · rw [hv', Verdict.failure_orElse]
      rcases List.mem_cons.1 hmem with rfl | hmem
      · exact absurd hv' h
      · exact ih hmem
    · rwa [Verdict.orElse_eq_left hv']

/-! ## Going on behind the goal -/

/-- An automaton of which a state that does more than its transition and its epsilons say
has neither. -/
theorem Automaton.HasChart.bare {a : Automaton} {c : Chart} (h : a.HasChart c) {id : Nat}
    {s : State} (hstate : a.states[id]? = some s) : Chart.Bare s := by
  cases h.holds.states id s hstate with
  | ordinary _ _ hbare => exact hbare
  | head hs =>
    subst hs
    exact fun h => by cases h
  | back hs =>
    subst hs
    exact fun h => by cases h

section

variable {t : Setting} {c : Chart} {goal id target pos stop : Nat} {s : State}
    {its its' : Iterations}

/-- Open iterations that began at a later position began at an earlier one before. -/
def Shifted (pos stop : Nat) (its its' : Iterations) : Prop :=
  ∀ loop, its' loop = some stop → its loop = some pos

theorem Shifted.passing (h : Shifted pos stop its its') (s : State) :
    Shifted pos stop (its.passing s) (its'.passing s) := by
  intro loop hopen
  have hold := h loop (Iterations.of_passing hopen)
  cases hback : s.loopBack with
  | none => rwa [Iterations.passing_of_none hback]
  | some back =>
    rw [Iterations.passing_of_some hback] at hopen ⊢
    by_cases hloop : loop = back
    · simp [hloop] at hopen
    · rwa [Iterations.set_ne hloop]

theorem Shifted.set (h : Shifted pos stop its its') (loop : Nat) :
    Shifted pos stop (its.set loop (some pos)) (its'.set loop (some stop)) := by
  intro loop' hopen
  by_cases hloop : loop' = loop
  · simp [hloop]
  · rw [Iterations.set_ne hloop] at hopen ⊢
    exact h loop' hopen

/-- A search that goes on from a state goes on further to the right as well. -/
def Carries (t : Setting) (its : Iterations) (id pos : Nat) : Prop :=
  ∀ (n : Nat) (its' : Iterations) (stop : Nat) (slots : Slots) (v : Verdict), pos < stop →
    t.Allows stop →
    Shifted pos stop its its' → Yields t n its' id stop slots v → v ≠ .failure

/-- Where a search goes on behind the goal: everything can come next, the next character
has been foreseen, or the match can end. -/
def Goes (t : Setting) (goal : Nat) (its : Iterations) (id pos : Nat) : Prop :=
  (∀ next, t.automaton.Sees goal true id next) ∨
    (∃ ch, t.next? pos = some ch ∧ t.automaton.Sees goal true id (some ch)) ∨
    t.automaton.Sees goal true id none ∧ Carries t its id pos

/-- A state leads on to another one behind the goal without consuming anything. -/
def LeadsTo (s : State) (target : Nat) : Prop :=
  (s.sight true).hidden = false ∧ target ∈ (s.sight true).next

theorem Goes.behind {start : Iterations} (h : Goes t goal start target pos)
    (hstate : t.automaton.states[id]? = some s) (hleads : LeadsTo s target)
    (hcarries : Carries t start target pos → Carries t its id pos) : Goes t goal its id pos := by
  have hbehind {next : Option Char} (h : t.automaton.Sees goal true target next) :
      t.automaton.Sees goal true id next := .behind hstate hleads.1 hleads.2 h
  rcases h with h | ⟨ch, hch, h⟩ | ⟨h, hcarry⟩
  · exact .inl fun next => hbehind (h next)
  · exact .inr (.inl ⟨ch, hch, hbehind h⟩)
  · exact .inr (.inr ⟨hbehind h, hcarries hcarry⟩)

/-- A way that goes on further to the right carries its state with it. -/
theorem carries_of_way (hback : ∀ loop, s.loopBack = some loop → ∃ start, its loop = some start ∧
    start ≠ pos) (hstate : t.automaton.states[id]? = some s)
    (hway : ∀ (n : Nat) (its' : Iterations) (stop : Nat) (slots : Slots) (landing : Landing)
      (verdicts : Way → Verdict), pos < stop → t.Allows stop → Shifted pos stop its its' →
      verdicts .accept = .success stop slots →
      (.step ∈ s.ways (t.window.mayEnd stop) → Steps t s stop slots landing) →
      (∀ next pos' slots', .step ∈ s.ways (t.window.mayEnd stop) →
        landing = .ok (some (next, pos', slots')) →
          Yields t n (its'.passing s) next pos' slots' (verdicts .step)) →
      (∀ next, .epsilon next none ∈ s.ways (t.window.mayEnd stop) →
        Yields t n (its'.passing s) next stop slots (verdicts (.epsilon next none))) →
      (∀ next loop, .epsilon next (some loop) ∈ s.ways (t.window.mayEnd stop) →
        Yields t n ((its'.passing s).set loop (some stop)) next stop slots
          (verdicts (.epsilon next (some loop)))) →
      ∃ way ∈ s.ways (t.window.mayEnd stop), verdicts way ≠ .failure) :
    Carries t its id pos := by
  intro n its' stop slots v hlt hallows hshifted hyields
  cases hyields with
  | idle hstate' hback' hopen =>
    obtain rfl := Option.some.inj (hstate.symm.trans hstate')
    obtain ⟨start, hstart, hne⟩ := hback _ hback'
    rw [hshifted _ hopen] at hstart
    exact absurd (Option.some.inj hstart).symm hne
  | ways verdicts _ _ _ hstate' _ haccept hstep _ _ hland _ _ _ hepsilon _ hiteration =>
    obtain rfl := Option.some.inj (hstate.symm.trans hstate')
    obtain ⟨way, hmem, hne⟩ :=
      hway _ its' stop slots _ verdicts hlt hallows hshifted haccept hstep hland hepsilon hiteration
    exact firstOf_ne (List.mem_map_of_mem hmem) hne

/-- A step that only opens or closes a group goes on where it leads. -/
theorem Goes.of_group {start : Iterations} (hstate : t.automaton.states[id]? = some s)
    (hback : ∀ loop, s.loopBack = some loop → ∃ start, its loop = some start ∧ start ≠ pos)
    (hleads : LeadsTo s target) (haction : s.action ≠ .none)
    (hlands : ∀ (stop : Nat) (slots : Slots) (landing : Landing), Steps t s stop slots landing →
      ∃ slots', landing = .ok (some (target, stop, slots')))
    (hstart : start = its.passing s) (h : Goes t goal start target pos) :
      Goes t goal its id pos := by
  subst hstart
  refine h.behind hstate hleads fun hcarries => carries_of_way hback hstate ?_
  intro n its' stop slots landing verdicts hlt hallows hshifted _ hstep hland _ _
  have hmem : .step ∈ s.ways (t.window.mayEnd stop) := step_mem_ways.2 (by simp [haction])
  obtain ⟨slots', hlanding⟩ := hlands stop slots landing (hstep hmem)
  refine ⟨.step, hmem, ?_⟩
  exact hcarries n _ stop slots' _ hlt hallows (hshifted.passing s) (hland _ _ _ hmem hlanding)

/-- A transition behind the goal consumes a character that is seen, or it hides everything. -/
theorem goes_of_plain {slots : Slots} {landing : Landing}
    (hstate : t.automaton.states[id]? = some s)
    (hplain : s.action.isPlain) (hsteps : Steps t s pos slots landing) (hne : landing ≠ .ok none) :
    Goes t goal its id pos := by
  rcases hsteps.of_plain hplain with
    ⟨set, target, htransition, rfl⟩ | ⟨look, target, htransition, -⟩
  · cases hspelled : t.spelled [set.test] pos with
    | none => simp [hspelled] at hne
    | some stop =>
      obtain ⟨ch, hch, htest, -⟩ := Setting.spelled_cons_eq_some_iff.1 hspelled
      refine .inr (.inl ⟨ch, hch, .here hstate ?_⟩)
      rw [sight_of_oneOf hplain htransition]
      simpa [Sight.shows] using htest
  · refine .inl fun next => sees_of_hidden hstate ?_ next
    rw [sight_of_look hplain htransition, Bool.true_or]

/-- A state that hides what it does goes on with everything. -/
theorem goes_of_hidden (hstate : t.automaton.states[id]? = some s)
    (h : (s.sight true).hidden = true) :
    Goes t goal its id pos :=
  .inl fun next => sees_of_hidden hstate
    (show (s.sight (true || id == goal)).hidden = true from h) next

/-- What is seen of a state that does no more than its transition and its epsilons say. -/
theorem sight_of_plain (hplain : s.action.isPlain = true) : (s.sight true).hidden = true ∨
    (s.sight true).hidden = false ∧ (s.sight true).next = s.epsilons ∧
      (s.sight true).canEnd = s.accepting := by
  unfold State.sight
  cases haction : s.action with
  | none => rcases s.transition with _ | ⟨_ | _, _⟩ <;> simp
  | text chars next => rcases s.transition with _ | ⟨_ | _, _⟩ <;> simp
  | _ => simp [haction, Action.isPlain] at hplain

/-- Where a match can end it can end further to the right as well. -/
theorem goes_of_accept (hwindow : t.window.Sensible t.text)
    (hback : ∀ loop, s.loopBack = some loop → ∃ start, its loop = some start ∧ start ≠ pos)
    (hstate : t.automaton.states[id]? = some s) (hplain : s.action.isPlain = true)
    (hway : .accept ∈ s.ways (t.window.mayEnd pos)) : Goes t goal its id pos := by
  obtain ⟨haccepting, hmayEnd⟩ := accept_mem_ways.1 hway
  rcases sight_of_plain hplain with hsight | ⟨hopen, -, hcanEnd⟩
  · exact goes_of_hidden hstate hsight
  · refine .inr (.inr ⟨.here hstate ?_, carries_of_way hback hstate ?_⟩)
    · simp [Sight.shows, hopen, hcanEnd, haccepting]
    · intro n its' stop slots landing verdicts hlt hallows' _ haccept _ _ _ _
      refine ⟨.accept, accept_mem_ways.2 ⟨haccepting, ?_⟩, by simp [haccept]⟩
      -- A prescribed end is the limit, so nothing would lie further to the right.
      unfold Window.mayEnd at hmayEnd ⊢
      cases hmust : t.window.mustEnd with
      | none => rfl
      | some last =>
        have hlast := hwindow.mustEnd last hmust
        have := hallows'.le_limit
        simp [hmust] at hmayEnd
        omega

/-- An epsilon goes on where it leads, and so does one that begins an iteration. -/
theorem goes_of_epsilon {next : Nat} {loop : Option Nat}
    (hback : ∀ loop, s.loopBack = some loop → ∃ start, its loop = some start ∧ start ≠ pos)
    (hstate : t.automaton.states[id]? = some s) (hplain : s.action.isPlain = true)
    (hway : .epsilon next loop ∈ s.ways (t.window.mayEnd pos))
    (hnone : loop = none → Goes t goal (its.passing s) next pos)
    (hsome : ∀ id', loop = some id' → Goes t goal ((its.passing s).set id' (some pos)) next pos) :
    Goes t goal its id pos := by
  rcases sight_of_plain hplain with hsight | ⟨hopen, hnext, -⟩
  · exact goes_of_hidden hstate hsight
  have hleads : LeadsTo s next := ⟨hopen, hnext ▸ (mem_epsilons_of_mem_ways hway).1⟩
  have hway' (stop : Nat) : .epsilon next loop ∈ s.ways (t.window.mayEnd stop) :=
    epsilon_mem_ways.2 (epsilon_mem_ways.1 hway)
  cases loop with
  | none =>
    refine (hnone rfl).behind hstate hleads fun hcarries => carries_of_way hback hstate ?_
    intro n its' stop slots landing verdicts hlt hallows' hshifted _ _ _ hepsilon _
    exact ⟨.epsilon next none, hway' stop,
      hcarries n _ stop slots _ hlt hallows' (hshifted.passing s) (hepsilon next (hway' stop))⟩
  | some loop =>
    refine (hsome loop rfl).behind hstate hleads fun hcarries => carries_of_way hback hstate ?_
    intro n its' stop slots landing verdicts hlt hallows' hshifted _ _ _ _ hiteration
    exact ⟨.epsilon next (some loop), hway' stop, hcarries n _ stop slots _ hlt hallows'
      ((hshifted.passing s).set loop) (hiteration next loop (hway' stop))⟩

/-- The action or the transition of a state goes on where it leads, if only a group is opened
or closed.  Otherwise it consumes a character that is seen, or it hides everything. -/
theorem goes_of_step {slots : Slots} {landing : Landing}
    (hback : ∀ loop, s.loopBack = some loop → ∃ start, its loop = some start ∧ start ≠ pos)
    (hstate : t.automaton.states[id]? = some s) (hsteps : Steps t s pos slots landing)
    (hne : landing ≠ .ok none)
    (hland : ∀ next pos' slots', landing = .ok (some (next, pos', slots')) →
      Goes t goal (its.passing s) next pos') : Goes t goal its id pos := by
  have hgroup (target : Nat) (haction : s.action ≠ .none) (hleads : LeadsTo s target)
      (hlands : ∀ (stop : Nat) (slots : Slots) (landing : Landing), Steps t s stop slots landing →
        ∃ slots', landing = .ok (some (target, stop, slots'))) : Goes t goal its id pos := by
    obtain ⟨slots', hlanding⟩ := hlands pos slots landing hsteps
    exact Goes.of_group hstate hback hleads haction hlands rfl (hland _ _ _ hlanding)
  cases haction : s.action with
  | none => exact goes_of_plain hstate (by simp [haction, Action.isPlain]) hsteps hne
  | text chars next => exact goes_of_plain hstate (by simp [haction, Action.isPlain]) hsteps hne
  | capture slot body close dfa =>
    refine hgroup body (by simp [haction])
      ⟨by simp [State.sight, haction], by simp [State.sight, haction]⟩
      fun stop slots landing h => ?_
    have hlands := h.landsAt
    simp only [Setting.LandsAt, haction] at hlands
    exact ⟨_, hlands⟩
  | captureClose slot next =>
    refine hgroup next (by simp [haction])
      ⟨by simp [State.sight, haction], by simp [State.sight, haction]⟩
      fun stop slots landing h => ?_
    have hlands := h.landsAt
    simp only [Setting.LandsAt, haction] at hlands
    exact ⟨_, hlands⟩
  | _ => exact goes_of_hidden hstate (by simp [State.sight, haction])

/-- Where a search goes on behind the goal, this has been foreseen. -/
theorem goes_of_yields (hc : t.automaton.HasChart c) (hwindow : t.window.Sensible t.text) {n : Nat}
    {slots : Slots} {v : Verdict} (h : Yields t n its id pos slots v) (hne : v ≠ .failure) :
    Goes t goal its id pos := by
  induction h with
  | idle => exact absurd rfl hne
  | @ways n its id s pos slots landing verdicts closes hinside hallows hstate hback haccept
      hstep hstuck hfault hland _ _ _ hepsilon _ hiteration ihland _ ihepsilon ihiteration =>
    obtain ⟨v, hmem, hv⟩ := exists_of_firstOf_ne hne
    obtain ⟨way, hway, rfl⟩ := List.mem_map.1 hmem
    -- A state that does more than its transition and its epsilons say has only one way.
    have hplain (hmore : s.epsilons ≠ [] ∨ s.accepting = true) : s.action.isPlain = true := by
      by_contra hfalse
      obtain ⟨-, hepsilons, haccepting⟩ := hc.bare hstate (by simpa using hfalse)
      simp [hepsilons, haccepting] at hmore
    cases way with
    | accept =>
      exact goes_of_accept hwindow hback hstate (hplain (.inr (accept_mem_ways.1 hway).1)) hway
    | epsilon next loop =>
      have hepsilons := List.ne_nil_of_mem (mem_epsilons_of_mem_ways hway).1
      refine goes_of_epsilon hback hstate (hplain (.inl hepsilons)) hway
        (fun hloop => ?_) fun loop' hloop => ?_
      · subst hloop
        exact ihepsilon next hway hv
      · subst hloop
        exact ihiteration next loop' hway hv
    | step =>
      exact goes_of_step hback hstate (hstep hway) (fun h => hv (hstuck h))
        fun next pos' slots' h => ihland next pos' slots' hway h hv

end

end RegexEngine
