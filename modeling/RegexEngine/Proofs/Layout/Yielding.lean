import RegexEngine.Proofs.Search.Verdict

/-!
# What single states yield

Most states have an action or a transition, or only epsilons, or nothing but that a
match ends in them.  There is one lemma for each of these.
-/

namespace RegexEngine

section States

variable {t : Setting} {n : Nat} {its : Iterations} {id pos : Nat} {slots : Slots}

/-- What comes of a landing. -/
def Lands (t : Setting) (n : Nat) (its : Iterations) (landing : Landing) (v : Verdict) : Prop :=
  match landing with
  | .error fault => v = .error fault
  | .ok none => v = .failure
  | .ok (some (next, pos, slots)) => Yields t n its next pos slots v

/-- A state with one way, which is its action or its transition. -/
theorem Yields.of_steps {action : Action} {transition : Option Transition} {landing : Landing}
    {v : Verdict} (hinside : t.inside id) (hallows : t.Allows pos)
    (hstate : t.automaton.states[id]? = some { action, transition })
    (hway : transition.isSome || action != .none)
    (htext : ∀ chars next, action = .text chars next →
      t.automaton.ReadsText { action, transition } chars next)
    (hcapture : ∀ slot body close, action = .capture slot body close none →
      t.automaton.Encloses its pos body close ∧ ∀ stop, t.Allows stop → pos ≤ stop →
        ∃ v, Yields t n its close stop (slots.opened slot pos) v)
    (hsteps : Steps t { action, transition } pos slots landing) (hlands : Lands t n its landing v) :
    Yields t (n + 1) its id pos slots v := by
  have hways (mayEnd : Bool) :
      Automaton.State.ways { action, transition } mayEnd = [.step] := by
    simp [Automaton.State.ways, Automaton.State.epsilonWays, hway]
  have hcloses : ∀ stop, ∃ v', ∀ slot body close, action = .capture slot body close none →
      t.Allows stop → pos ≤ stop → Yields t n its close stop (slots.opened slot pos) v' := by
    intro stop
    by_cases h : (∃ slot body close, action = .capture slot body close none) ∧ t.Allows stop ∧
      pos ≤ stop
    · obtain ⟨⟨slot, body, close, haction⟩, hallows, hle⟩ := h
      obtain ⟨v', hv'⟩ := (hcapture slot body close haction).2 stop hallows hle
      refine ⟨v', fun slot' body' close' haction' _ _ => ?_⟩
      cases haction.symm.trans haction'
      exact hv'
    · exact ⟨.failure, fun slot body close haction hallows hle =>
        absurd ⟨⟨slot, body, close, haction⟩, hallows, hle⟩ h⟩
  choose closes hcloses using hcloses
  let verdicts : Way → Verdict := fun way => match way with
    | .accept => .success pos slots
    | _ => v
  have hresult : firstOf ((Automaton.State.ways { action, transition }
      (t.window.mayEnd pos)).map verdicts) = v := by
    rw [hways]
    simp [verdicts]
  rw [← hresult]
  refine .ways verdicts closes hinside hallows hstate (fun loop h => by cases h) rfl
    (fun _ => hsteps) ?_ ?_ ?_ htext (fun slot body close h => (hcapture slot body close h).1) ?_
      ?_ ?_ ?_
  · rintro rfl
    exact hlands
  · rintro fault rfl
    exact hlands
  · rintro next pos' slots' - rfl
    exact hlands
  · exact fun slot body close h stop hallows hle => hcloses stop slot body close h hallows hle
  · intro next hmem
    simp [hways] at hmem
  · intro next loop hmem
    simp [hways] at hmem
  · intro next loop hmem
    simp [hways] at hmem

/-- A state whose ways are its epsilons. -/
theorem Yields.of_epsilonWays {s : Automaton.State}
    (hplain : s.action = .none ∧ s.transition = none)
    (haccepting : s.accepting = false) (hinside : t.inside id) (hallows : t.Allows pos)
    (hstate : t.automaton.states[id]? = some s)
    (hback : ∀ loop, s.loopBack = some loop → ∃ start, its loop = some start ∧ start ≠ pos)
    (v : Nat → Verdict)
    (hepsilon : ∀ next, .epsilon next none ∈ s.epsilonWays →
      Yields t n (its.passing s) next pos slots (v next))
    (henter : ∀ next loop, .epsilon next (some loop) ∈ s.epsilonWays →
      (t.guarded loop ∧ loop < t.automaton.loopCount ∧ its.passing s loop = none ∧
        1 < s.epsilons.length) ∧
      Yields t n ((its.passing s).set loop (some pos)) next pos slots (v next)) :
    Yields t (n + 1) its id pos slots
      (firstOf ((if s.lazy then s.epsilons.reverse else s.epsilons).map v)) := by
  have hways (mayEnd : Bool) :
      s.ways mayEnd = if s.lazy then s.epsilonWays.reverse else s.epsilonWays := by
    simp [Automaton.State.ways, hplain.1, hplain.2, haccepting]
  have hmem {way : Way} {mayEnd : Bool} : way ∈ s.ways mayEnd ↔ way ∈ s.epsilonWays := by
    rw [hways]
    split <;> simp
  have hnostep (mayEnd : Bool) : .step ∉ s.ways mayEnd := by
    rw [hmem]
    simp [Automaton.State.epsilonWays]
  let verdicts : Way → Verdict := fun way => match way with
    | .epsilon next _ => v next
    | .accept => .success pos slots
    | .step => .failure
  have hresult : firstOf ((s.ways (t.window.mayEnd pos)).map verdicts) =
      firstOf ((if s.lazy then s.epsilons.reverse else s.epsilons).map v) := by
    have hmap : s.epsilonWays.map verdicts = s.epsilons.map v := by
      rw [Automaton.State.epsilonWays, List.map_map]
      rfl
    rw [hways]
    split
    · rw [List.map_reverse, List.map_reverse, hmap]
    · rw [hmap]
  rw [← hresult]
  refine @Yields.ways t _ _ _ _ _ _ (.ok none) verdicts (fun _ => .failure) hinside hallows hstate
    hback rfl
    (fun h => absurd h (hnostep _)) (fun _ => rfl) ?_ ?_ ?_ ?_ ?_ ?_ ?_ ?_
  · rintro fault h
    cases h
  · rintro next pos' slots' h
    exact absurd h (hnostep _)
  · intro chars next h
    simp [hplain.1] at h
  · intro slot body close h
    simp [hplain.1] at h
  · intro slot body close h
    simp [hplain.1] at h
  · exact fun next h => hepsilon next (hmem.1 h)
  · exact fun next loop h => (henter next loop (hmem.1 h)).1
  · exact fun next loop h => (henter next loop (hmem.1 h)).2

/-- A state that leads to other states, and neither begins nor ends a loop. -/
theorem Yields.of_epsilons {epsilons : List Nat} {lazy : Bool} (hinside : t.inside id)
    (hallows : t.Allows pos) (hstate : t.automaton.states[id]? = some { epsilons, lazy })
    (v : Nat → Verdict)
    (h : ∀ target ∈ epsilons, Yields t n its target pos slots (v target)) :
    Yields t (n + 1) its id pos slots
      (firstOf ((if lazy then epsilons.reverse else epsilons).map v)) := by
  have hways : Automaton.State.epsilonWays { epsilons, lazy } =
      epsilons.map fun next => .epsilon next none := by
    simp [Automaton.State.epsilonWays]
  refine Yields.of_epsilonWays ⟨rfl, rfl⟩ rfl hinside hallows hstate
    (fun loop h => by cases h) v ?_ ?_
  · intro next hmem
    rw [hways] at hmem
    obtain ⟨next', hnext, heq⟩ := List.mem_map.1 hmem
    cases heq
    exact h _ hnext
  · intro next loop hmem
    rw [hways] at hmem
    obtain ⟨next', hnext, heq⟩ := List.mem_map.1 hmem
    cases heq

/-- The end of an iteration that has consumed something. -/
theorem Yields.of_back {start loop began : Nat} {v : Verdict} (hinside : t.inside id)
    (hallows : t.Allows pos)
    (hstate : t.automaton.states[id]? = some { epsilons := [start], loopBack := some loop })
    (hclosed : its loop = none) (hne : began ≠ pos) (h : Yields t n its start pos slots v) :
    Yields t (n + 1) (its.set loop (some began)) id pos slots v := by
  have hpassing : (its.set loop (some began)).passing
      { epsilons := [start], loopBack := some loop } = its :=
    Iterations.set_set hclosed _
  have hopen : ∀ loop', (some loop : Option Nat) = some loop' →
      ∃ start, (its.set loop (some began)) loop' = some start ∧ start ≠ pos := by
    rintro loop' h
    cases h
    exact ⟨began, Iterations.set_self _ _ _, hne⟩
  have hyields := Yields.of_epsilonWays (n := n) ⟨rfl, rfl⟩ rfl hinside hallows hstate hopen
    (fun _ => v) (by
      intro next hmem
      rw [hpassing]
      simp [Automaton.State.epsilonWays] at hmem
      exact hmem ▸ h) (by
      intro next loop' hmem
      simp [Automaton.State.epsilonWays] at hmem)
  simpa using hyields

/-- The head of a loop begins an iteration or leaves the loop. -/
theorem Yields.of_head {first exit loop : Nat} {lazy : Bool} {more stop : Verdict}
    (hinside : t.inside id) (hallows : t.Allows pos)
    (hstate : t.automaton.states[id]? =
      some { epsilons := [first, exit], lazy, loopHead := some loop })
    (hne : first ≠ exit) (hguarded : t.guarded loop) (hlt : loop < t.automaton.loopCount)
    (hclosed : its loop = none) (hmore : Yields t n (its.set loop (some pos)) first pos slots more)
    (hstop : Yields t n its exit pos slots stop) :
    Yields t (n + 1) its id pos slots (if lazy then stop.orElse more else more.orElse stop) := by
  have hways : Automaton.State.epsilonWays
      { epsilons := [first, exit], lazy, loopHead := some loop } =
        [.epsilon first (some loop), .epsilon exit none] := by
    simp [Automaton.State.epsilonWays, hne]
  have hyields := Yields.of_epsilonWays (n := n) ⟨rfl, rfl⟩ rfl hinside
    hallows hstate (fun loop h => by cases h) (fun next => if next = first then more else stop) (by
      intro next hmem
      rw [hways] at hmem
      obtain rfl : next = exit := by simpa using hmem
      rw [if_neg (Ne.symm hne)]
      exact hstop) (by
      intro next loop' hmem
      rw [hways] at hmem
      obtain ⟨rfl, rfl⟩ : next = first ∧ loop' = loop := by simpa using hmem
      rw [if_pos rfl]
      exact ⟨⟨hguarded, hlt, hclosed, by simp⟩, hmore⟩)
  cases lazy <;> simpa [Ne.symm hne] using hyields

/-- A state where a run ends. -/
theorem Yields.of_accepting (hinside : t.inside id) (hallows : t.Allows pos)
    (hstate : t.automaton.states[id]? = some { accepting := true }) :
    Yields t (n + 1) its id pos slots
      (if t.window.mayEnd pos then .success pos slots else .failure) := by
  have hways (mayEnd : Bool) : Automaton.State.ways { accepting := true } mayEnd =
      if mayEnd then [.accept] else [] := by
    simp [Automaton.State.ways, Automaton.State.epsilonWays]
  have honly {way : Way} {mayEnd : Bool}
      (hmem : way ∈ Automaton.State.ways { accepting := true } mayEnd) : way = .accept := by
    rw [hways] at hmem
    split at hmem
    · exact List.mem_singleton.1 hmem
    · cases hmem
  let verdicts : Way → Verdict := fun way => match way with
    | .accept => .success pos slots
    | _ => .failure
  have hresult : firstOf ((Automaton.State.ways { accepting := true }
      (t.window.mayEnd pos)).map verdicts) =
      if t.window.mayEnd pos then .success pos slots else .failure := by
    rw [hways]
    split <;> rfl
  rw [← hresult]
  refine @Yields.ways t _ _ _ _ _ _ (.ok none) verdicts (fun _ => .failure) hinside hallows hstate
    (fun loop h => by cases h) rfl (fun h => by cases honly h)
      (fun _ => rfl) ?_ ?_ ?_ ?_ ?_ ?_ ?_ ?_
  · rintro fault h
    cases h
  · rintro next pos' slots' h
    cases honly h
  · intro chars next h
    cases h
  · intro slot body close h
    cases h
  · intro slot body close h
    cases h
  · intro next hmem
    cases honly hmem
  · intro next loop hmem
    cases honly hmem
  · intro next loop hmem
    cases honly hmem

end States

end RegexEngine
