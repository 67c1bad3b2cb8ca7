import RegexEngine.Proofs.Chart.Repetition
import RegexEngine.Proofs.Dfa.Exact

/-!
# Every automaton has a chart

* `ChartedAny.cons` is about alternatives.
* `keepsChart_closed` puts the constructs together.
* `Automaton.exists_chart` is about the automaton of a pattern.
-/

namespace RegexEngine

namespace Automaton

section

variable {room : Nat} {part : Build.Part}

/-! ## Alternatives -/

/-- Compiling alternatives keeps to a chart. -/
abbrev ChartedAny (room : Nat) (parts : Nat → Nat → Build Unit) : Prop :=
  CompilesAny KeepsChart room parts

theorem chartedAny_nil : ChartedAny room (fun _ _ => pure ()) where
  lays := ⟨_, _, laysAny_nil⟩
  keeps d start exit d' _ _ _ _ hrun := by
    obtain ⟨-, rfl⟩ := Build.pure_eq_ok.1 hrun
    exact fun c low hc haims _ => ⟨c, hc, .refl _ _ _, (haims.leads rfl).toBeside,
      (haims.leads rfl).rank_lt.le, fun h => by cases h⟩

/-- The start of an alternative lies behind the state where they start. -/
theorem of_forks {c : Chart} {d d₁ : Draft} {start first : Nat} {epsilons : List Nat} {low : ℚ}
    (hc : c.Of d) (h : Forks d start first d₁) (hstate : d.states[start]? = some { epsilons })
    (hlow : low < c.rank start) :
    ∃ c' : Chart, c'.Of d₁ ∧ c'.Extends c d.states.size d.loopCount ∧ c'.Leads start first ∧
      low < c'.rank first := by
  have hstart := (Array.getElem?_eq_some_iff.1 hstate).1
  obtain ⟨c', hc', hext, hfirst, hleads, hlow'⟩ :=
    hc.addBehind hstart hlow (Build.addState_eq_ok.2 ⟨h.first_eq, rfl⟩)
  refine ⟨c', hc'.of_states (by simp [h.size_eq]) (fun id s hs => ?_) (by rw [h.draft_eq])
    (Nat.le_of_eq (by rw [h.draft_eq])) (Nat.le_of_eq (by rw [h.draft_eq])), hext, hleads, hlow'⟩
  have hid := (Array.getElem?_eq_some_iff.1 hs).1
  rw [h.size_eq] at hid
  by_cases hnew : id = first
  · rw [hnew, h.bare] at hs
    cases hs
    exact .inr (c'.places_bare _ _ false)
  · have hlt : id < d.states.size := by
      have := h.first_eq
      omega
    have hold : (d.states.push {})[id]? = d.states[id]? := by
      rw [Array.getElem?_push_lt hlt, Array.getElem?_eq_getElem hlt]
    by_cases hid' : id = start
    · rw [hid', h.state epsilons hstate] at hs
      cases hs
      rw [hid'] at hold ⊢
      cases hc'.states start _ (hold.trans hstate) with
      | ordinary _ _ _ htargets =>
        refine .inr (.ordinary rfl rfl (fun h => by cases h) (fun target htarget => ?_)
          (fun _ h => by cases h) (fun _ h => by cases h) fun _ h => by cases h)
        rcases List.mem_append.1 (show target ∈ epsilons ++ [first] from htarget) with hmem | hmem
        · exact htargets target (show target ∈ epsilons from hmem)
        · rw [List.mem_singleton.1 hmem]
          exact ⟨hfirst, hleads⟩
      | head hs => cases hs
      | back hs => cases hs
    · exact .inl (hold.trans ((h.grows.states id hlt hid').symm.trans hs))

/-- The start of an alternative is made and the state where they start leads to it. -/
theorem ChartedAny.cons {parts : Nat → Nat → Build Unit} (h : Charted room part)
    (h' : ChartedAny room parts) :
    ChartedAny room (fun start exit => do
      let first ← Build.addState
      Build.addEpsilon start first
      let _ ← part first (some exit)
      parts start exit) where
  lays := by
    obtain ⟨_, _, hlays⟩ := h.lays
    obtain ⟨_, _, hlays'⟩ := h'.lays
    exact ⟨_, _, hlays'.cons hlays⟩
  keeps d start exit d' hd hroom hstate hexit hrun := by
    intro c low hc haims hzone
    obtain ⟨_, _, hlays⟩ := h.lays
    obtain ⟨_, _, hlays'⟩ := h'.lays
    obtain ⟨epsilons, hstate⟩ := hstate
    have hstart := (Array.getElem?_eq_some_iff.1 hstate).1
    obtain ⟨first, d₁, d₂, hbranch, hrest⟩ := hlays.takesBranch hd hroom hstart hexit hrun
    have hgrows₁ := hbranch.forks.grows
    have hgrows₂ := hbranch.laid.grows
    have hsize₁ := hgrows₁.size_le
    have hsize₂ := hgrows₂.size_le
    obtain ⟨c₁, hc₁, hext₁, hleads₁, hlow₁⟩ := of_forks hc hbranch.forks hstate haims.low_lt
    -- The alternative.
    have hlaid' := hlays' d₂ start exit d' hbranch.booked hbranch.room_lt hbranch.start_lt
      ⟨hexit.1, hbranch.exit_lt⟩ hrest
    have haims₁ := haims.extends hext₁ hstart fun id hid => by cases hid; exact hexit.2
    obtain ⟨c₂, hc₂, hext₂, -⟩ := h.keeps d₁ first (some exit) exit d₂ hbranch.booked_body
      hbranch.room_lt_body hbranch.ready_body hbranch.compiles c₁
      low hc₁ (haims₁.of_beside hleads₁.toBeside hlow₁) (by
        rw [hleads₁.zone_eq, hext₁.zone start hstart]
        exact Nat.le_trans hlaid'.grows.fragments_le hzone)
    -- The other alternatives.
    have hext₂' := hext₂.trans hext₁ hsize₁ hgrows₁.loopCount_le
    have haims₂ := haims.extends hext₂' hstart fun id hid => by cases hid; exact hexit.2
    obtain ⟨c', hc', hext', hbeside, hrank, -⟩ := h'.keeps d₂ start exit d' hbranch.booked
      hbranch.room_lt ⟨_, hbranch.state epsilons hstate⟩ ⟨hexit.1, hbranch.exit_lt⟩ hrest c₂ low hc₂
      haims₂ (by rw [hext₂'.zone start hstart]; exact hzone)
    exact ⟨c', hc', hext'.trans hext₂' (Nat.le_trans hsize₁ hsize₂)
      (Nat.le_trans hgrows₁.loopCount_le hgrows₂.loopCount_le), hbeside, hrank, fun h => by cases h⟩

end

/-- Every construct keeps to a chart. -/
theorem keepsChart_closed : Effect.Closed KeepsChart where
  lastGroup _ hkeeps c low hc :=
    hkeeps c low (hc.of_same rfl rfl (Nat.le_refl _) (Nat.le_refl _))
  skip := charted_skip
  oneOf := charted_oneOf
  look := charted_look
  reference := charted_reference
  text := charted_text
  seq := Charted.seq
  capture key numbered hopens h := Charted.capture h key numbered hopens
  around := Charted.around
  withTarget := ChartedTo.withTarget
  optionalCopies lazy n hlays h :=
    ⟨⟨_, _, laysTo_optionalCopies hlays lazy n⟩, fun _ _ _ _ hd hroom hready hrun =>
      keepsChart_optionalCopies hlays h lazy (n + 1) hd hroom hready hrun⟩
  loop lazy hlays h := ChartedTo.loop hlays h lazy
  nil := chartedAny_nil
  cons := ChartedAny.cons

/-! ## Automata -/

/-- A chart of an automaton.  The pattern begins and ends outside of all loops, and it is
in no fragment. -/
structure HasChart (a : Automaton) (c : Chart) : Prop where
  /-- The chart holds. -/
  holds : c.Holds a.extent a.states a.fragments
  /-- The first state of the pattern exists. -/
  start_lt : a.start < a.states.size
  /-- The last state of the pattern exists. -/
  accept_lt : a.accept < a.states.size
  /-- There is no loop around the first state. -/
  around_eq : c.around a.start = ∅
  /-- The last state of the pattern lies beside it. -/
  leads : c.Beside a.start a.accept
  /-- The deterministic automata give answers. -/
  dfas : ∀ dfa ∈ a.dfas, dfa.Reliable

/-- The automaton of a pattern has a chart. -/
theorem exists_chart {o : Options} {p : Pattern} {a : Automaton} (h : compile o p = .ok a) :
    ∃ c : Chart, a.HasChart c := by
  obtain ⟨accept, d, hpart, rfl⟩ := compile_eq_ok h
  obtain ⟨hlaid, hd, hbare⟩ := laid_of_compilePart hpart
  let c : Chart := ⟨fun _ => d.fragments.size, fun _ => 1, fun _ => ∅, fun _ => 0⟩
  have hc : c.Of { states := #[{}] } := by
    refine ⟨fun id s hs => ?_,
      fun id _ loop hloop => by simp [c] at hloop, fun id f hf => by simp at hf⟩
    obtain ⟨hlt, rfl⟩ := Array.getElem?_eq_some_iff.1 hs
    obtain rfl : id = 0 := by simpa using hlt
    exact c.places_bare _ _ false
  obtain ⟨c', hc', hext, hbeside, -⟩ := (Pattern.compiles keepsChart_closed o p).keeps
    { states := #[{}] } 0 none accept d booked_empty (by decide) ready_empty hpart c 0 hc
    ⟨one_pos, fun _ h => (by cases h), fun _ h => by cases h⟩ (Nat.le_refl _)
  have hextent : (d.whole accept).extent = d.extent := by
    simp only [extent, Draft.extent, d.size_whole]
    rfl
  have hholds : c'.Holds d.extent (d.whole accept).states (d.whole accept).fragments := by
    refine ⟨fun id s hs => ?_, hc'.around, hc'.fragments⟩
    rw [d.getElem?_whole] at hs
    obtain ⟨s₀, hs₀, rfl⟩ := Option.map_eq_some_iff.1 hs
    refine Chart.Places.resolve ?_ hd.lt_slotCount
    by_cases haccept : accept = id
    · rw [if_pos haccept, ← haccept, hbare] at hs₀
      cases hs₀
      exact c'.places_bare _ _ true
    · rw [if_neg haccept] at hs₀
      exact hc'.states id s₀ hs₀
  refine ⟨c', by rw [hextent]; exact hholds, ?_, ?_, hext.around 0 (by simp), hbeside,
    fun dfa h => absurd h (Array.not_mem_empty dfa)⟩
  · rw [d.size_whole]
    exact Nat.lt_of_lt_of_le (show 0 < 1 by decide) hlaid.grows.size_le
  · rw [d.size_whole]
    exact (Array.getElem?_eq_some_iff.1 hbare).1

end Automaton

end RegexEngine
