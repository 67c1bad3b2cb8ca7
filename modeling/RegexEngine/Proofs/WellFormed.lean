import RegexEngine.Proofs.Arena.Compile
import RegexEngine.Proofs.Arena.Cycles

/-!
# Automata are well formed

Whatever a state or a fragment refers to exists, each state has one way of moving, each loop has
a state where it begins and a state where its iterations end, and whoever goes round in the
automaton goes round a loop.

* `Automaton.WellFormed` says so.
* `Automaton.Arranged` is what the compilation of a pattern makes of the states and what
  deterministic automata leave of it; what exists is read off a chart.
* `Automaton.wellFormed` is about the automata of all patterns.
-/

namespace RegexEngine

namespace Automaton

/-! ## Well-formed automata -/

/-- Everything that a state refers to exists. -/
structure State.Within (s : State) (e : Extent) : Prop where
  /-- The states to which it leads exist. -/
  targets : ∀ target ∈ s.targets, target < e.states
  /-- The slots that its action reads or writes exist. -/
  slots : ∀ slot ∈ s.action.slots, slot < e.slots
  /-- The fragments that its action runs exist. -/
  fragments : ∀ f ∈ s.action.fragments, f < e.fragments
  /-- The deterministic automata that its action runs exist. -/
  dfas : ∀ dfa ∈ s.action.dfas, dfa < e.dfas
  /-- The loops that it begins or of which it ends iterations exist. -/
  loops : ∀ loop, s.Concerns loop → loop < e.loops

/-- Everything that a fragment refers to exists. -/
structure Fragment.Within (f : Fragment) (e : Extent) : Prop where
  /-- The first state exists. -/
  start_lt : f.start < e.states
  /-- The last state exists. -/
  accept_lt : f.accept < e.states
  /-- The deterministic automaton for it exists. -/
  dfas : ∀ dfa, f.dfa = some dfa → dfa < e.dfas

/-- A state has one way of moving, or none. -/
structure State.MovesOnce (s : State) : Prop where
  /-- An action, other than that of a text, is the only one. -/
  action : s.action.isPlain = false → s.transition = none ∧ s.epsilons = [] ∧ s.accepting = false
  /-- There are no epsilons besides a transition, and no match ends there. -/
  transition : s.transition ≠ none → s.epsilons = [] ∧ s.accepting = false
  /-- Where a match ends there is no way on. -/
  accepting : s.accepting → s.action = .none ∧ s.transition = none ∧ s.epsilons = []

/-- An automaton that is well formed. -/
structure WellFormed (a : Automaton) : Prop where
  /-- Everything that a state refers to exists. -/
  states : ∀ (id : Nat) (s : State), a.states[id]? = some s → s.Within a.extent
  /-- Everything that a fragment refers to exists. -/
  fragments : ∀ (id : Nat) (f : Fragment), a.fragments[id]? = some f → f.Within a.extent
  /-- The slots of groups exist. -/
  slots : ∀ key slot, a.slot? key = some slot → slot < a.slotCount
  /-- The first state exists. -/
  start_lt : a.start < a.states.size
  /-- The last state exists. -/
  accept_lt : a.accept < a.states.size
  /-- The state where a match begins exists. -/
  entry_lt : a.entry < a.states.size
  /-- Each state has one way of moving. -/
  movesOnce : ∀ (id : Nat) (s : State), a.states[id]? = some s → s.MovesOnce
  /-- The transitions from a state with a text spell the text. -/
  texts : ∀ (id : Nat) (s : State) (chars : List Char) (next : Nat), a.states[id]? = some s →
    s.action = .text chars next → chars ≠ [] ∧ Spells a.states chars id next
  /-- Each loop begins in one state, and its iterations end in one state. -/
  loops : ∀ loop, loop < a.loopCount → HasLoop a.states loop
  /-- A lazy state has two epsilons. -/
  lazy : ∀ (id : Nat) (s : State), a.states[id]? = some s → s.lazy →
    ∃ first last, s.epsilons = [first, last]
  /-- Whoever goes round goes round a loop. -/
  cycles : ∀ cycle : Cycle Nat, cycle ≠ Cycle.nil → cycle.Chain a.Edge → a.Iterates cycle

variable {a b : Automaton} {c : Chart} {id : Nat} {s : State} {states : Array State}

/-! ## Single states -/

theorem State.Shaped.movesOnce (h : s.Shaped states id) : s.MovesOnce := by
  cases h with
  | simple h => cases h <;> constructor <;> simp_all [Action.isPlain]
  | text => constructor <;> simp [Action.isPlain]
  | head => constructor <;> simp [Action.isPlain]
  | back => constructor <;> simp [Action.isPlain]

theorem State.Shaped.spells (h : s.Shaped states id) {chars : List Char} {next : Nat}
    (haction : s.action = .text chars next) : chars ≠ [] ∧ Spells states chars id next := by
  cases h with
  | simple h =>
    cases h with
    | acts h =>
      dsimp only at haction
      rw [haction] at h
      cases h
    | _ => cases haction
  | text t hchars hspells =>
    cases haction
    exact ⟨hchars, hspells⟩
  | _ => cases haction

theorem State.Shaped.two_of_lazy (h : s.Shaped states id) (hlazy : s.lazy) :
    ∃ first last, s.epsilons = [first, last] := by
  cases h with
  | simple h =>
    cases h with
    | chooses first last lazy => exact ⟨first, last, rfl⟩
    | _ => cases hlazy
  | head body exit loop lazy => exact ⟨body, exit, rfl⟩
  | _ => cases hlazy

/-- Filling in the slot of a reference changes nothing else. -/
theorem State.Shaped.resolve (h : s.Shaped states id) (slot? : GroupKey → Option Nat) :
    s.resolve slot? = s ∨ (s.resolve slot?).Simple ∧ s.Simple ∧ s.transition = none := by
  unfold State.resolve
  split
  · rename_i haction
    cases h with
    | simple h =>
      cases h with
      | acts h => exact .inr ⟨.acts rfl, .acts h, rfl⟩
      | _ => cases haction
    | _ => cases haction
  · exact .inl rfl

/-- What a state refers to exists if the state is on a chart. -/
theorem HasChart.within (h : a.HasChart c) (hs : a.states[id]? = some s) : s.Within a.extent := by
  have hplaces := h.holds.states id s hs
  have htargets (target : Nat) (htarget : target ∈ s.targets) := hplaces.target_lt htarget
  cases hplaces with
  | ordinary hhead hback _ _ hslots hfragments hdfas =>
    refine ⟨htargets, hslots, fun f hf => (hfragments f hf).2, hdfas, fun loop hloop => ?_⟩
    rcases hloop with hloop | hloop
    · rw [hhead] at hloop
      cases hloop
    · rw [hback] at hloop
      cases hloop
  | head hstate _ _ hlt =>
    rw [hstate] at htargets ⊢
    refine ⟨htargets, fun _ h => (by cases h), fun _ h => (by cases h), fun _ h => (by cases h),
      fun loop hloop => ?_⟩
    rcases hloop with hloop | hloop <;> cases hloop
    exact hlt
  | back hstate _ hlt =>
    rw [hstate] at htargets ⊢
    refine ⟨htargets, fun _ h => (by cases h), fun _ h => (by cases h), fun _ h => (by cases h),
      fun loop hloop => ?_⟩
    rcases hloop with hloop | hloop <;> cases hloop
    exact hlt

theorem HasChart.fragment_within (h : a.HasChart c) {f : Fragment}
    (hf : a.fragments[id]? = some f) :
    f.Within a.extent := by
  have hframes := h.holds.fragments id f hf
  exact ⟨hframes.start_lt, hframes.accept_lt, hframes.dfas⟩

/-! ## Whole automata -/

/-- What the compilation of a pattern makes of its states and slots. -/
structure Arranged (a : Automaton) : Prop where
  /-- Each state looks like something that states can look like. -/
  shaped : ∀ (id : Nat) (s : State), a.states[id]? = some s → s.Shaped a.states id
  /-- Each loop begins in one state, and its iterations end in one state. -/
  hasLoop : ∀ loop, loop < a.loopCount → HasLoop a.states loop
  /-- The slots of groups exist. -/
  slot_lt : ∀ key slot, a.slot? key = some slot → slot < a.slotCount
  /-- The state where a match begins exists. -/
  entry_lt : a.entry < a.states.size

/-- An arranged automaton with a chart is well formed. -/
theorem Arranged.toWellFormed (h : a.Arranged) (hc : a.HasChart c) : a.WellFormed where
  states _ _ hs := hc.within hs
  fragments _ _ hf := hc.fragment_within hf
  slots := h.slot_lt
  start_lt := hc.start_lt
  accept_lt := hc.accept_lt
  entry_lt := h.entry_lt
  movesOnce id s hs := (h.shaped id s hs).movesOnce
  texts id s _ _ hs haction := (h.shaped id s hs).spells haction
  loops := h.hasLoop
  lazy id s hs hlazy := (h.shaped id s hs).two_of_lazy hlazy
  cycles _ hne hcycle := hc.iterates hne hcycle

/-- States may be filled in. -/
theorem Arranged.fills (h : a.Arranged) (hfills : Fills a.states b.states)
    (hloops : b.loopCount = a.loopCount) (hslots : b.slotCount = a.slotCount)
    (hgroups : b.groups = a.groups) (hnames : b.names = a.names)
    (hentry : b.entry < b.states.size) :
    b.Arranged where
  shaped := hfills.shaped h.shaped
  hasLoop loop hloop := (h.hasLoop loop (hloops ▸ hloop)).keeps (hfills.keepsLoop loop)
  slot_lt key slot hkey := by
    rw [hslots]
    refine h.slot_lt key slot ?_
    cases key with
    | index n => rwa [slot?, hgroups] at hkey
    | name s => rwa [slot?, hnames] at hkey
  entry_lt := hentry

/-- The last state accepts, and the slots of references are filled in. -/
theorem Draft.fills_whole (d : Draft) {accept : Nat}
    (hshaped : ∀ (id : Nat) (s : State), d.states[id]? = some s → s.Shaped d.states id)
    (hbare : d.states[accept]? = some {}) : Fills d.states (d.whole accept).states := by
  refine ⟨Nat.le_of_eq (d.size_whole accept).symm, fun id s hs => ?_⟩
  rw [d.getElem?_whole] at hs
  by_cases hid : accept = id
  · rw [if_pos hid, ← hid, hbare] at hs
    rw [← hid, ← Option.some.inj hs]
    refine .inr ⟨.ends true, fun s₀ hs₀ => ?_⟩
    rw [← Option.some.inj (hbare.symm.trans hs₀)]
    exact ⟨.ends false, rfl⟩
  · rw [if_neg hid] at hs
    obtain ⟨s₀, hs₀, rfl⟩ := Option.map_eq_some_iff.1 hs
    rcases (hshaped id s₀ hs₀).resolve d.slot? with hsame | ⟨hsimple, hold⟩
    · rw [hsame]
      exact .inl hs₀
    · refine .inr ⟨hsimple, fun s₁ hs₁ => ?_⟩
      rw [← Option.some.inj (hs₀.symm.trans hs₁)]
      exact hold

/-- The automaton of a pattern is arranged. -/
theorem arranged_of_compile {o : Options} {p : Pattern} (h : compile o p = .ok a) : a.Arranged := by
  obtain ⟨accept, d, hpart, rfl⟩ := compile_eq_ok h
  obtain ⟨hlaid, hd, hbare⟩ := laid_of_compilePart hpart
  have hevolves := (Pattern.compiles evolves_closed o p).keeps { states := #[{}] } 0 none accept d
    booked_empty (by decide) ready_empty hpart
  have hfirst (id : Nat) (s : State) (hs : (#[{}] : Array State)[id]? = some s) : s.Simple := by
    obtain ⟨hlt, heq⟩ := Array.getElem?_eq_some_iff.1 hs
    obtain rfl : id = 0 := by simpa using hlt
    rw [← heq]
    exact .ends false
  have hshaped := hevolves.shaped fun id s hs => .simple (hfirst id s hs)
  have hfills := d.fills_whole hshaped hbare
  exact
    { shaped := hfills.shaped hshaped
      hasLoop := fun loop hloop =>
        (hevolves.hasLoop (Nat.zero_le loop) hloop fun id s hs =>
          (hfirst id s hs).not_concerns loop).keeps (hfills.keepsLoop loop)
      slot_lt := fun key slot hkey => hd.lt_slotCount key slot (d.slot?_whole accept ▸ hkey)
      entry_lt := by
        rw [d.size_whole]
        exact Nat.lt_of_lt_of_le (show 0 < 1 by decide) hlaid.grows.size_le }

/-- A region changes at most the action of a capture. -/
theorem Arranged.promoteRegion (h : a.Arranged) (region : Region) :
    (a.promoteRegion region).Arranged := by
  cases region with
  | capture state =>
    unfold Automaton.promoteRegion
    dsimp only
    split
    · rename_i slot body close old haction
      obtain ⟨s, hs, haction⟩ := Option.map_eq_some_iff.1 haction
      split
      · have hold : s.Simple ∧ s.transition = none ∧
            { s with action := .capture slot body close (some a.dfas.size) } =
              ({ action := .capture slot body close (some a.dfas.size) } : State) := by
          cases h.shaped state s hs with
          | simple hsimple =>
            cases hsimple with
            | acts hplain => exact ⟨.acts hplain, rfl, rfl⟩
            | _ => cases haction
          | _ => cases haction
        obtain ⟨hsimple, htransition, hnew⟩ := hold
        have hget := getElem?_modify_state hs fun s =>
          { s with action := .capture slot body close (some a.dfas.size) }
        refine h.fills (fills_of_update state
          (s := { action := .capture slot body close (some a.dfas.size) }) (by simp) (.acts rfl)
          (fun s₀ hs₀ => ?_) ?_ fun id hid =>
            ?_) rfl rfl rfl rfl (by simpa [addDfa] using h.entry_lt)
        · rw [← Option.some.inj (hs.symm.trans hs₀)]
          exact ⟨hsimple, htransition⟩
        · rw [← hnew]
          exact (hget state).trans (if_pos rfl)
        · exact (hget id).trans (if_neg hid)
      · exact h
    · exact h
  | fragment id =>
    unfold Automaton.promoteRegion
    dsimp only
    split
    · split
      · exact h.fills ⟨Nat.le_refl _, fun _ _ hs => .inl hs⟩ rfl rfl rfl rfl h.entry_lt
      · exact h
    · exact h

/-- With deterministic automata an automaton is still arranged. -/
theorem Arranged.promote (h : a.Arranged) : a.promote.Arranged := by
  have hregions (regions : List Region) (a : Automaton) (h : a.Arranged) :
      (regions.foldl Automaton.promoteRegion a).Arranged := by
    induction regions generalizing a with
    | nil => exact h
    | cons region regions ih => exact ih _ (h.promoteRegion region)
  have h' := hregions a.regions a h
  unfold Automaton.promote promoteWhole
  split
  · exact h'.fills (fills_push (.acts rfl)) rfl rfl rfl rfl (by simp)
  · exact h'

/-! ## Patterns -/

/-- The automaton of a pattern is well formed, with deterministic automata or without. -/
theorem wellFormed {o : Options} {p : Pattern} (h : compile o p = .ok a ∨ ofPattern o p = .ok a) :
    a.WellFormed := by
  rcases h with h | h
  · obtain ⟨c, hc⟩ := exists_chart h
    exact (arranged_of_compile h).toWellFormed hc
  · obtain ⟨b, hcompile, rfl⟩ := ofPattern_eq_ok h
    obtain ⟨c, hc⟩ := exists_chart hcompile
    obtain ⟨c', hc'⟩ := hc.promote
    exact (arranged_of_compile hcompile).promote.toWellFormed hc'

/-- Texts in a lazy loop, in front of a group. -/
def loopOfTexts : Pattern :=
  .concat [.repeated (.alt [.text ['a', 'b'], .concat []]) 1 none .lazy,
    .lookAround .ahead false (.capture (some "x") (.text ['c', 'd']))]

theorem wellFormed_loopOfTexts : ∃ a, compile {} loopOfTexts = .ok a ∧ a.loopCount = 1 ∧
    ofPattern {} loopOfTexts = .ok a.promote ∧ a.WellFormed ∧ a.promote.WellFormed := by
  have hcompile : (compile {} loopOfTexts).toOption.map loopCount = some 1 := by decide +kernel
  obtain ⟨a, ha⟩ : ∃ a, compile {} loopOfTexts = .ok a := by
    cases h : compile {} loopOfTexts with
    | error e => simp [h, Except.toOption] at hcompile
    | ok a => exact ⟨a, rfl⟩
  have hpromote : ofPattern {} loopOfTexts = .ok a.promote := by
    rw [ofPattern, ha]
    rfl
  refine ⟨a, ha, ?_, hpromote, wellFormed (.inl ha), wellFormed (.inr hpromote)⟩
  rw [ha] at hcompile
  exact Option.some.inj hcompile

end Automaton

end RegexEngine
