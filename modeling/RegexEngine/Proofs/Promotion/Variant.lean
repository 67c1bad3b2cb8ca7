import RegexEngine.Proofs.Chart.Promotion
import RegexEngine.Proofs.Choice.Replacing
import RegexEngine.Proofs.Promotion.Shape

/-!
# Promotion gives a variant

Letting regions run on deterministic automata changes nothing but who runs these regions, and
each of the deterministic automata stands for its region.

* `Automaton.Promoted` says so of two automata.
* `Promoted.region` is about one more region, and `Promoted.regions` about all of them.
-/

namespace RegexEngine

open Automaton

section

variable {a b : Automaton} {replaced : Dfa → Nat → Nat → Prop}

/-- A variant with as many states has the same shape. -/
theorem Variant.sameShape (h : Variant a b replaced) (hsize : b.states.size = a.states.size) :
    a.SameShape b := by
  refine Array.ext_getElem? fun id => ?_
  rw [Array.getElem?_map, Array.getElem?_map]
  cases hs : a.states[id]? with
  | none =>
    have hout : b.states[id]? = none := by
      rw [Array.getElem?_eq_none_iff] at hs ⊢
      omega
    rw [hout]
  | some s =>
    rcases h.states id s hs with hsame | ⟨slot, body, close, id', dfa, haction, hstate, -, -⟩
    · rw [hsame]
    · simp [hstate, State.shape, Action.shape, haction]

/-- One more deterministic automaton changes nothing. -/
theorem Variant.addDfa (h : Variant a b replaced) (start goal : Nat) :
    Variant a (b.addDfa start goal) replaced := by
  have hdfas {id' : Nat} {dfa : Dfa} (hdfa : b.dfas[id']? = some dfa) :
      (b.addDfa start goal).dfas[id']? = some dfa := by
    have hlt := (Array.getElem?_eq_some_iff.1 hdfa).1
    show (b.dfas.push _)[id']? = some dfa
    rw [Array.getElem?_push, if_neg (Nat.ne_of_lt hlt), hdfa]
  refine ⟨fun id f hf => ?_, fun id s hs => ?_, h.slotCount_eq, h.loopCount_eq⟩
  · obtain ⟨dfa, hfragment, hreplaced⟩ := h.fragments id f hf
    exact ⟨dfa, hfragment, fun id' heq => (hreplaced id' heq).imp fun d hd => ⟨hdfas hd.1, hd.2⟩⟩
  · refine (h.states id s hs).imp_right ?_
    rintro ⟨slot, body, close, id', dfa, haction, hstate, hdfa, hreplaced⟩
    exact ⟨slot, body, close, id', dfa, haction, hstate, hdfas hdfa, hreplaced⟩

theorem getElem?_dfas_addDfa (b : Automaton) (start goal : Nat) :
    (b.addDfa start goal).dfas[b.dfas.size]? = some (Dfa.ofPart b start goal) := by
  simp [Automaton.addDfa]

/-- A capture runs on a deterministic automaton that stands for its body. -/
theorem Variant.capture (h : Variant a b replaced) {id slot body close id' : Nat} {s : State}
    {dfa : Dfa} (hs : a.states[id]? = some s) (haction : s.action = .capture slot body close none)
    (hdfa : b.dfas[id']? = some dfa) (hreplaced : replaced dfa body close) :
    Variant a { b with
      states := b.states.modify id fun s =>
        { s with action := .capture slot body close (some id') } }
      replaced := by
  refine ⟨h.fragments, fun id₂ s₂ hs₂ => ?_, h.slotCount_eq, h.loopCount_eq⟩
  rw [Array.getElem?_modify]
  by_cases heq : id = id₂
  · subst heq
    obtain rfl := Option.some.inj (hs.symm.trans hs₂)
    rw [if_pos rfl]
    refine .inr ⟨slot, body, close, id', dfa, haction, ?_, hdfa, hreplaced⟩
    rcases h.states id s hs with hsame | ⟨_, _, _, _, _, _, hstate, -, -⟩
    · rw [hsame, Option.map_some]
    · rw [hstate, Option.map_some]
  · rw [if_neg heq]
    exact h.states id₂ s₂ hs₂

/-- A fragment runs on a deterministic automaton that stands for it. -/
theorem Variant.fragment (h : Variant a b replaced) {id id' : Nat} {dfa : Dfa}
    (hdfa : b.dfas[id']? = some dfa)
    (hreplaced : ∀ f, a.fragments[id]? = some f → replaced dfa f.start f.accept) :
    Variant a { b with fragments := b.fragments.modify id fun f => { f with dfa := some id' } }
      replaced := by
  refine ⟨fun id₂ f hf => ?_, h.states, h.slotCount_eq, h.loopCount_eq⟩
  obtain ⟨old, hfragment, hold⟩ := h.fragments id₂ f hf
  rw [Array.getElem?_modify]
  by_cases heq : id = id₂
  · subst heq
    refine ⟨some id', by rw [if_pos rfl, hfragment, Option.map_some], fun id₃ h₃ => ?_⟩
    obtain rfl := Option.some.inj h₃
    exact ⟨dfa, hdfa, hreplaced f hf⟩
  · exact ⟨old, by rw [if_neg heq, hfragment], hold⟩

end

namespace Automaton

variable {a b : Automaton} {c : Chart}

/-- Some regions of an automaton run on deterministic automata that stand for them. -/
structure Promoted (a : Automaton) (c : Chart) (b : Automaton) : Prop where
  /-- Nothing else is different. -/
  isVariant : Variant a b (a.Replaces c)
  /-- There are as many states. -/
  size_eq : b.states.size = a.states.size
  /-- The numbered groups have the same slots. -/
  groups_eq : b.groups = a.groups
  /-- The named groups have the same slots. -/
  names_eq : b.names = a.names
  /-- The first state is the same. -/
  start_eq : b.start = a.start
  /-- The last state is the same. -/
  accept_eq : b.accept = a.accept
  /-- A match begins in the same state. -/
  entry_eq : b.entry = a.entry

/-- An automaton in which nothing runs on a deterministic automaton. -/
theorem Promoted.refl (hfragments : ∀ (id : Nat) (f : Fragment), a.fragments[id]? = some f →
    f.dfa = none) :
    a.Promoted c a where
  isVariant :=
    { fragments := fun id f hf =>
      ⟨none, by rw [← hfragments id f hf]; exact hf, fun _ h => by cases h⟩
      states := fun _ _ hs => .inl hs
      slotCount_eq := rfl
      loopCount_eq := rfl }
  size_eq := rfl
  groups_eq := rfl
  names_eq := rfl
  start_eq := rfl
  accept_eq := rfl
  entry_eq := rfl

theorem Promoted.sameShape (h : a.Promoted c b) : a.SameShape b :=
  h.isVariant.sameShape h.size_eq

/-- The deterministic automaton of a region stands for it, whichever regions inside it run on
deterministic automata already. -/
theorem Promoted.replaces (h : a.Promoted c b) {start goal : Nat}
    (hdet : b.isDeterministic start goal)
    (hstart : start < a.states.size) (hgoal : goal < a.states.size)
    (hbeside : c.Beside start goal) :
    a.Replaces c (Dfa.ofPart b start goal) start goal where
  deterministic := by rw [← h.sameShape.isDeterministic_eq]; exact hdet
  start_lt := hstart
  beside := hbeside
  longest text pos limit hpos hlimit := by
    have hends : Dfa.endsFrom b text goal [start] limit pos =
        Dfa.endsFrom a text goal [start] limit pos := by
      simp only [Dfa.endsFrom, h.sameShape.reads_iff]
    rw [← hends]
    exact Dfa.longest_runBounded b text start (h.size_eq ▸ hgoal) hpos hlimit

/-- A capture in a promoted automaton opens the same group in front of the same body. -/
theorem Promoted.capture_action (h : a.Promoted c b) (hc : a.HasChart c) (hdfas : a.dfas = #[])
    {id slot body close : Nat} {old : Option Nat} {s : State} (hs : b.states[id]? = some s)
    (haction : s.action = .capture slot body close old) :
    ∃ s, a.states[id]? = some s ∧ s.action = .capture slot body close none := by
  have hlt : id < a.states.size := h.size_eq ▸ (Array.getElem?_eq_some_iff.1 hs).1
  obtain ⟨s', hs'⟩ : ∃ s', a.states[id]? = some s' := ⟨_, Array.getElem?_eq_getElem hlt⟩
  refine ⟨s', hs', ?_⟩
  rcases h.isVariant.states id s' hs' with
    hsame | ⟨slot', body', close', id', dfa, haction', hstate, -, -⟩
  · obtain rfl := Option.some.inj (hs.symm.trans hsame)
    have hnone : ∀ dfa ∈ s.action.dfas, False := fun dfa hdfa => by
      cases hc.holds.states id s hs' with
      | ordinary _ _ _ _ _ _ hlt =>
        have := hlt dfa hdfa
        simp [extent, hdfas] at this
      | head hs => simp [hs] at haction
      | back hs => simp [hs] at haction
    cases old with
    | none => exact haction
    | some dfa => exact (hnone dfa (by simp [haction, Action.dfas])).elim
  · obtain rfl := Option.some.inj (hs.symm.trans hstate)
    cases haction
    exact haction'

/-- The body of a capture is a region. -/
theorem HasChart.capture (hc : a.HasChart c) {id slot body close : Nat} {old : Option Nat}
    {s : State} (hs : a.states[id]? = some s) (haction : s.action = .capture slot body close old) :
    body < a.states.size ∧ close < a.states.size ∧ c.Beside body close := by
  cases hc.holds.states id s hs with
  | ordinary _ _ _ hleads =>
    obtain ⟨hbody, hbodyLeads⟩ := hleads body (by simp [State.targets, haction, Action.targets])
    obtain ⟨hclose, hcloseLeads⟩ := hleads close (by simp [State.targets, haction, Action.targets])
    exact ⟨hbody, hclose, hcloseLeads.zone_eq.trans hbodyLeads.zone_eq.symm,
      hcloseLeads.around_eq.trans hbodyLeads.around_eq.symm⟩
  | head hs => simp [hs] at haction
  | back hs => simp [hs] at haction

/-- One more region runs on a deterministic automaton, if it may. -/
theorem Promoted.region (h : a.Promoted c b) (hc : a.HasChart c) (hdfas : a.dfas = #[])
    (region : Region) :
    a.Promoted c (b.promoteRegion region) := by
  cases region with
  | capture id =>
    unfold promoteRegion
    dsimp only
    split
    · rename_i slot body close old haction
      obtain ⟨s, hs, haction⟩ := Option.map_eq_some_iff.1 haction
      obtain ⟨s', hs', haction'⟩ := h.capture_action hc hdfas hs haction
      obtain ⟨hbody, hclose, hbeside⟩ := hc.capture hs' haction'
      split
      · rename_i hdet
        have hvariant := (h.isVariant.addDfa body close).capture hs' haction'
          (getElem?_dfas_addDfa b body close) (h.replaces hdet hbody hclose hbeside)
        exact ⟨hvariant, (Array.size_modify ..).trans h.size_eq, h.groups_eq, h.names_eq,
          h.start_eq, h.accept_eq, h.entry_eq⟩
      · exact h
    · exact h
  | fragment id =>
    unfold promoteRegion
    dsimp only
    split
    · rename_i fragment hfragment
      split
      · rename_i hdet
        have hreplaced (f : Fragment) (hf : a.fragments[id]? = some f) :
            a.Replaces c (Dfa.ofPart b fragment.start fragment.accept) f.start f.accept := by
          obtain ⟨dfa, hsame, -⟩ := h.isVariant.fragments id f hf
          obtain rfl := Option.some.inj (hfragment.symm.trans hsame)
          have hframes := hc.holds.fragments id f hf
          exact h.replaces hdet hframes.start_lt hframes.accept_lt hframes.leads.toBeside
        have hvariant := (h.isVariant.addDfa fragment.start fragment.accept).fragment
          (getElem?_dfas_addDfa b fragment.start fragment.accept) hreplaced
        exact ⟨hvariant, h.size_eq, h.groups_eq, h.names_eq, h.start_eq, h.accept_eq, h.entry_eq⟩
      · exact h
    · exact h

/-- All regions run on deterministic automata that may. -/
theorem Promoted.regions (h : a.Promoted c b) (hc : a.HasChart c) (hdfas : a.dfas = #[])
    (regions : List Region) : a.Promoted c (regions.foldl promoteRegion b) := by
  induction regions generalizing b with
  | nil => exact h
  | cons region regions ih => exact ih (h.region hc hdfas region)

/-- Before the whole pattern may run on a deterministic automaton its regions do. -/
theorem exists_promoted {o : Options} {p : Pattern} (h : compile o p = .ok a) (hc : a.HasChart c) :
    ∃ b, a.Promoted c b ∧ a.promote = b.promoteWhole := by
  obtain ⟨ranges, keys, hlies⟩ := Pattern.exists_liesIn h
  have hdfas : a.dfas = #[] := by
    obtain ⟨accept, d, -, rfl⟩ := compile_eq_ok h
    rfl
  have hrefl : a.Promoted c a := .refl fun id f hf => (hlies.fragments id f hf).2
  exact ⟨_, hrefl.regions hc hdfas a.regions, rfl⟩

end Automaton

end RegexEngine
