import RegexEngine.Automaton.Promotion
import RegexEngine.Proofs.Chart.Compile

/-!
# Charts of automata with deterministic automata

Letting regions run on deterministic automata moves no state: a chart holds on.  The one
state that is added, where the whole pattern runs on a deterministic automaton, lies in
front of the last state.
-/

namespace RegexEngine

open Automaton

namespace Chart

variable {c : Chart} {a : Automaton} {e : Extent}

/-- A capture may run on any deterministic automaton that exists. -/
theorem Places.capture {id slot body close dfa : Nat} {old : Option Nat} {s : State}
    (h : c.Places e id s) (haction : s.action = .capture slot body close old)
    (hdfa : dfa < e.dfas) :
    c.Places e id { s with action := .capture slot body close (some dfa) } := by
  cases h with
  | ordinary hhead hback hbare hleads hslots hfragments hdfas =>
    simp only [State.targets, haction] at hleads
    rw [haction] at hslots
    refine .ordinary hhead hback (fun _ => hbare (by simp [haction, Action.isPlain])) hleads hslots
      (fun f hf => by cases hf) fun d hd => ?_
    rw [List.mem_singleton.1 hd]
    exact hdfa
  | head hs => simp [hs] at haction
  | back hs => simp [hs] at haction

/-- One more state may be added in front of another one. -/
theorem Holds.pushDfa {states : Array State} {fragments : Array Fragment}
    (h : c.Holds e states fragments) (hsize : states.size = e.states) {dfa accept : Nat}
    (hdfa : dfa < e.dfas) (haccept : accept < e.states) :
    (c.add e.states (c.zone accept) (c.rank accept + 1) (c.around accept)).Holds
      { e with states := e.states + 1 } (states.push { action := .dfa dfa accept }) fragments := by
  have hext := c.extends_add (c.zone accept) (c.rank accept + 1)
    (c.around accept) e.loops (Nat.le_refl e.states)
  have hle : e.Le { e with states := e.states + 1 } :=
    ⟨Nat.le_succ _, Nat.le_refl _, Nat.le_refl _, Nat.le_refl _, Nat.le_refl _⟩
  refine ⟨fun id s hs => ?_, fun id hid loop hloop => ?_,
    fun id f hf => (h.fragments id f hf).extends hext hle⟩
  · rw [Array.getElem?_push] at hs
    split at hs
    · rename_i heq
      cases hs
      subst heq
      rw [hsize]
      refine .ordinary rfl rfl (fun _ => ⟨rfl, rfl, rfl⟩) (fun target htarget => ?_)
        (fun _ h => by cases h) (fun _ h => by cases h) ?_
      · obtain rfl : target = accept := by simpa [State.targets, Action.targets] using htarget
        refine ⟨Nat.lt_succ_of_lt haccept, ⟨?_, ?_⟩, ?_⟩
        · rw [hext.zone _ haccept, add_zone]
        · rw [hext.around _ haccept, add_around]
        · rw [hext.rank _ haccept, add_rank]
          exact lt_add_one _
      · intro d hd
        rw [List.mem_singleton.1 hd]
        exact hdfa
    · exact (h.states id s hs).extends (hsize ▸ (Array.getElem?_eq_some_iff.1 hs).1) hext hle
  · have hin : ∃ id' < e.states, loop ∈ c.around id' ∧
        (c.add e.states (c.zone accept) (c.rank accept + 1) (c.around accept)).zone id =
            c.zone id' := by
      by_cases heq : id = e.states
      · subst heq
        rw [add_around] at hloop
        exact ⟨accept, haccept, hloop, c.add_zone⟩
      · have hlt : id < e.states := by
          have : id < e.states + 1 := hid
          omega
        rw [hext.around id hlt] at hloop
        exact ⟨id, hlt, hloop, hext.zone id hlt⟩
    obtain ⟨id', hid', hloop', hzone⟩ := hin
    obtain ⟨hlt, hhead, heq⟩ := h.around id' hid' loop hloop'
    refine ⟨hlt, Nat.lt_succ_of_lt hhead, ?_⟩
    rw [hzone, ← heq]
    exact hext.zone _ hhead

end Chart

namespace Automaton

variable {a : Automaton} {c : Chart}

/-- One more deterministic automaton changes nothing. -/
theorem HasChart.addDfa (h : a.HasChart c) (start : Nat) {goal : Nat}
    (hgoal : goal < a.states.size) :
    (a.addDfa start goal).HasChart c where
  holds := by
    refine h.holds.mono rfl rfl ⟨Nat.le_refl _, Nat.le_refl _, Nat.le_refl _, Nat.le_refl _, ?_⟩
    simp [extent, Automaton.addDfa]
  start_lt := h.start_lt
  accept_lt := h.accept_lt
  around_eq := h.around_eq
  leads := h.leads
  dfas := by
    intro dfa hdfa
    rcases Array.mem_push.1 hdfa with hold | rfl
    · exact h.dfas dfa hold
    · exact Dfa.reliable_ofPart a start hgoal

/-- The last deterministic automaton that has been added exists. -/
theorem lt_addDfa (a : Automaton) (start goal : Nat) :
    a.dfas.size < (a.addDfa start goal).extent.dfas := by
  simp [extent, addDfa]

/-- A region moves no state. -/
theorem HasChart.promoteRegion (h : a.HasChart c) (region : Region) :
    (a.promoteRegion region).HasChart c := by
  cases region with
  | capture state =>
    unfold Automaton.promoteRegion
    dsimp only
    split
    · rename_i slot body close old haction
      obtain ⟨s, hs, haction⟩ := Option.map_eq_some_iff.1 haction
      split
      · have hclose : close < a.states.size := by
          cases h.holds.states state s hs with
          | ordinary _ _ _ hleads =>
            exact (hleads close (by simp [State.targets, haction, Action.targets])).1
          | head hs => simp [hs] at haction
          | back hs => simp [hs] at haction
        have hadd := h.addDfa body hclose
        have hextent : extent { a.addDfa body close with
            states := a.states.modify state fun s =>
              { s with action := .capture slot body close (some a.dfas.size) } } =
            (a.addDfa body close).extent := by
          simp [extent, Automaton.addDfa]
        refine ⟨?_, ?_, ?_, hadd.around_eq, hadd.leads, hadd.dfas⟩
        · have hholds : c.Holds (a.addDfa body close).extent a.states a.fragments := hadd.holds
          have hmodified : c.Holds (a.addDfa body close).extent (a.states.modify state fun s =>
              { s with action := .capture slot body close (some a.dfas.size) }) a.fragments := by
            refine hholds.modify fun s' hs' => ?_
            obtain rfl := Option.some.inj (hs.symm.trans hs')
            exact (hholds.states state s hs).capture haction (a.lt_addDfa body close)
          rw [hextent]
          exact hmodified
        · simpa [Automaton.addDfa] using h.start_lt
        · simpa [Automaton.addDfa] using h.accept_lt
      · exact h
    · exact h
  | fragment id =>
    unfold Automaton.promoteRegion
    dsimp only
    split
    · rename_i fragment hfragment
      split
      · have hadd := h.addDfa fragment.start (h.holds.fragments id fragment hfragment).accept_lt
        have hextent : extent { a.addDfa fragment.start fragment.accept with
            fragments := a.fragments.modify id fun f => { f with dfa := some a.dfas.size } } =
            (a.addDfa fragment.start fragment.accept).extent := by
          simp [extent, Automaton.addDfa]
        have hholds : c.Holds (a.addDfa fragment.start fragment.accept).extent a.states
            a.fragments :=
          hadd.holds
        have hmodified : c.Holds (a.addDfa fragment.start fragment.accept).extent a.states
            (a.fragments.modify id fun f => { f with dfa := some a.dfas.size }) := by
          refine hholds.modifyFragment fun f hf => ?_
          have hframes := hholds.fragments id f hf
          refine ⟨hframes.start_lt, hframes.accept_lt, hframes.zone_eq, hframes.around_eq,
            hframes.leads, fun dfa hdfa => ?_⟩
          cases hdfa
          exact a.lt_addDfa fragment.start fragment.accept
        refine ⟨?_, hadd.start_lt, hadd.accept_lt, hadd.around_eq, hadd.leads, hadd.dfas⟩
        rw [hextent]
        exact hmodified
      · exact h
    · exact h

/-- The state that runs the whole pattern lies in front of its last state. -/
theorem HasChart.promoteWhole (h : a.HasChart c) : ∃ c', a.promoteWhole.HasChart c' := by
  unfold Automaton.promoteWhole
  split
  · have hadd := h.addDfa a.start h.accept_lt
    have hext := c.extends_add (c.zone a.accept) (c.rank a.accept + 1)
      (c.around a.accept) a.loopCount (Nat.le_refl a.states.size)
    refine ⟨_, ?_, ?_, ?_, (hext.around _ h.start_lt).trans h.around_eq,
      h.leads.extends hext h.start_lt h.accept_lt, hadd.dfas⟩
    · have hpush := hadd.holds.pushDfa rfl (a.lt_addDfa a.start a.accept) h.accept_lt
      simp only [extent, Array.size_push]
      exact hpush
    · rw [Array.size_push]
      exact Nat.lt_succ_of_lt h.start_lt
    · rw [Array.size_push]
      exact Nat.lt_succ_of_lt h.accept_lt
  · exact ⟨c, h⟩

/-- With deterministic automata an automaton still has a chart. -/
theorem HasChart.promote (h : a.HasChart c) : ∃ c', a.promote.HasChart c' := by
  have hregions (regions : List Region) (a : Automaton) (h : a.HasChart c) :
      (regions.foldl Automaton.promoteRegion a).HasChart c := by
    induction regions generalizing a with
    | nil => exact h
    | cons region regions ih => exact ih _ (h.promoteRegion region)
  exact (hregions a.regions a h).promoteWhole

/-- The automaton of a pattern is made of the one without deterministic automata. -/
theorem ofPattern_eq_ok {o : Options} {p : Pattern} (h : ofPattern o p = .ok a) :
    ∃ b, compile o p = .ok b ∧ a = b.promote := by
  unfold ofPattern at h
  cases hcompile : compile o p with
  | error e => simp [hcompile, Except.map] at h
  | ok b =>
    rw [hcompile] at h
    exact ⟨b, rfl, (Except.ok.inj h).symm⟩

end Automaton

end RegexEngine
