import Mathlib.Algebra.Order.Field.Rat
import Mathlib.Data.Finset.Insert
import Mathlib.Data.Rat.Defs
import Mathlib.Order.Interval.Set.Basic
import RegexEngine.Proofs.Layout.Compile

/-!
# Charts

A chart says where each state of an automaton lies: in which fragment, inside which
loops, and how far from the end.  A state leads on to states of the same fragment,
inside the same loops and nearer to the end, unless it begins or ends an iteration.  So
whoever goes round in an automaton begins and ends iterations.

* `Chart.Places` is what a chart says of one state.
* `Chart.Holds` is what it says of all states and fragments.
* `Chart.Of` says that a chart holds of a draft, and the lemmas behind it are about the
  steps of a compilation.
-/

namespace RegexEngine

/-! ## What an action is about -/

namespace Action

/-- The states to which an action leads. -/
def targets : Action → List Nat
  | none => []
  | text _ next => [next]
  | capture _ body close _ => [body, close]
  | captureClose _ next => [next]
  | reference _ _ _ next => [next]
  | lookAround _ _ _ next => [next]
  | atomic _ next => [next]
  | possessive _ _ _ next => [next]
  | dfa _ next => [next]

/-- The slots that an action reads or writes. -/
def slots : Action → List Nat
  | capture slot _ _ _ => [slot]
  | captureClose slot _ => [slot]
  | reference _ slot _ _ => slot.toList
  | _ => []

/-- The fragments that an action runs. -/
def fragments : Action → List Nat
  | lookAround _ _ id _ => [id]
  | atomic id _ => [id]
  | possessive id _ _ _ => [id]
  | _ => []

/-- The deterministic automata that an action runs. -/
def dfas : Action → List Nat
  | capture _ _ _ id => id.toList
  | dfa id _ => [id]
  | _ => []

end Action

namespace Automaton

/-- The states to which a state leads. -/
def State.targets (s : State) : List Nat :=
  s.action.targets ++ (s.transition.map (·.target)).toList ++ s.epsilons

/-- How much of everything there is. -/
structure Extent where
  /-- The number of states. -/
  states : Nat
  /-- The number of fragments. -/
  fragments : Nat
  /-- The number of loops. -/
  loops : Nat
  /-- The number of slots. -/
  slots : Nat
  /-- The number of deterministic automata. -/
  dfas : Nat

/-- How much of everything an automaton has. -/
def extent (a : Automaton) : Extent :=
  ⟨a.states.size, a.fragments.size, a.loopCount, a.slotCount, a.dfas.size⟩

/-- How much of everything a draft has. -/
def Draft.extent (d : Draft) : Extent :=
  ⟨d.states.size, d.fragments.size, d.loopCount, d.slotCount, 0⟩

/-- There is no less of anything. -/
structure Extent.Le (e e' : Extent) : Prop where
  /-- No state is lost. -/
  states : e.states ≤ e'.states
  /-- No fragment is lost. -/
  fragments : e.fragments ≤ e'.fragments
  /-- No loop is lost. -/
  loops : e.loops ≤ e'.loops
  /-- No slot is lost. -/
  slots : e.slots ≤ e'.slots
  /-- No deterministic automaton is lost. -/
  dfas : e.dfas ≤ e'.dfas

end Automaton

open Automaton

/-! ## Charts -/

/-- Where the states of an automaton lie. -/
structure Chart where
  /-- The fragment of a state. -/
  zone : Nat → Nat
  /-- How far a state is from the end of its fragment. -/
  rank : Nat → ℚ
  /-- The loops around a state. -/
  around : Nat → Finset Nat
  /-- The state where the iterations of a loop begin. -/
  head : Nat → Nat

namespace Chart

/-- Two states lie in one fragment, inside the same loops. -/
structure Beside (c : Chart) (id target : Nat) : Prop where
  /-- They lie in one fragment. -/
  zone_eq : c.zone target = c.zone id
  /-- They lie inside the same loops. -/
  around_eq : c.around target = c.around id

/-- A state may lead to another one that is nearer to the end. -/
structure Leads (c : Chart) (id target : Nat) : Prop extends c.Beside id target where
  /-- It is nearer. -/
  rank_lt : c.rank target < c.rank id

/-- A state that does more than its transition and its epsilons say has neither. -/
abbrev Bare (s : State) : Prop :=
  s.action.isPlain = false → s.transition = none ∧ s.epsilons = [] ∧ s.accepting = false

/-- What a chart says of a state. -/
inductive Places (c : Chart) (e : Extent) (id : Nat) (s : State) : Prop
  /-- The state has nothing to do with loops. -/
  | ordinary (hhead : s.loopHead = none) (hback : s.loopBack = none) (hbare : Bare s)
      (hleads : ∀ target ∈ s.targets, target < e.states ∧ c.Leads id target)
      (hslots : ∀ slot ∈ s.action.slots, slot < e.slots)
      (hfragments : ∀ f ∈ s.action.fragments, f < c.zone id ∧ f < e.fragments)
      (hdfas : ∀ dfa ∈ s.action.dfas, dfa < e.dfas)
  /-- The state begins an iteration or leaves the loop. -/
  | head {first exit loop : Nat} {lazy : Bool}
      (hs : s = { epsilons := [first, exit], lazy, loopHead := some loop })
      (hfirst : first < e.states) (hexit : exit < e.states) (hloop : loop < e.loops)
      (hhead : c.head loop = id) (hleads : c.Leads id exit) (hzone : c.zone first = c.zone id)
      (hrank : c.rank first < c.rank id) (hnew : loop ∉ c.around id)
      (haround : c.around first = insert loop (c.around id))
  /-- The state ends an iteration. -/
  | back {loop : Nat} (hs : s = { epsilons := [c.head loop], loopBack := some loop })
      (hlt : c.head loop < e.states) (hloop : loop < e.loops)
      (hzone : c.zone (c.head loop) = c.zone id) (hnew : loop ∉ c.around (c.head loop))
      (haround : c.around id = insert loop (c.around (c.head loop)))

/-- What a chart says of a fragment: it begins and ends outside of all loops. -/
structure Frames (c : Chart) (e : Extent) (id : Nat) (f : Fragment) : Prop where
  /-- The first state exists. -/
  start_lt : f.start < e.states
  /-- The last state exists. -/
  accept_lt : f.accept < e.states
  /-- The first state lies in the fragment. -/
  zone_eq : c.zone f.start = id
  /-- There is no loop around it. -/
  around_eq : c.around f.start = ∅
  /-- The last state lies beside it. -/
  leads : c.Leads f.start f.accept
  /-- A deterministic automaton for it exists. -/
  dfas : ∀ dfa, f.dfa = some dfa → dfa < e.dfas

/-- A chart holds of states and fragments. -/
structure Holds (c : Chart) (e : Extent) (states : Array State) (fragments : Array Fragment) :
    Prop where
  /-- It says where each state lies. -/
  states : ∀ (id : Nat) (s : State), states[id]? = some s → c.Places e id s
  /-- A loop around a state begins in the same fragment. -/
  around : ∀ id < e.states, ∀ loop ∈ c.around id,
    loop < e.loops ∧ c.head loop < e.states ∧ c.zone (c.head loop) = c.zone id
  /-- It says where each fragment lies. -/
  fragments : ∀ (id : Nat) (f : Fragment), fragments[id]? = some f → c.Frames e id f

/-- A chart says the same as another one of what the other one is about. -/
structure Extends (c' c : Chart) (states loops : Nat) : Prop where
  /-- States lie in the same fragments. -/
  zone : ∀ id < states, c'.zone id = c.zone id
  /-- States are as far from the end. -/
  rank : ∀ id < states, c'.rank id = c.rank id
  /-- States lie inside the same loops. -/
  around : ∀ id < states, c'.around id = c.around id
  /-- Loops begin in the same states. -/
  head : ∀ loop < loops, c'.head loop = c.head loop

variable {c c' c'' : Chart} {e e' : Extent} {id mid target : Nat} {s : State}

theorem Beside.trans (h : c.Beside id mid) (h' : c.Beside mid target) : c.Beside id target :=
  ⟨h'.zone_eq.trans h.zone_eq, h'.around_eq.trans h.around_eq⟩

theorem Leads.trans (h : c.Leads id mid) (h' : c.Leads mid target) : c.Leads id target :=
  ⟨h.toBeside.trans h'.toBeside, h'.rank_lt.trans h.rank_lt⟩

theorem Extends.refl (c : Chart) (states loops : Nat) : c.Extends c states loops :=
  ⟨fun _ _ => rfl, fun _ _ => rfl, fun _ _ => rfl, fun _ _ => rfl⟩

theorem Extends.trans {states states' loops loops' : Nat} (h' : c''.Extends c' states' loops')
    (h : c'.Extends c states loops) (hstates : states ≤ states') (hloops : loops ≤ loops') :
    c''.Extends c states loops where
  zone id hid := (h'.zone id (by omega)).trans (h.zone id hid)
  rank id hid := (h'.rank id (by omega)).trans (h.rank id hid)
  around id hid := (h'.around id (by omega)).trans (h.around id hid)
  head loop hloop := (h'.head loop (by omega)).trans (h.head loop hloop)

theorem Beside.extends {states loops : Nat} (h : c.Beside id target)
    (hext : c'.Extends c states loops)
    (hid : id < states) (htarget : target < states) : c'.Beside id target := by
  refine ⟨?_, ?_⟩
  · rw [hext.zone id hid, hext.zone target htarget, h.zone_eq]
  · rw [hext.around id hid, hext.around target htarget, h.around_eq]

theorem Leads.extends {states loops : Nat} (h : c.Leads id target)
    (hext : c'.Extends c states loops)
    (hid : id < states) (htarget : target < states) : c'.Leads id target := by
  refine ⟨h.toBeside.extends hext hid htarget, ?_⟩
  rw [hext.rank id hid, hext.rank target htarget]
  exact h.rank_lt

/-- What a chart says of a state stays true when it is extended. -/
theorem Places.extends (h : c.Places e id s) (hid : id < e.states)
    (hext : c'.Extends c e.states e.loops) (hle : e.Le e') : c'.Places e' id s := by
  cases h with
  | ordinary hhead hback hbare hleads hslots hfragments hdfas =>
    refine .ordinary hhead hback hbare (fun target htarget => ?_)
      (fun slot hslot => Nat.lt_of_lt_of_le (hslots slot hslot) hle.slots) (fun f hf => ?_)
      fun dfa hdfa => Nat.lt_of_lt_of_le (hdfas dfa hdfa) hle.dfas
    · obtain ⟨hlt, htarget⟩ := hleads target htarget
      exact ⟨Nat.lt_of_lt_of_le hlt hle.states, htarget.extends hext hid hlt⟩
    · obtain ⟨hzone, hlt⟩ := hfragments f hf
      exact ⟨by rwa [hext.zone id hid], Nat.lt_of_lt_of_le hlt hle.fragments⟩
  | head hs hfirst hexit hloop hhead hleads hzone hrank hnew haround =>
    refine .head hs (Nat.lt_of_lt_of_le hfirst hle.states) (Nat.lt_of_lt_of_le hexit hle.states)
      (Nat.lt_of_lt_of_le hloop hle.loops) ((hext.head _ hloop).trans hhead)
      (hleads.extends hext hid hexit) ?_ ?_ ?_ ?_
    · rw [hext.zone _ hfirst, hext.zone id hid, hzone]
    · rwa [hext.rank _ hfirst, hext.rank id hid]
    · rwa [hext.around id hid]
    · rw [hext.around _ hfirst, hext.around id hid, haround]
  | @back loop hs hlt hloop hzone hnew haround =>
    have hhead := hext.head loop hloop
    have hs' : s = { epsilons := [c'.head loop], loopBack := some loop } := by
      rw [hhead]
      exact hs
    refine .back hs' ?_ (Nat.lt_of_lt_of_le hloop hle.loops) ?_ ?_ ?_
    · rw [hhead]
      exact Nat.lt_of_lt_of_le hlt hle.states
    · rw [hhead, hext.zone _ hlt, hext.zone id hid, hzone]
    · rwa [hhead, hext.around _ hlt]
    · rw [hhead, hext.around _ hlt, hext.around id hid, haround]

/-- States lead to states that exist. -/
theorem Places.target_lt (h : c.Places e id s) (htarget : target ∈ s.targets) :
    target < e.states := by
  cases h with
  | ordinary _ _ _ hleads => exact (hleads target htarget).1
  | @head first exit _ _ hs hfirst hexit =>
    subst hs
    have htarget : target = first ∨ target = exit := by
      simpa [State.targets, Action.targets] using htarget
    rcases htarget with rfl | rfl
    · exact hfirst
    · exact hexit
  | @back loop hs hlt =>
    subst hs
    obtain rfl : target = c.head loop := by simpa [State.targets, Action.targets] using htarget
    exact hlt

/-- What a chart says of a fragment stays true when it is extended. -/
theorem Frames.extends {f : Fragment} (h : c.Frames e id f) (hext : c'.Extends c e.states e.loops)
    (hle : e.Le e') : c'.Frames e' id f where
  start_lt := Nat.lt_of_lt_of_le h.start_lt hle.states
  accept_lt := Nat.lt_of_lt_of_le h.accept_lt hle.states
  zone_eq := (hext.zone _ h.start_lt).trans h.zone_eq
  around_eq := (hext.around _ h.start_lt).trans h.around_eq
  leads := h.leads.extends hext h.start_lt h.accept_lt
  dfas dfa hdfa := Nat.lt_of_lt_of_le (h.dfas dfa hdfa) hle.dfas

/-- A state may be changed for one that lies as well where it lies. -/
theorem Holds.modify {states : Array State} {fragments : Array Fragment}
    (h : c.Holds e states fragments) {id : Nat} {f : State → State}
    (hplaces : ∀ s, states[id]? = some s → c.Places e id (f s)) :
    c.Holds e (states.modify id f) fragments := by
  refine ⟨fun id' s hs => ?_, h.around, h.fragments⟩
  rw [Array.getElem?_modify] at hs
  split at hs
  · rename_i heq
    subst heq
    obtain ⟨s₀, hs₀, rfl⟩ := Option.map_eq_some_iff.1 hs
    exact hplaces s₀ hs₀
  · exact h.states id' s hs

/-- A fragment may be changed for one that begins and ends as well where it does. -/
theorem Holds.modifyFragment {states : Array State} {fragments : Array Fragment}
    (h : c.Holds e states fragments) {id : Nat} {f : Fragment → Fragment}
    (hframes : ∀ fragment, fragments[id]? = some fragment → c.Frames e id (f fragment)) :
    c.Holds e states (fragments.modify id f) := by
  refine ⟨h.states, h.around, fun id' fragment hfragment => ?_⟩
  rw [Array.getElem?_modify] at hfragment
  split at hfragment
  · rename_i heq
    subst heq
    obtain ⟨fragment₀, hfragment₀, rfl⟩ := Option.map_eq_some_iff.1 hfragment
    exact hframes fragment₀ hfragment₀
  · exact h.fragments id' fragment hfragment

/-- A chart holds on if there is more of everything. -/
theorem Holds.mono {states : Array State} {fragments : Array Fragment}
    (h : c.Holds e states fragments) (hsize : states.size = e.states)
    (hstates : e'.states = e.states) (hle : e.Le e') : c.Holds e' states fragments where
  states id s hs :=
    (h.states id s hs).extends (hsize ▸ (Array.getElem?_eq_some_iff.1 hs).1) (.refl _ _ _) hle
  around id hid loop hloop := by
    rw [hstates] at hid ⊢
    obtain ⟨hlt, hrest⟩ := h.around id hid loop hloop
    exact ⟨Nat.lt_of_lt_of_le hlt hle.loops, hrest⟩
  fragments id f hf := (h.fragments id f hf).extends (.refl _ _ _) hle

/-- A state lies where it lay after the slot of its reference has been filled in. -/
theorem Places.resolve (h : c.Places e id s) {slot? : GroupKey → Option Nat}
    (hslots : ∀ key slot, slot? key = some slot → slot < e.slots) :
    c.Places e id (s.resolve slot?) := by
  unfold State.resolve
  split
  · rename_i group slot ignoreCase next haction
    cases h with
    | ordinary hhead hback hbare hleads _ hfragments hdfas =>
      simp only [State.targets, haction] at hleads
      refine .ordinary hhead hback (fun _ => hbare (by simp [haction, Action.isPlain])) hleads
        (fun slot hslot => ?_) (fun f hf => by cases hf) fun dfa hdfa => by cases hdfa
      exact hslots group slot (Option.mem_toList.1 hslot)
    | head hs => simp [hs] at haction
    | back hs => simp [hs] at haction
  · exact h

/-- A chart places a state from which nothing leads on. -/
theorem places_bare (c : Chart) (e : Extent) (id : Nat) (accepting : Bool) :
    c.Places e id { accepting } :=
  .ordinary rfl rfl (fun h => by cases h) (fun _ h => by cases h) (fun _ h => by cases h)
    (fun _ h => by cases h) fun _ h => by cases h

/-! ## Drafts -/

/-- A chart holds of a draft. -/
def Of (c : Chart) (d : Draft) : Prop :=
  c.Holds d.extent d.states d.fragments

variable {d d' : Draft} {zone : Nat} {rank low : ℚ} {around : Finset Nat}

/-- States are changed for ones that lie as well where they lie. -/
theorem Of.of_states (h : c.Of d) (hsize : d'.states.size = d.states.size)
    (hstates : ∀ id s, d'.states[id]? = some s → d.states[id]? = some s ∨ c.Places d.extent id s)
    (hfragments : d'.fragments = d.fragments) (hloops : d.loopCount ≤ d'.loopCount)
    (hslots : d.slotCount ≤ d'.slotCount) : c.Of d' := by
  have hle : d.extent.Le d'.extent :=
    ⟨Nat.le_of_eq hsize.symm, Nat.le_of_eq (congrArg Array.size hfragments).symm, hloops, hslots,
      Nat.le_refl _⟩
  have hholds : c.Holds d.extent d'.states d'.fragments :=
    ⟨fun id s hs => (hstates id s hs).elim (h.states id s) fun hplaces => hplaces, h.around,
      hfragments ▸ h.fragments⟩
  exact Holds.mono hholds hsize hsize hle

/-- A change that leaves alone the states and the fragments. -/
theorem Of.of_same (h : c.Of d) (hstates : d'.states = d.states)
    (hfragments : d'.fragments = d.fragments)
    (hloops : d.loopCount ≤ d'.loopCount) (hslots : d.slotCount ≤ d'.slotCount) : c.Of d' :=
  h.of_states (by rw [hstates]) (fun id s hs => .inl (by rwa [hstates] at hs)) hfragments
    hloops hslots

/-- A chart for one more state. -/
def add (c : Chart) (id zone : Nat) (rank : ℚ) (around : Finset Nat) : Chart where
  zone := Function.update c.zone id zone
  rank := Function.update c.rank id rank
  around := Function.update c.around id around
  head := c.head

theorem extends_add (c : Chart) (zone : Nat) (rank : ℚ) (around : Finset Nat) {states : Nat}
    (loops : Nat) (hid : states ≤ id) :
    (c.add id zone rank around).Extends c states loops where
  zone _ h := Function.update_of_ne (by omega) _ _
  rank _ h := Function.update_of_ne (by omega) _ _
  around _ h := Function.update_of_ne (by omega) _ _
  head _ _ := rfl

@[simp] theorem add_zone (c : Chart) : (c.add id zone rank around).zone id = zone :=
  Function.update_self _ _ _

@[simp] theorem add_rank (c : Chart) : (c.add id zone rank around).rank id = rank :=
  Function.update_self _ _ _

@[simp] theorem add_around (c : Chart) : (c.add id zone rank around).around id = around :=
  Function.update_self _ _ _

/-- A new state may lie anywhere. -/
theorem Of.addState (h : c.Of d) (haround : ∀ loop ∈ around,
    loop < d.loopCount ∧ c.head loop < d.states.size ∧ c.zone (c.head loop) = zone) :
    (c.add d.states.size zone rank around).Of { d with states := d.states.push {} } := by
  have hext := c.extends_add zone rank around d.loopCount (Nat.le_refl d.states.size)
  have hle : d.extent.Le (Draft.extent { d with states := d.states.push {} }) :=
    ⟨by simp [Draft.extent], Nat.le_refl _, Nat.le_refl _, Nat.le_refl _, Nat.le_refl _⟩
  refine ⟨fun id s hs => ?_, fun id hid loop hloop => ?_, fun id f hf => ?_⟩
  · rw [Array.getElem?_push] at hs
    split at hs
    · cases hs
      exact places_bare _ _ _ false
    · exact (h.states id s hs).extends (Array.getElem?_eq_some_iff.1 hs).1 hext hle
  · simp only [Draft.extent, Array.size_push] at hid ⊢
    have hold (hhead : c.head loop < d.states.size) :
        (c.add d.states.size zone rank around).zone (c.head loop) = c.zone (c.head loop) :=
      hext.zone _ hhead
    by_cases heq : id = d.states.size
    · subst heq
      rw [add_around] at hloop
      obtain ⟨hlt, hhead, hzone⟩ := haround loop hloop
      refine ⟨hlt, Nat.lt_succ_of_lt hhead, ?_⟩
      rw [add_zone]
      exact (hold hhead).trans hzone
    · have hid' : id < d.states.size := by omega
      rw [hext.around id hid'] at hloop
      obtain ⟨hlt, hhead, hzone⟩ := h.around id hid' loop hloop
      refine ⟨hlt, Nat.lt_succ_of_lt hhead, ?_⟩
      rw [hext.zone id hid', ← hzone]
      exact hold hhead
  · exact (h.fragments id f hf).extends hext hle

/-- A state is changed for one that lies as well where it lies. -/
theorem Of.update (h : c.Of d) {f : State → State}
    (hplaces : ∀ s, d.states[id]? = some s → c.Places d.extent id (f s)) :
    c.Of { d with states := d.states.modify id f } := by
  have hextent : Draft.extent { d with states := d.states.modify id f } = d.extent := by
    simp [Draft.extent]
  unfold Of
  rw [hextent]
  exact Holds.modify h hplaces

/-- A chart for one more loop. -/
def addLoop (c : Chart) (loop head : Nat) : Chart :=
  { c with head := Function.update c.head loop head }

/-- A new loop may begin anywhere. -/
theorem Of.addLoop (h : c.Of d) (head : Nat) :
    (c.addLoop d.loopCount head).Of { d with loopCount := d.loopCount + 1 } ∧
      (c.addLoop d.loopCount head).Extends c d.states.size d.loopCount := by
  have hext : (c.addLoop d.loopCount head).Extends c d.states.size d.loopCount :=
    ⟨fun _ _ => rfl, fun _ _ => rfl, fun _ _ => rfl,
      fun _ h => Function.update_of_ne (by omega) _ _⟩
  have hle : d.extent.Le (Draft.extent { d with loopCount := d.loopCount + 1 }) :=
    ⟨Nat.le_refl _, Nat.le_refl _, Nat.le_succ _, Nat.le_refl _, Nat.le_refl _⟩
  refine ⟨⟨fun id s hs => ?_, fun id hid loop hloop => ?_, fun id f hf => ?_⟩, hext⟩
  · exact (h.states id s hs).extends (Array.getElem?_eq_some_iff.1 hs).1 hext hle
  · obtain ⟨hlt, hhead, hzone⟩ := h.around id hid loop hloop
    rw [hext.head loop hlt]
    exact ⟨Nat.lt_succ_of_lt hlt, hhead, hzone⟩
  · exact (h.fragments id f hf).extends hext hle

/-- A fragment is added that begins and ends where the chart says. -/
theorem Of.addFragment {f : Fragment} (h : c.Of d) (hf : c.Frames d.extent d.fragments.size f) :
    c.Of { d with fragments := d.fragments.push f } := by
  have hle : d.extent.Le (Draft.extent { d with fragments := d.fragments.push f }) :=
    ⟨Nat.le_refl _, by simp [Draft.extent], Nat.le_refl _, Nat.le_refl _, Nat.le_refl _⟩
  refine ⟨fun id s hs => ?_, h.around, fun id f' hf' => ?_⟩
  · exact (h.states id s hs).extends (Array.getElem?_eq_some_iff.1 hs).1 (.refl _ _ _) hle
  · rw [Array.getElem?_push] at hf'
    split at hf'
    · rename_i heq
      subst heq
      cases hf'
      exact hf.extends (.refl _ _ _) hle
    · exact (h.fragments id f' hf').extends (.refl _ _ _) hle

end Chart

end RegexEngine
