import Mathlib.Algebra.Order.Field.Basic
import RegexEngine.Proofs.Chart.Basic
import RegexEngine.Proofs.Layout.Induction

/-!
# Compiling parts keeps to a chart

A part is compiled from a state that a chart places, and there is a chart that also
places the states that are made.  These lie beside the first state, but for those inside
a loop or in a fragment of their own.

* `Chart.Aims` says where a part may be put.
* `Charted` says that a chart is kept, and there is one lemma for each construct.
-/

namespace RegexEngine

open Automaton

/-! ## Parts -/

namespace Chart

/-- A part may be put between a state and its last state, if that is given.  The states
of the part are farther from the end than `low`. -/
structure Aims (c : Chart) (id : Nat) (accept : Option Nat) (low : ℚ) : Prop where
  /-- There is room. -/
  low_lt : low < c.rank id
  /-- The last state lies beside the first one. -/
  beside : ∀ target, accept = some target → c.Beside id target
  /-- The last state is not farther from the end. -/
  rank_le : ∀ target, accept = some target → c.rank target ≤ low

variable {c c' : Chart} {d d' : Draft} {id start exit : Nat} {accept : Option Nat} {low : ℚ}

theorem Aims.leads (h : c.Aims id accept low) {target : Nat} (htarget : accept = some target) :
    c.Leads id target :=
  ⟨h.beside target htarget, (h.rank_le target htarget).trans_lt h.low_lt⟩

theorem Aims.extends {states loops : Nat} (h : c.Aims id accept low)
    (hext : c'.Extends c states loops)
    (hid : id < states) (haccept : ∀ target, accept = some target → target < states) :
    c'.Aims id accept low where
  low_lt := by rw [hext.rank id hid]; exact h.low_lt
  beside target htarget := (h.beside target htarget).extends hext hid (haccept target htarget)
  rank_le target htarget := by
    rw [hext.rank target (haccept target htarget)]
    exact h.rank_le target htarget

/-- What may be put behind a state may be put behind a state beside it. -/
theorem Aims.of_beside {mid : Nat} (h : c.Aims id accept low) (hmid : c.Beside id mid)
    (hlow : low < c.rank mid) : c.Aims mid accept low where
  low_lt := hlow
  beside target htarget := by
    obtain ⟨hzone, haround⟩ := h.beside target htarget
    exact ⟨hzone.trans hmid.zone_eq.symm, haround.trans hmid.around_eq.symm⟩
  rank_le := h.rank_le

/-- What is placed farther from the end can be reached. -/
theorem Aims.single {target : Nat} (h : c.Leads id target) :
    c.Aims id (some target) (c.rank target) where
  low_lt := h.rank_lt
  beside _ heq := by cases heq; exact h.toBeside
  rank_le _ heq := by cases heq; exact le_refl _

/-- A new state may lie anywhere. -/
theorem Of.addAnywhere (h : c.Of d) (zone : Nat) (rank : ℚ) (around : Finset Nat)
    (haround : ∀ loop ∈ around,
      loop < d.loopCount ∧ c.head loop < d.states.size ∧ c.zone (c.head loop) = zone)
    (hrun : Build.addState d = .ok (exit, d')) :
    ∃ c' : Chart, c'.Of d' ∧ c'.Extends c d.states.size d.loopCount ∧ c'.zone exit = zone ∧
      c'.rank exit = rank ∧ c'.around exit = around := by
  obtain ⟨rfl, rfl⟩ := Build.addState_eq_ok.1 hrun
  exact ⟨_, h.addState haround, c.extends_add _ _ _ _ (Nat.le_refl _), c.add_zone, c.add_rank,
    c.add_around⟩

/-- A new state behind another one. -/
theorem Of.addBehind (h : c.Of d) (hid : id < d.states.size) (hlow : low < c.rank id)
    (hrun : Build.addState d = .ok (exit, d')) :
    ∃ c' : Chart, c'.Of d' ∧ c'.Extends c d.states.size d.loopCount ∧ exit < d'.states.size ∧
      c'.Leads id exit ∧ low < c'.rank exit := by
  obtain ⟨rank, hlow, hrank⟩ := exists_between hlow
  obtain ⟨c', hc', hext, hzone, hrank', haround⟩ := h.addAnywhere _ rank _ (h.around id hid) hrun
  obtain ⟨rfl, rfl⟩ := Build.addState_eq_ok.1 hrun
  refine ⟨c', hc', hext, by simp, ⟨⟨?_, ?_⟩, ?_⟩, hrank'.symm ▸ hlow⟩
  · rw [hzone, hext.zone id hid]
  · rw [haround, hext.around id hid]
  · rw [hrank', hext.rank id hid]
    exact hrank

/-- The last state of a part lies behind the state that leads to it. -/
theorem Of.target (h : c.Of d) (hid : id < d.states.size) (haims : c.Aims id accept low)
    (haccept : ∀ target, accept = some target → target < d.states.size)
    (hrun : Build.target accept d = .ok (exit, d')) :
    ∃ c' : Chart, c'.Of d' ∧ c'.Extends c d.states.size d.loopCount ∧ exit < d'.states.size ∧
      c'.Leads id exit ∧ (accept = none → low < c'.rank exit) := by
  cases accept with
  | some target =>
    obtain ⟨rfl, rfl⟩ := Build.pure_eq_ok.1 hrun
    exact ⟨c, h, .refl _ _ _, haccept _ rfl, haims.leads rfl, fun h => by cases h⟩
  | none =>
    obtain ⟨c', hof, hext, hlt, hleads, hlow⟩ := h.addBehind hid haims.low_lt hrun
    exact ⟨c', hof, hext, hlt, hleads, fun _ => hlow⟩

/-- Two new states may lie anywhere, the one behind the other. -/
theorem Of.brackets {d₁ : Draft} {first last zone : Nat} {accepting : Bool} {rank rank' : ℚ}
    {around : Finset Nat} (hc : c.Of d) (hb : Brackets d first last accepting d₁)
    (hfragments : d₁.fragments = d.fragments) (hslots : d.slotCount ≤ d₁.slotCount)
    (hrank : rank' < rank) (haround : ∀ loop ∈ around,
      loop < d.loopCount ∧ c.head loop < d.states.size ∧ c.zone (c.head loop) = zone) :
    ∃ c' : Chart, c'.Of d₁ ∧ c'.Extends c d.states.size d.loopCount ∧ c'.Leads first last ∧
      c'.zone first = zone ∧ c'.rank first = rank ∧ c'.rank last = rank' ∧
        c'.around first = around := by
  obtain ⟨c₁, hc₁, hext₁, hzone₁, hrank₁, haround₁⟩ := hc.addAnywhere zone rank around haround
    (Build.addState_eq_ok.2 ⟨rfl, rfl⟩)
  have hlt : d.states.size < (d.states.push {}).size := by simp
  obtain ⟨c₂, hc₂, hext₂, hzone₂, hrank₂, haround₂⟩ := hc₁.addAnywhere _ rank' _
    (hc₁.around d.states.size hlt) (Build.addState_eq_ok.2 ⟨rfl, rfl⟩)
  obtain ⟨rfl, rfl, hsize, hbare, hlast, hgrows⟩ := hb
  have hpush : (d.states.push {}).size = d.states.size + 1 := Array.size_push _
  simp only [hpush] at hzone₂ hrank₂ haround₂
  refine ⟨c₂, hc₂.of_states ?_ (fun id s hs => ?_) hfragments (hgrows 0).loopCount_le hslots,
    hext₂.trans hext₁ (Nat.le_of_lt hlt) (Nat.le_refl _), ⟨⟨?_, ?_⟩, ?_⟩, ?_, ?_, hrank₂, ?_⟩
  · simp [hsize]
  · have hid := (Array.getElem?_eq_some_iff.1 hs).1
    rw [hsize] at hid
    by_cases hold : id < d.states.size
    · rw [(hgrows (id + 1)).states id hold (by omega)] at hs
      refine .inl ?_
      simp only [Array.getElem?_push, Array.size_push]
      rw [if_neg (by omega), if_neg (by omega), hs]
    · refine .inr ?_
      obtain rfl | rfl : id = d.states.size ∨ id = d.states.size + 1 := by omega
      · rw [hbare] at hs
        cases hs
        exact c₂.places_bare _ _ false
      · rw [hlast] at hs
        cases hs
        exact c₂.places_bare _ _ accepting
  · rw [hzone₂, hext₂.zone _ hlt]
  · rw [haround₂, hext₂.around _ hlt]
  · rw [hrank₂, hext₂.rank _ hlt, hrank₁]
    exact hrank
  · rw [hext₂.zone _ hlt, hzone₁]
  · rw [hext₂.rank _ hlt, hrank₁]
  · rw [hext₂.around _ hlt, haround₁]

/-- The states of a group lead to its body and on from there. -/
theorem Of.closes {d₁ d₂ : Draft} {slot body close : Nat} (hc : c.Of d₁)
    (h : Closes slot start body close exit d d₁ d₂)
    (hbody : body < d₁.states.size ∧ c.Leads start body)
    (hclose : close < d₁.states.size ∧ c.Leads start close)
    (hexit : exit < d₁.states.size ∧ c.Leads close exit) (hslot : slot < d₁.slotCount) :
      c.Of d₂ := by
  refine hc.of_states h.size_eq (fun id s hs => ?_) (by rw [h.draft_eq])
    (Nat.le_of_eq (by rw [h.draft_eq])) (Nat.le_of_eq (by rw [h.draft_eq]))
  have hslots (slot' : Nat) (h : slot' ∈ [slot]) : slot' < d₁.slotCount := by
    rwa [List.mem_singleton.1 h]
  by_cases hstart : id = start
  · rw [hstart, h.opens] at hs
    cases hs
    refine .inr (.ordinary rfl rfl (fun _ => ⟨rfl, rfl, rfl⟩) (fun target htarget => ?_) hslots
      (fun _ h => by cases h) fun _ h => by cases h)
    rw [hstart]
    rcases List.mem_cons.1 htarget with rfl | htarget
    · exact hbody
    · rw [List.mem_singleton.1 htarget]
      exact hclose
  · by_cases hid : id = close
    · rw [hid, h.closes] at hs
      cases hs
      refine .inr (.ordinary rfl rfl (fun _ => ⟨rfl, rfl, rfl⟩) (fun target htarget => ?_) hslots
        (fun _ h => by cases h) fun _ h => by cases h)
      rw [hid, List.mem_singleton.1 htarget]
      exact hexit
    · exact .inl ((h.states id hstart hid).symm.trans hs)

end Chart

namespace Automaton

/-- Groups have no less slots than before. -/
theorem Draft.Grows.slotCount_le {base start : Nat} {d d' : Draft} (h : Draft.Grows base start d d')
    (hd : d.Booked) : d.slotCount ≤ d'.slotCount := by
  cases hcount : d.slotCount with
  | zero => exact Nat.zero_le _
  | succ n =>
    obtain ⟨key, hkey⟩ := hd.exists_key n (by omega)
    exact (h.booked hd).lt_slotCount key n (h.slot? key n hkey)

/-- If a chart holds before a part is compiled then one holds afterwards. -/
def KeepsChart (d : Draft) (start : Nat) (accept : Option Nat) (exit : Nat) (d' : Draft) : Prop :=
  ∀ (c : Chart) (low : ℚ), c.Of d → c.Aims start accept low → d'.fragments.size ≤ c.zone start →
    ∃ c' : Chart, c'.Of d' ∧ c'.Extends c d.states.size d.loopCount ∧ c'.Beside start exit ∧
      c'.rank exit ≤ c'.rank start ∧ (accept = none → low < c'.rank exit)

/-- Compiling a part lays it out and keeps to a chart. -/
abbrev Charted (room : Nat) (part : Build.Part) : Prop :=
  Compiles KeepsChart room part

section

variable {room : Nat} {part first second : Build.Part}

/-- A state that only leads to its last state. -/
theorem keepsChart_update {d d' : Draft} {start exit : Nat} {accept : Option Nat}
    (hready : Ready d start accept) {f : Nat → State → State}
    (hloops : (f exit {}).loopHead = none ∧ (f exit {}).loopBack = none)
    (hbare : Chart.Bare (f exit {})) (htargets : ∀ target ∈ (f exit {}).targets, target = exit)
    (haction : (f exit {}).action.slots = [] ∧ (f exit {}).action.fragments = [] ∧
      (f exit {}).action.dfas = [])
    (hrun : (do
      let exit ← Build.target accept
      Build.update start (f exit)
      return exit : Build Nat) d = .ok (exit, d')) : KeepsChart d start accept exit d' := by
  intro c low hc haims _
  obtain ⟨d₁, htarget, rfl⟩ := leadsOn_eq_ok.1 hrun
  have ht := targets_target hready htarget
  obtain ⟨c₁, hc₁, hext, hlt, hleads, hlow⟩ :=
    hc.target hready.lt_size haims (fun id hid => (hready.accept id hid).2) htarget
  refine ⟨c₁, hc₁.update fun s hs => ?_, hext, hleads.toBeside, hleads.rank_lt.le, hlow⟩
  obtain rfl : s = {} := Option.some.inj (hs.symm.trans ht.bare)
  obtain ⟨hslots, hfragments, hdfas⟩ := haction
  refine .ordinary hloops.1 hloops.2 hbare (fun target htarget => ?_) ?_ ?_ ?_
  · rw [htargets target htarget]
    exact ⟨hlt, hleads⟩
  · simp [hslots]
  · simp [hfragments]
  · simp [hdfas]

theorem charted_oneOf (set : CharSet) : Charted room (Build.oneOf set) where
  lays := ⟨_, _, lays_oneOf set⟩
  keeps _ _ _ _ _ _ _ hready hrun := keepsChart_update
    (f := fun exit s => { s with transition := some ⟨.oneOf set, exit⟩ }) hready
    ⟨rfl, rfl⟩ (fun h => by cases h) (fun _ h => List.mem_singleton.1 h) ⟨rfl, rfl, rfl⟩ hrun

theorem charted_look (look : Look) : Charted room (Build.look look) where
  lays := ⟨_, _, lays_look look⟩
  keeps _ _ _ _ _ _ _ hready hrun := keepsChart_update
    (f := fun exit s => { s with transition := some ⟨.look look, exit⟩ }) hready
    ⟨rfl, rfl⟩ (fun h => by cases h) (fun _ h => List.mem_singleton.1 h) ⟨rfl, rfl, rfl⟩ hrun

theorem charted_reference (ignoreCase : Bool) (key : GroupKey) :
    Charted room (Build.reference ignoreCase key) where
  lays := ⟨_, _, lays_reference ignoreCase key⟩
  keeps _ _ _ _ _ _ _ hready hrun := keepsChart_update
    (f := fun exit s => { s with action := .reference key none ignoreCase exit }) hready
    ⟨rfl, rfl⟩ (fun _ => ⟨rfl, rfl, rfl⟩) (fun _ h => List.mem_singleton.1 h) ⟨rfl, rfl, rfl⟩ hrun

theorem charted_skip : Charted room Build.skip where
  lays := ⟨_, _, lays_skip⟩
  keeps d start accept exit d' _ _ hready hrun := by
    cases accept with
    | none =>
      obtain ⟨rfl, rfl⟩ := Build.pure_eq_ok.1 hrun
      exact fun c low hc haims _ =>
        ⟨c, hc, .refl _ _ _, ⟨rfl, rfl⟩, le_refl _, fun _ => haims.low_lt⟩
    | some id =>
      exact keepsChart_update
        (f := fun exit s => { s with epsilons := s.epsilons ++ [exit] }) hready
        ⟨rfl, rfl⟩ (fun h => by cases h) (fun _ h => List.mem_singleton.1 h) ⟨rfl, rfl, rfl⟩ hrun

/-- One part after the other. -/
theorem Charted.seq (h : Charted room first) (h' : Charted room second) :
    Charted room (fun start accept => do
      let next ← first start none
      second next accept) where
  lays := by
    obtain ⟨_, _, hlays⟩ := h.lays
    obtain ⟨_, _, hlays'⟩ := h'.lays
    exact ⟨_, _, hlays.seq hlays'⟩
  keeps d start accept exit d' hd hroom hready hrun := by
    intro c low hc haims hzone
    obtain ⟨_, _, hlays⟩ := h.lays
    obtain ⟨_, _, hlays'⟩ := h'.lays
    obtain ⟨mid, d₁, hfirst, hsecond⟩ := Build.bind_eq_ok.1 hrun
    have hlaid := hlays d start none mid d₁ hd hroom hready.free hfirst
    have hstart := hready.lt_size
    obtain ⟨hd₁, hroom₁, hready₂⟩ := hlaid.followed hd hroom hready
    have hlaid' := hlays' d₁ mid accept exit d' hd₁ hroom₁ hready₂ hsecond
    obtain ⟨c₁, hc₁, hext₁, hbeside₁, hrank₁, hlow₁⟩ :=
      h.keeps d start none mid d₁ hd hroom hready.free
      hfirst c low hc ⟨haims.low_lt, fun _ h => (by cases h), fun _ h => by cases h⟩
      (Nat.le_trans hlaid'.grows.fragments_le hzone)
    have haims₂ : c₁.Aims mid accept low :=
      (haims.extends hext₁ hstart fun id hid => (hready.accept id hid).2).of_beside hbeside₁
        (hlow₁ rfl)
    obtain ⟨c₂, hc₂, hext₂, hbeside₂, hrank₂, hlow₂⟩ :=
      h'.keeps d₁ mid accept exit d' hd₁ hroom₁ hready₂ hsecond c₁ low hc₁ haims₂ (by
        rw [hbeside₁.zone_eq, hext₁.zone start hstart]
        exact hzone)
    have hstart₁ := Nat.lt_of_lt_of_le hstart hlaid.grows.size_le
    refine ⟨c₂, hc₂, hext₂.trans hext₁ hlaid.grows.size_le hlaid.grows.loopCount_le,
      (hbeside₁.extends hext₂ hstart₁ hready₂.lt_size).trans hbeside₂, hrank₂.trans ?_, hlow₂⟩
    rwa [hext₂.rank mid hready₂.lt_size, hext₂.rank start hstart₁]

theorem charted_chain (ignoreCase : Bool) (chars : List Char) :
    Charted room (Build.chain ignoreCase chars) :=
  compiles_chain charted_skip charted_oneOf Charted.seq ignoreCase chars

/-- What follows a state that consumes one character. -/
theorem leads_of_oneOf {c : Chart} {d : Draft} (hc : c.Of d) {start mid : Nat} {set : CharSet}
    (hstate : d.states[start]? = some { transition := some ⟨.oneOf set, mid⟩ }) :
    mid < d.states.size ∧ c.Leads start mid := by
  cases hc.states start _ hstate with
  | ordinary _ _ _ hleads => exact hleads mid (List.mem_singleton.2 rfl)
  | head hs => cases hs
  | back hs => cases hs

/-- The first state of a chain consumes a character and leads to where the chain ends. -/
theorem leads_of_chain {d d' : Draft} {start exit : Nat} {accept : Option Nat} {c : Char}
    {chars : List Char} (hd : d.Booked) (hready : Ready d start accept)
    (hrun : Build.chain false (c :: chars) start accept d = .ok (exit, d')) {chart : Chart}
    {low : ℚ} (hchart : chart.Of d) (haims : chart.Aims start accept low)
    (hzone : d'.fragments.size ≤ chart.zone start) :
    ∃ chart' : Chart, chart'.Of d' ∧ chart'.Extends chart d.states.size d.loopCount ∧
      exit < d'.states.size ∧ chart'.Leads start exit ∧ (accept = none → low < chart'.rank exit) ∧
      ∃ set mid, d'.states[start]? = some { transition := some ⟨.oneOf set, mid⟩ } := by
  have hroom : 0 < d.groups.size := Nat.lt_of_le_of_lt (Nat.zero_le _) hd.lastGroup_lt
  cases chars with
  | nil =>
    have hstate := (consumes_oneOf hready hrun).state
    obtain ⟨chart', hchart', hext, -, -, hlow⟩ :=
      (@charted_oneOf 0 _).keeps d start accept exit d' hd hroom hready hrun chart low hchart
        haims hzone
    obtain ⟨hlt, hleads⟩ := leads_of_oneOf hchart' hstate
    exact ⟨chart', hchart', hext, hlt, hleads, hlow, _, _, hstate⟩
  | cons c' chars =>
    obtain ⟨mid, d₁, hone, hchain⟩ := Build.bind_eq_ok.1 hrun
    have hstate := (consumes_oneOf hready.free hone).state
    have hlaid := @lays_oneOf 0 _ d start none mid d₁ hd hroom hready.free hone
    have hstart := hready.lt_size
    obtain ⟨hd₁, hroom₁, hready₂⟩ := hlaid.followed hd hroom hready
    have hlaid' := @lays_chain 0 false _ (List.cons_ne_nil c' chars) d₁ mid accept exit d' hd₁
      hroom₁ hready₂ hchain
    obtain ⟨chart₁, hchart₁, hext₁, hbeside₁, -, hlow₁⟩ :=
      (@charted_oneOf 0 _).keeps d start none mid d₁ hd hroom hready.free hone chart low hchart
        ⟨haims.low_lt, fun _ h => (by cases h), fun _ h => by cases h⟩
        (Nat.le_trans hlaid'.grows.fragments_le hzone)
    obtain ⟨hmid, hleads⟩ := leads_of_oneOf hchart₁ hstate
    have haims₂ : chart₁.Aims mid accept low :=
      (haims.extends hext₁ hstart fun id hid => (hready.accept id hid).2).of_beside hbeside₁
        (hlow₁ rfl)
    obtain ⟨chart₂, hchart₂, hext₂, hbeside₂, hrank₂, hlow₂⟩ :=
      (@charted_chain 0 false (c' :: chars)).keeps d₁ mid accept exit d' hd₁ hroom₁ hready₂
        hchain chart₁ low hchart₁ haims₂ (by
          rw [hbeside₁.zone_eq, hext₁.zone start hstart]
          exact hzone)
    have hleads₂ := hleads.extends hext₂ (Nat.lt_of_lt_of_le hstart hlaid.grows.size_le) hmid
    have hstate' := hlaid'.grows.states start (Nat.lt_of_lt_of_le hstart hlaid.grows.size_le)
      (fun h => by
        have := hleads.rank_lt
        rw [h] at this
        exact absurd this (lt_irrefl _))
    refine ⟨chart₂, hchart₂, hext₂.trans hext₁ hlaid.grows.size_le hlaid.grows.loopCount_le, ?_,
      ⟨hleads₂.toBeside.trans hbeside₂, hrank₂.trans_lt hleads₂.rank_lt⟩, hlow₂, _, _,
      hstate'.trans hstate⟩
    cases haccept : accept with
    | none => exact (Array.getElem?_eq_some_iff.1 (hlaid'.ends.made haccept).2).1
    | some id =>
      rw [hlaid'.ends.given id haccept]
      exact Nat.lt_of_lt_of_le (hready₂.accept id haccept).2 hlaid'.grows.size_le

/-- A text marks the first state of its chain. -/
theorem charted_text (ignoreCase : Bool) (chars : List Char) :
    Charted room (Build.text ignoreCase chars) where
  lays := ⟨_, _, lays_text ignoreCase chars⟩
  keeps d start accept exit d' hd hroom hready hrun := by
    obtain ⟨exit₁, d₁, hchain, hrun⟩ := Build.bind_eq_ok.1 hrun
    match ignoreCase, chars with
    | _, [] =>
      obtain ⟨rfl, rfl⟩ := Build.pure_eq_ok.1 hrun
      exact (charted_chain _ []).keeps d start accept exit₁ d₁ hd hroom hready hchain
    | true, c :: chars =>
      obtain ⟨rfl, rfl⟩ := Build.pure_eq_ok.1 hrun
      exact (charted_chain true (c :: chars)).keeps d start accept exit₁ d₁ hd hroom hready hchain
    | false, c :: chars =>
      intro chart low hchart haims hzone
      obtain ⟨_, _, hupdate, hrun⟩ := Build.bind_eq_ok.1 hrun
      obtain rfl := Build.update_eq_ok.1 hupdate
      obtain ⟨rfl, rfl⟩ := Build.pure_eq_ok.1 hrun
      obtain ⟨chart', hchart', hext, hlt, hleads, hlow, set, mid, hstate⟩ :=
        leads_of_chain hd hready hchain hchart haims hzone
      refine ⟨chart', hchart'.update fun s hs => ?_, hext, hleads.toBeside, hleads.rank_lt.le, hlow⟩
      obtain rfl := Option.some.inj (hs.symm.trans hstate)
      refine .ordinary rfl rfl (fun h => by cases h) (fun target htarget => ?_)
        (fun _ h => by cases h) (fun _ h => by cases h) fun _ h => by cases h
      rcases List.mem_cons.1 htarget with rfl | htarget
      · exact ⟨hlt, hleads⟩
      · rw [List.mem_singleton.1 htarget]
        exact leads_of_oneOf hchart' hstate

/-! ## Bodies -/

/-- A body lies between two new states, wherever these are put. -/
theorem Charted.brackets (h : Charted room part) {d d₁ d₂ : Draft} {first last exit zone : Nat}
    {accepting : Bool} (hb : Brackets d first last accepting d₁) (hd : d.Booked)
    (hroom : room < d.groups.size) (hfragments : d₁.fragments = d.fragments)
    (hrun : part first (some last) d₁ = .ok (exit, d₂)) {c : Chart} (hc : c.Of d) {rank rank' : ℚ}
    {around : Finset Nat} (hzone : d₂.fragments.size ≤ zone) (hrank : rank' < rank)
    (haround : ∀ loop ∈ around,
      loop < d.loopCount ∧ c.head loop < d.states.size ∧ c.zone (c.head loop) = zone) :
    ∃ c' : Chart, c'.Of d₂ ∧ c'.Extends c d.states.size d.loopCount ∧ c'.Leads first last ∧
      c'.zone first = zone ∧ c'.rank first = rank ∧ c'.rank last = rank' ∧
        c'.around first = around := by
  have hgrows := hb.grows 0
  have hsize := hb.size_eq
  have hfirst := hb.first_eq
  have hlast := hb.last_eq
  obtain ⟨c₁, hc₁, hext₁, hleads₁, hzone₁, hrank₁, hrank₁', haround₁⟩ :=
    hc.brackets hb hfragments (hgrows.slotCount_le hd) hrank haround
  obtain ⟨c₂, hc₂, hext₂, -⟩ := h.body hb hd hroom hrun c₁ (c₁.rank last) hc₁ (.single hleads₁)
    (by rwa [hzone₁])
  refine ⟨c₂, hc₂, hext₂.trans hext₁ hgrows.size_le hgrows.loopCount_le,
    hleads₁.extends hext₂ (by omega) (by omega), ?_, ?_, ?_, ?_⟩
  · rw [hext₂.zone first (by omega), hzone₁]
  · rw [hext₂.rank first (by omega), hrank₁]
  · rw [hext₂.rank last (by omega), hrank₁']
  · rw [hext₂.around first (by omega), haround₁]

/-! ## Groups -/

/-- A group is opened in its first state and closed in one of its own, and its body lies
between the two. -/
theorem Charted.capture (h : Charted room part) {name : Option String} (key : Nat → GroupKey)
    (numbered : Nat) (hopens : ∀ (d d' : Draft) slot, d.Booked →
      Build.groupSlot name d = .ok (slot, d') → Draft.Opens (key d.lastGroup) numbered slot d d') :
    Charted room (Build.capture name part) where
  lays := by
    obtain ⟨_, _, hlays⟩ := h.lays
    exact ⟨_, _, hlays.capture key numbered hopens⟩
  keeps d start accept exit d' hd hroom hready hrun := by
    intro c low hc haims hzone
    obtain ⟨_, _, hlays⟩ := h.lays
    obtain ⟨slot, body, close, d₁, d₂, d₃, hgroup⟩ :=
      hlays.takesGroup (fun d' slot => hopens d d' slot hd) hd hroom hready hrun
    have ho := hgroup.opened
    have hlaid := hgroup.laid
    have ht := hgroup.targets
    have hcl := hgroup.closes
    have hstart := hready.lt_size
    have hfirst := ho.first_eq
    have hlast := ho.last_eq
    have hsize₁ := ho.size_eq
    have hgrows₁ := ho.grows 0
    have hsize₂ := hlaid.grows.size_le
    have hsize₃ := (ht.grows 0 0 (Nat.zero_le _)).size_le
    have hfragments' : d'.fragments = d₂.fragments := by rw [hcl.draft_eq, ht.draft_eq]
    -- The body lies beside the first state.
    obtain ⟨rank, hlow, hrank⟩ := exists_between haims.low_lt
    obtain ⟨rank', hlow', hrank'⟩ := exists_between hlow
    obtain ⟨c₂, hc₂, hext₂, hleads₂, hzone₂, hrank₂, hrank₂', haround₂⟩ :=
      h.brackets ho.toBrackets hd hroom ho.fragments_eq hgroup.compiles hc
        (hfragments' ▸ hzone) hrank' (hc.around start hstart)
    have hbody₂ : c₂.Leads start body := by
      refine ⟨⟨?_, ?_⟩, ?_⟩
      · rw [hzone₂, hext₂.zone start hstart]
      · rw [haround₂, hext₂.around start hstart]
      · rw [hrank₂, hext₂.rank start hstart]
        exact hrank
    have hclose₂ := hbody₂.trans hleads₂
    -- What follows the body lies behind it.
    have haims₂ : c₂.Aims close accept low :=
      (haims.extends hext₂ hstart fun id hid => (hready.accept id hid).2).of_beside hclose₂.toBeside
        (hrank₂' ▸ hlow')
    obtain ⟨c₃, hc₃, hext₃, hexitlt, hexit₃, hlow₃⟩ := hc₂.target (by omega) haims₂
      (fun id hid => (hgroup.ready.accept id hid).2) hgroup.target_eq
    have hbody₃ := hbody₂.extends hext₃ (by omega) (by omega)
    have hclose₃ := hclose₂.extends hext₃ (by omega) (by omega)
    have hslot : slot < d₃.slotCount := by
      have hbooked₁ := hgrows₁.booked hd
      have hlt := hbooked₁.lt_slotCount _ _ ho.slot?_eq
      have hle := hlaid.grows.slotCount_le hbooked₁
      rw [ht.draft_eq]
      exact Nat.lt_of_lt_of_le hlt hle
    have hleads := hclose₃.trans hexit₃
    refine ⟨c₃, hc₃.closes hcl ⟨by omega, hbody₃⟩ ⟨by omega, hclose₃⟩ ⟨hexitlt, hexit₃⟩ hslot,
      hext₃.trans hext₂ (by omega) ?_, hleads.toBeside, hleads.rank_lt.le, hlow₃⟩
    exact Nat.le_trans hgrows₁.loopCount_le hlaid.grows.loopCount_le

/-! ## Fragments -/

/-- A fragment has states of its own. -/
theorem Charted.isolated (h : Charted room part) {d d' : Draft} {id : Nat} (hd : d.Booked)
    (hroom : room < d.groups.size) (hrun : Build.isolated part d = .ok (id, d')) {c : Chart}
    (hc : c.Of d) :
    ∃ c' : Chart, c'.Of d' ∧ c'.Extends c d.states.size d.loopCount ∧ id < d'.fragments.size := by
  obtain ⟨_, _, hlays⟩ := h.lays
  obtain ⟨first, last, exit, d₁, d₂, hb, hdraft₁, hpart, rfl, hd'⟩ := isolated_eq_ok hrun
  have hfirst := hb.first_eq
  have hlast := hb.last_eq
  have hsize₁ := hb.size_eq
  have hlaid := hlays.body hb hd hroom hpart
  have hsize₂ := hlaid.grows.size_le
  -- The number of the fragment is known only after its body.
  obtain ⟨c', hc', hext, hleads, hzone, -, -, haround⟩ :=
    h.brackets hb hd hroom (by rw [hdraft₁]) hpart
    hc (Nat.le_refl d₂.fragments.size) (one_pos : (0 : ℚ) < 1)
    fun loop (hloop : loop ∈ (∅ : Finset Nat)) => absurd hloop (Finset.notMem_empty loop)
  have hframes : c'.Frames d₂.extent d₂.fragments.size
      { start := first, accept := last, captures := decide (d.captureCount < d₂.captureCount) } :=
    { start_lt := show first < d₂.states.size by omega
      accept_lt := show last < d₂.states.size by omega
      zone_eq := hzone
      around_eq := haround
      leads := hleads
      dfas := fun _ h => by cases h }
  rw [hd']
  exact ⟨c', (hc'.addFragment hframes).of_same rfl rfl (Nat.le_refl _) (Nat.le_refl _),
    hext, by simp⟩

/-- A state that runs a fragment leads to its last state. -/
theorem Charted.around {action : Nat → Nat → Action} (haction : Isolating action)
    (h : Charted room part) : Charted room (Build.around part action) where
  lays := by
    obtain ⟨_, _, hlays⟩ := h.lays
    exact ⟨_, _, hlays.around action haction.resolve⟩
  keeps d start accept exit d' hd hroom hready hrun := by
    intro c low hc haims hzone
    obtain ⟨_, _, hlays⟩ := h.lays
    obtain ⟨id, d₁, d₂, hisolated, htarget, hd'⟩ := around_eq_ok hrun
    have hlaid := hlays.isolated hd hroom hisolated
    have hstart := hready.lt_size
    have hgrows₁ := hlaid.grows 0
    have hready₁ := hlaid.ready hready
    have ht := targets_target hready₁ htarget
    obtain ⟨c₁, hc₁, hext₁, hid⟩ := h.isolated hd hroom hisolated hc
    have haims₁ := haims.extends hext₁ hstart fun id hid => (hready.accept id hid).2
    obtain ⟨c₂, hc₂, hext₂, hexit, hleads, hlow⟩ := hc₁.target hready₁.lt_size haims₁
      (fun id hid => (hready₁.accept id hid).2) htarget
    have hext := hext₂.trans hext₁ hgrows₁.size_le hgrows₁.loopCount_le
    have hid₂ : id < d₂.fragments.size := by rwa [ht.draft_eq]
    have hfragments' : d'.fragments = d₂.fragments := by rw [hd']
    have htargets : (action id exit).targets = [exit] := by cases haction <;> rfl
    have hfragments : (action id exit).fragments = [id] := by cases haction <;> rfl
    have hslots : (action id exit).slots = [] ∧ (action id exit).dfas = [] := by
      cases haction <;> exact ⟨rfl, rfl⟩
    refine ⟨c₂, ?_, hext, hleads.toBeside, hleads.rank_lt.le, hlow⟩
    rw [hd']
    refine hc₂.update fun s hs => ?_
    obtain rfl := Option.some.inj (hs.symm.trans ht.bare)
    refine .ordinary rfl rfl (fun _ => ⟨rfl, rfl, rfl⟩) (fun target htarget => ?_) ?_
      (fun f hf => ?_) ?_
    · obtain rfl : target = exit := by simpa [State.targets, htargets] using htarget
      exact ⟨hexit, hleads⟩
    · simp [hslots.1]
    · obtain rfl : f = id := by simpa [hfragments] using hf
      rw [hext.zone start hstart]
      rw [hfragments'] at hzone
      exact ⟨Nat.lt_of_lt_of_le hid₂ hzone, hid₂⟩
    · simp [hslots.2]

end

end Automaton

end RegexEngine
