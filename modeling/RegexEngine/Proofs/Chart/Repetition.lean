import RegexEngine.Proofs.Chart.Parts

/-!
# Compiling repetitions keeps to a chart

* `Chart.Inside` is about the body of a loop.
* `keepsChart_optionalCopies` is about copies, the one behind the other.
* `ChartedTo.loop` is about loops.  The body of a loop lies inside of it.
-/

namespace RegexEngine

open Automaton

/-! ## Choices -/

namespace Chart

/-- The body of a loop lies inside of it, from one state to another. -/
structure Inside (c : Chart) (loop start body back : Nat) : Prop where
  /-- The loop begins in its first state. -/
  head_eq : c.head loop = start
  /-- The body lies between states that are beside each other. -/
  beside : c.Beside body back
  /-- They lie in the fragment of the loop. -/
  zone_eq : c.zone body = c.zone start
  /-- The body is nearer to the end. -/
  rank_lt : c.rank body < c.rank start
  /-- The first state does not lie inside of the loop. -/
  notMem : loop ∉ c.around start
  /-- The body does. -/
  around_eq : c.around body = insert loop (c.around start)

variable {c : Chart} {d d' : Draft} {loop start body back exit : Nat} {lazy : Bool}

/-- A state that chooses leads to both. -/
theorem Of.chosen (hc : c.Of d) (h : Chosen start body exit lazy d d')
    (hbody : body < d.states.size ∧ c.Leads start body)
    (hexit : exit < d.states.size ∧ c.Leads start exit) : c.Of d' := by
  refine hc.of_states h.size_eq (fun id s hs => ?_) (by rw [h.draft_eq])
    (Nat.le_of_eq (by rw [h.draft_eq])) (Nat.le_of_eq (by rw [h.draft_eq]))
  rw [h.states] at hs
  by_cases hid : id = start
  · rw [if_pos hid] at hs
    cases hs
    refine .inr (.ordinary rfl rfl (fun h => by cases h) (fun target htarget => ?_)
      (fun _ h => by cases h) (fun _ h => by cases h) fun _ h => by cases h)
    rw [hid]
    rcases List.mem_cons.1 htarget with rfl | htarget
    · exact hbody
    · rw [List.mem_singleton.1 htarget]
      exact hexit
  · rw [if_neg hid] at hs
    exact .inl hs

/-- Iterations begin in the first state of a loop and end in the last one of its body. -/
theorem Of.loops (hc : c.Of d) (h : Loops loop start body back exit lazy d d')
    (hinside : c.Inside loop start body back) (hexit : exit < d.states.size ∧ c.Leads start exit)
    (hstart : start < d.states.size) (hbody : body < d.states.size) (hloop : loop < d.loopCount) :
    c.Of d' := by
  obtain ⟨rfl, hbeside, hzone, hrank, hnew, haround⟩ := hinside
  refine hc.of_states h.size_eq (fun id s hs => ?_) (by rw [h.draft_eq])
    (Nat.le_of_eq (by rw [h.draft_eq])) (Nat.le_of_eq (by rw [h.draft_eq]))
  by_cases hid : id = c.head loop
  · rw [hid, h.head_state] at hs
    cases hs
    rw [hid]
    exact .inr (.head rfl hbody hexit.1 hloop rfl hexit.2 hzone hrank hnew haround)
  · by_cases hid' : id = back
    · rw [hid', h.back_state] at hs
      cases hs
      rw [hid']
      exact .inr (.back rfl hstart hloop (hzone.symm.trans hbeside.zone_eq.symm) hnew
        (hbeside.around_eq.trans haround))
    · exact .inl ((h.states id hid hid').symm.trans hs)

end Chart

namespace Automaton

section

variable {room : Nat} {part : Build.Part}

/-! ## Parts to a given state -/

/-- Compiling a part to a given state keeps to a chart. -/
abbrev ChartedTo (room : Nat) (part : Nat → Nat → Build Unit) : Prop :=
  CompilesTo KeepsChart room part

/-- The last state is made before the part is compiled. -/
theorem ChartedTo.withTarget {part : Nat → Nat → Build Unit} (h : ChartedTo room part) :
    Charted room (fun start accept => do
      let exit ← Build.target accept
      part start exit
      return exit) where
  lays := by
    obtain ⟨_, _, hlays⟩ := h.lays
    exact ⟨_, _, hlays.withTarget⟩
  keeps d start accept exit d' hd hroom hready hrun := by
    intro c low hc haims hzone
    obtain ⟨_, _, hlays⟩ := h.lays
    obtain ⟨exit₁, d₁, htarget, hrun⟩ := Build.bind_eq_ok.1 hrun
    obtain ⟨_, d₂, hpart, hrun⟩ := Build.bind_eq_ok.1 hrun
    obtain ⟨rfl, rfl⟩ := Build.pure_eq_ok.1 hrun
    have ht := targets_target hready htarget
    have hgrows := ht.grows d.states.size start (Nat.le_refl _)
    have hstart := hready.lt_size
    obtain ⟨c₁, hc₁, hext₁, hexit, hleads, hlow⟩ := hc.target hstart haims
      (fun id hid => (hready.accept id hid).2) htarget
    obtain ⟨c₂, hc₂, hext₂, hbeside₂, hrank₂, -⟩ := h.keeps d₁ start exit₁ d₂ (hgrows.booked hd)
      (Nat.lt_of_lt_of_le hroom hgrows.groups_le) ht.ready hpart c₁ (c₁.rank exit₁) hc₁
      (.single hleads) (by rw [hext₁.zone start hstart]; exact hzone)
    refine ⟨c₂, hc₂, hext₂.trans hext₁ hgrows.size_le hgrows.loopCount_le, hbeside₂, hrank₂,
      fun h => ?_⟩
    rw [hext₂.rank exit₁ hexit]
    exact hlow h

variable {layout : Layout} {last : Nat}

/-- Each copy of a part is behind the one before it, and the exit is behind them all. -/
theorem keepsChart_optionalCopies (hlays : Lays room part (fun _ => layout) fun _ => last)
    (h : Charted room part) (lazy : Bool) (n : Nat) {d d' : Draft} {start exit : Nat}
    (hd : d.Booked) (hroom : room < d.groups.size) (hready : Ready d start (some exit))
    (hrun : Build.optionalCopies part lazy exit n start d = .ok ((), d')) :
    KeepsChart d start (some exit) exit d' := by
  induction n generalizing d start with
  | zero =>
    obtain ⟨-, rfl⟩ := Build.pure_eq_ok.1 hrun
    exact fun c low hc haims _ => ⟨c, hc, .refl _ _ _, (haims.leads rfl).toBeside,
      (haims.leads rfl).rank_lt.le, fun h => by cases h⟩
  | succ n ih =>
    intro c low hc haims hzone
    obtain ⟨body, next, d₁, d₂, d₃, hcopy, hrun⟩ := hlays.takesCopy hd hroom hready hrun
    obtain ⟨hadd, hbody, -, hsize₁, -, hgrows₁⟩ := hcopy.chooses
    have hlaid := hcopy.laid
    have hchosen := hcopy.chosen
    have hgrows₁ := hgrows₁ 0
    have hgrows₃ := hchosen.grows 0
    have hstart := hready.lt_size
    obtain ⟨hexitne, hexitlt⟩ := hready.accept exit rfl
    have hsize₂ := hlaid.grows.size_le
    have hsize₃ := hchosen.size_eq
    obtain ⟨c₁, hc₁, hext₁, -, hleads₁, hlow₁⟩ := hc.addBehind hstart haims.low_lt hadd
    -- The copy, which ends in the exit if it is the last one.
    have hfragments' : d₂.fragments.size ≤ d'.fragments.size := by
      refine Nat.le_trans hgrows₃.fragments_le ?_
      cases n with
      | zero =>
        obtain ⟨-, rfl⟩ := Build.pure_eq_ok.1 hrun
        exact Nat.le_refl _
      | succ n => exact (laysTo_optionalCopies hlays lazy n d₃ next exit d' hcopy.booked
          hcopy.room_lt (hcopy.ready (Nat.succ_ne_zero n)) hrun).grows.fragments_le
    have haims₁ : c₁.Aims body (if n = 0 then some exit else none) low := by
      split
      · exact (haims.extends hext₁ hstart fun id hid => by cases hid; exact hexitlt).of_beside
          hleads₁.toBeside hlow₁
      · exact ⟨hlow₁, fun _ h => (by cases h), fun _ h => by cases h⟩
    obtain ⟨c₂, hc₂, hext₂, hbeside₂, -, hlow₂⟩ := h.keeps d₁ body _ next d₂ hcopy.booked_body
      hcopy.room_lt_body hcopy.ready_body hcopy.compiles c₁ low hc₁ haims₁ (by
        rw [hleads₁.zone_eq, hext₁.zone start hstart]
        omega)
    -- The choice.
    have hext₂' := hext₂.trans hext₁ hgrows₁.size_le hgrows₁.loopCount_le
    have hleads₂ := hleads₁.extends hext₂ (by omega) (by omega)
    have haims₂ := haims.extends hext₂' hstart fun id hid => by cases hid; exact hexitlt
    have hexit₂ := haims₂.leads rfl
    have hc₃ := hc₂.chosen hchosen ⟨by omega, hleads₂⟩ ⟨by omega, hexit₂⟩
    cases n with
    | zero =>
      obtain ⟨-, rfl⟩ := Build.pure_eq_ok.1 hrun
      exact ⟨c₂, hc₃, hext₂', hexit₂.toBeside, hexit₂.rank_lt.le, fun h => by cases h⟩
    | succ n =>
      -- The other copies.
      have haims₃ : c₂.Aims next (some exit) low :=
        haims₂.of_beside (hleads₂.toBeside.trans hbeside₂) (hlow₂ rfl)
      obtain ⟨c₄, hc₄, hext₄, -⟩ := ih hcopy.booked hcopy.room_lt
        (hcopy.ready (Nat.succ_ne_zero n)) hrun c₂ low hc₃ haims₃ (by
          rw [hbeside₂.zone_eq, hleads₂.zone_eq, hext₂'.zone start hstart]
          exact hzone)
      have hloops := Nat.le_trans hgrows₁.loopCount_le
        (Nat.le_trans hlaid.grows.loopCount_le hgrows₃.loopCount_le)
      have hleads := hexit₂.extends hext₄ (by omega) (by omega)
      exact ⟨c₄, hc₄, hext₄.trans hext₂' (by omega) hloops, hleads.toBeside, hleads.rank_lt.le,
        fun h => by cases h⟩

/-- The body of a loop lies between two states of its own, inside of the loop. -/
theorem ChartedTo.loop (hlays : Lays room part (fun _ => layout) fun _ => last)
    (h : Charted room part) (lazy : Bool) :
    ChartedTo room (fun start exit => Build.loop part lazy exit start) where
  lays := ⟨_, _, hlays.loop lazy⟩
  keeps d start exit d' hd hroom hready hrun := by
    intro c low hc haims hzone
    obtain ⟨body, back, d₁, d₂, d₃, hloop⟩ := hlays.takesLoop hd hroom hready hrun
    have hd₁ := hloop.draft_eq
    have hgrows₁ := hloop.grows 0 0
    have hb := hloop.brackets
    have hlaid := hloop.laid
    have hl := hloop.loops
    have hsize₁ : d₁.states.size = d.states.size := by rw [hd₁]
    have hloops₁ : d₁.loopCount = d.loopCount + 1 := by rw [hd₁]
    have hfirst := hb.first_eq
    have hlast := hb.last_eq
    have hsize₂ := hb.size_eq
    have hstart := hready.lt_size
    have hstart₁ : start < d₁.states.size := hsize₁ ▸ hstart
    obtain ⟨hexitne, hexitlt⟩ := hready.accept exit rfl
    have hsize₃ := hlaid.grows.size_le
    have hloops₃ := Nat.le_trans (hb.grows 0).loopCount_le hlaid.grows.loopCount_le
    have hfragments' : d'.fragments = d₃.fragments := by rw [hl.draft_eq]
    -- The loop begins in the first state, and its body lies inside of it.
    obtain ⟨c₁, hc₁, hext₁, hhead₁⟩ : ∃ c₁ : Chart, c₁.Of d₁ ∧
        c₁.Extends c d.states.size d.loopCount ∧ c₁.head d.loopCount = start := by
      rw [hd₁]
      exact ⟨_, (hc.addLoop start).1, (hc.addLoop start).2, Function.update_self _ _ _⟩
    have hnew : d.loopCount ∉ c.around start := fun hmem =>
      absurd (hc.around start hstart _ hmem).1 (Nat.lt_irrefl _)
    have haround : ∀ loop ∈ insert d.loopCount (c₁.around start), loop < d₁.loopCount ∧
        c₁.head loop < d₁.states.size ∧ c₁.zone (c₁.head loop) = c₁.zone start := by
      intro loop hloop
      rcases Finset.mem_insert.1 hloop with rfl | hloop
      · rw [hhead₁]
        exact ⟨by omega, by omega, rfl⟩
      · exact hc₁.around start hstart₁ loop hloop
    obtain ⟨rank, hlow, hrank⟩ := exists_between haims.low_lt
    obtain ⟨rank', hlow', hrank'⟩ := exists_between hlow
    obtain ⟨c₃, hc₃, hext₃, hleads₃, hzone₃, hrank₃, -, haround₃⟩ := h.brackets hb
      hloop.booked hloop.room_lt (by rw [hloop.brackets_eq]) hloop.compiles hc₁
      (by rw [hext₁.zone start hstart, ← hfragments']; exact hzone) hrank' haround
    -- The first state of the loop and the last state of its body.
    have hext₃' := hext₃.trans hext₁ hgrows₁.size_le hgrows₁.loopCount_le
    have hexit₃ := (haims.extends hext₃' hstart fun id hid => by cases hid; exact hexitlt).leads rfl
    have hhead₃ : c₃.head d.loopCount = start := by rw [hext₃.head _ (by omega), hhead₁]
    have hinside : c₃.Inside d.loopCount start body back := by
      refine ⟨hhead₃, hleads₃.toBeside, ?_, ?_, ?_, ?_⟩
      · rw [hzone₃, hext₃.zone start hstart₁]
      · rw [hrank₃, hext₃'.rank start hstart]
        exact hrank
      · rw [hext₃'.around start hstart]
        exact hnew
      · rw [haround₃, hext₃.around start hstart₁]
    exact ⟨c₃, hc₃.loops hl hinside ⟨by omega, hexit₃⟩ (by omega) (by omega) (by omega), hext₃',
      hexit₃.toBeside, hexit₃.rank_lt.le, fun h => by cases h⟩

end

end Automaton

end RegexEngine
