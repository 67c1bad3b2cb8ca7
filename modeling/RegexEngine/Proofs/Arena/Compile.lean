import RegexEngine.Proofs.Arena.Evolution
import RegexEngine.Proofs.Layout.Induction

/-!
# Compiling makes a draft evolve

* `Evolving` says that compiling a part does to a draft only what `Draft.Evolves` lists, and
  there is one lemma for each construct.
* `spells_of_chain` is about texts.
* `evolves_closed` puts the constructs together.
-/

namespace RegexEngine

open Automaton

namespace Automaton

/-- Compiling a part lays it out and makes the draft evolve. -/
abbrev Evolving (room : Nat) (part : Build.Part) : Prop :=
  Compiles (fun d _ _ _ d' => d.Evolves d') room part

section

variable {room : Nat} {part first second : Build.Part} {d d' d₁ : Draft} {start exit : Nat}
  {accept : Option Nat}

/-! ## Single states -/

theorem evolves_addState (hrun : Build.addState d = .ok (exit, d')) : d.Evolves d' := by
  obtain ⟨-, hd'⟩ := Build.addState_eq_ok.1 hrun
  rw [hd']
  exact .fills (fills_push (.ends false)) rfl

theorem evolves_target (hrun : Build.target accept d = .ok (exit, d')) : d.Evolves d' := by
  cases accept with
  | some id =>
    obtain ⟨-, rfl⟩ := Build.pure_eq_ok.1 hrun
    exact .refl d
  | none => exact evolves_addState hrun

/-- A state that did nothing is made to do something. -/
theorem evolves_update {f : State → State} (hbare : d.states[start]? = some {})
    (hsimple : (f {}).Simple) : d.Evolves { d with states := d.states.modify start f } := by
  have hget := getElem?_modify_state hbare f
  refine .fills (fills_of_update start (by simp) hsimple (fun s₀ hs₀ => ?_) ?_ fun id hid => ?_) rfl
  · rw [← Option.some.inj (hbare.symm.trans hs₀)]
    exact ⟨.ends false, rfl⟩
  · rw [hget, if_pos rfl]
  · rw [hget, if_neg hid]

/-- A part that only says how its first state leads on. -/
theorem evolves_leadsOn {f : Nat → State → State} (hready : Ready d start accept)
    (hsimple : ∀ exit, (f exit {}).Simple)
    (hrun : (do
      let exit ← Build.target accept
      Build.update start (f exit)
      return exit : Build Nat) d = .ok (exit, d')) : d.Evolves d' := by
  obtain ⟨d₁, htarget, hd'⟩ := leadsOn_eq_ok.1 hrun
  rw [hd']
  exact (evolves_target htarget).trans
    (evolves_update (targets_target hready htarget).bare (hsimple exit))

theorem evolving_oneOf (set : CharSet) : Evolving room (Build.oneOf set) where
  lays := ⟨_, _, lays_oneOf set⟩
  keeps _ _ _ _ _ _ _ hready hrun := evolves_leadsOn
    (f := fun exit s => { s with transition := some ⟨.oneOf set, exit⟩ }) hready
    (fun _ => .moves _) hrun

theorem evolving_look (look : Look) : Evolving room (Build.look look) where
  lays := ⟨_, _, lays_look look⟩
  keeps _ _ _ _ _ _ _ hready hrun := evolves_leadsOn
    (f := fun exit s => { s with transition := some ⟨.look look, exit⟩ }) hready
    (fun _ => .moves _) hrun

theorem evolving_reference (ignoreCase : Bool) (key : GroupKey) :
    Evolving room (Build.reference ignoreCase key) where
  lays := ⟨_, _, lays_reference ignoreCase key⟩
  keeps _ _ _ _ _ _ _ hready hrun := evolves_leadsOn
    (f := fun exit s => { s with action := .reference key none ignoreCase exit }) hready
    (fun _ => .acts rfl) hrun

theorem evolving_skip : Evolving room Build.skip where
  lays := ⟨_, _, lays_skip⟩
  keeps d start accept exit d' _ _ hready hrun := by
    cases accept with
    | none =>
      obtain ⟨-, rfl⟩ := Build.pure_eq_ok.1 hrun
      exact .refl d
    | some id =>
      exact evolves_leadsOn (f := fun exit s => { s with epsilons := s.epsilons ++ [exit] }) hready
        (fun exit => .forks [exit]) hrun

/-- One part after the other. -/
theorem Evolving.seq (h : Evolving room first) (h' : Evolving room second) :
    Evolving room (fun start accept => do
      let next ← first start none
      second next accept) where
  lays := by
    obtain ⟨_, _, hlays⟩ := h.lays
    obtain ⟨_, _, hlays'⟩ := h'.lays
    exact ⟨_, _, hlays.seq hlays'⟩
  keeps d start accept exit d' hd hroom hready hrun := by
    obtain ⟨_, _, hlays⟩ := h.lays
    obtain ⟨mid, d₁, hfirst, hsecond⟩ := Build.bind_eq_ok.1 hrun
    have hlaid := hlays d start none mid d₁ hd hroom hready.free hfirst
    obtain ⟨hd₁, hroom₁, hready₁⟩ := hlaid.followed hd hroom hready
    have hevolves := h.keeps d start none mid d₁ hd hroom hready.free hfirst
    exact hevolves.trans (h'.keeps d₁ mid accept exit d' hd₁ hroom₁ hready₁ hsecond)

/-! ## Texts -/

theorem evolving_chain (ignoreCase : Bool) (chars : List Char) :
    Evolving room (Build.chain ignoreCase chars) :=
  compiles_chain evolving_skip evolving_oneOf Evolving.seq ignoreCase chars

/-- The chain of a text spells it. -/
theorem spells_of_chain {c : Char} {chars : List Char} (hd : d.Booked)
    (hroom : room < d.groups.size) (hready : Ready d start accept)
    (hrun : Build.chain false (c :: chars) start accept d = .ok (exit, d')) :
    (∃ t, d'.states[start]? = some { transition := some t }) ∧
      Spells d'.states (c :: chars) start exit := by
  induction chars generalizing c d start with
  | nil =>
    have hstate := (consumes_oneOf hready hrun).state
    exact ⟨⟨_, hstate⟩, _, exit, hstate, rfl, rfl⟩
  | cons c' chars ih =>
    obtain ⟨mid, d₁, hone, hchain⟩ := Build.bind_eq_ok.1 hrun
    have hone' := consumes_oneOf hready.free hone
    have hlaid := @lays_oneOf room _ d start none mid d₁ hd hroom hready.free hone
    obtain ⟨hd₁, hroom₁, hready₂⟩ := hlaid.followed hd hroom hready
    -- The first state stays when the rest of the chain is made.
    have hrest := @lays_chain room false _ (List.cons_ne_nil c' chars) d₁ mid accept exit d' hd₁
      hroom₁ hready₂ hchain
    have hstate := (hrest.grows.states start
      (Nat.lt_of_lt_of_le hready.lt_size hlaid.grows.size_le) (Ne.symm hone'.ne)).trans hone'.state
    obtain ⟨-, hspells⟩ := ih hd₁ hroom₁ hready₂ hchain
    exact ⟨⟨_, hstate⟩, _, mid, hstate, rfl, hspells⟩

theorem evolving_text (ignoreCase : Bool) (chars : List Char) :
    Evolving room (Build.text ignoreCase chars) where
  lays := ⟨_, _, lays_text ignoreCase chars⟩
  keeps d start accept exit d' hd hroom hready hrun := by
    obtain ⟨exit₁, d₁, hchain, hrun⟩ := Build.bind_eq_ok.1 hrun
    have hevolves := (evolving_chain ignoreCase chars).keeps d start accept exit₁ d₁ hd hroom
      hready hchain
    match ignoreCase, chars with
    | _, [] =>
      obtain ⟨-, rfl⟩ := Build.pure_eq_ok.1 hrun
      exact hevolves
    | true, c :: chars =>
      obtain ⟨-, rfl⟩ := Build.pure_eq_ok.1 hrun
      exact hevolves
    | false, c :: chars =>
      obtain ⟨_, _, hupdate, hrun⟩ := Build.bind_eq_ok.1 hrun
      obtain rfl := Build.update_eq_ok.1 hupdate
      obtain ⟨-, rfl⟩ := Build.pure_eq_ok.1 hrun
      obtain ⟨⟨t, hstate⟩, hspells⟩ := spells_of_chain hd hroom hready hchain
      exact hevolves.trans (.text hstate (List.cons_ne_nil c chars) hspells rfl
        (getElem?_modify_state hstate _))

/-! ## Bodies -/

/-- Two states are made for a body. -/
theorem Brackets.evolves {body last : Nat} {accepting : Bool}
    (h : Brackets d body last accepting d₁)
    (hloops : d₁.loopCount = d.loopCount) : d.Evolves d₁ := by
  obtain ⟨hfirst, hlast, hsize, hbare, hlastbare, hgrows⟩ := h
  refine .fills ⟨by omega, fun id s hs => ?_⟩ hloops
  have hid := (Array.getElem?_eq_some_iff.1 hs).1
  by_cases hold : id < d.states.size
  · rw [(hgrows (id + 1)).states id hold (by omega)] at hs
    exact .inl hs
  · refine .inr ⟨?_, fun s₀ hs₀ => absurd (Array.getElem?_eq_some_iff.1 hs₀).1 hold⟩
    by_cases hid' : id = body
    · rw [hid', hbare] at hs
      rw [← Option.some.inj hs]
      exact .ends false
    · rw [show id = last by omega, hlastbare] at hs
      rw [← Option.some.inj hs]
      exact .ends accepting

theorem Closes.evolves {slot body close : Nat} (h : Closes slot start body close exit d d₁ d')
    (hstart : d₁.states[start]? = some {}) (hclose : d₁.states[close]? = some {}) :
    d₁.Evolves d' := by
  have hbare (id : Nat) (hid : d₁.states[id]? = some {}) (s : State)
    (hs : d₁.states[id]? = some s) :
      s.Simple ∧ s.transition = none := by
    rw [← Option.some.inj (hid.symm.trans hs)]
    exact ⟨.ends false, rfl⟩
  refine .fills ⟨Nat.le_of_eq h.size_eq.symm, fun id s hs => ?_⟩ (by rw [h.draft_eq])
  by_cases hid : id = start
  · rw [hid, h.opens] at hs
    rw [hid, ← Option.some.inj hs]
    exact .inr ⟨.acts rfl, hbare start hstart⟩
  · by_cases hid' : id = close
    · rw [hid', h.closes] at hs
      rw [hid', ← Option.some.inj hs]
      exact .inr ⟨.acts rfl, hbare close hclose⟩
    · rw [h.states id hid hid'] at hs
      exact .inl hs

theorem Evolving.capture (h : Evolving room part) {name : Option String} (key : Nat → GroupKey)
    (numbered : Nat) (hopens : ∀ (d d' : Draft) slot, d.Booked →
      Build.groupSlot name d = .ok (slot, d') → Draft.Opens (key d.lastGroup) numbered slot d d') :
    Evolving room (Build.capture name part) where
  lays := by
    obtain ⟨_, _, hlays⟩ := h.lays
    exact ⟨_, _, hlays.capture key numbered hopens⟩
  keeps d start accept exit d' hd hroom hready hrun := by
    obtain ⟨_, _, hlays⟩ := h.lays
    obtain ⟨slot, body, close, d₁, d₂, d₃, hgroup⟩ :=
      hlays.takesGroup (fun d' slot => hopens d d' slot hd) hd hroom hready hrun
    have ho := hgroup.opened
    have ht := hgroup.targets
    have hbare := ho.last_body hgroup.laid.grows
    have hclose : d₃.states[close]? = some {} :=
      (ht.states close (Array.getElem?_eq_some_iff.1 hbare).1).trans hbare
    have hbody := h.body ho.toBrackets hd hroom hgroup.compiles
    exact (((ho.toBrackets.evolves ho.loopCount_eq).trans hbody).trans
      (evolves_target hgroup.target_eq)).trans (hgroup.closes.evolves ht.bare hclose)

theorem Evolving.isolated (h : Evolving room part) (hd : d.Booked) (hroom : room < d.groups.size)
    {id : Nat} (hrun : Build.isolated part d = .ok (id, d')) : d.Evolves d' := by
  obtain ⟨first, last, exit, d₁, d₂, hb, hdraft₁, hpart, -, hd'⟩ := isolated_eq_ok hrun
  have hbody := h.body hb hd hroom hpart
  rw [hd']
  exact ((hb.evolves (by rw [hdraft₁])).trans hbody).trans (.of_same rfl rfl)

theorem Evolving.around {action : Nat → Nat → Action} (haction : Isolating action)
    (h : Evolving room part) : Evolving room (Build.around part action) where
  lays := by
    obtain ⟨_, _, hlays⟩ := h.lays
    exact ⟨_, _, hlays.around action haction.resolve⟩
  keeps d start accept exit d' hd hroom hready hrun := by
    obtain ⟨_, _, hlays⟩ := h.lays
    obtain ⟨id, d₁, d₂, hisolated, htarget, hd'⟩ := around_eq_ok hrun
    have hready₁ := (hlays.isolated hd hroom hisolated).ready hready
    have hplain : (action id exit).isPlain = false := by cases haction <;> rfl
    rw [hd']
    exact ((h.isolated hd hroom hisolated).trans (evolves_target htarget)).trans
      (evolves_update (targets_target hready₁ htarget).bare (.acts hplain))

/-! ## Repetition -/

/-- Compiling a part to a given state makes the draft evolve. -/
abbrev EvolvingTo (room : Nat) (part : Nat → Nat → Build Unit) : Prop :=
  CompilesTo (fun d _ _ _ d' => d.Evolves d') room part

theorem EvolvingTo.withTarget {part : Nat → Nat → Build Unit} (h : EvolvingTo room part) :
    Evolving room (fun start accept => do
      let exit ← Build.target accept
      part start exit
      return exit) where
  lays := by
    obtain ⟨_, _, hlays⟩ := h.lays
    exact ⟨_, _, hlays.withTarget⟩
  keeps d start accept exit d' hd hroom hready hrun := by
    obtain ⟨exit₁, d₁, htarget, hrun⟩ := Build.bind_eq_ok.1 hrun
    obtain ⟨_, d₂, hpart, hrun⟩ := Build.bind_eq_ok.1 hrun
    obtain ⟨-, rfl⟩ := Build.pure_eq_ok.1 hrun
    have ht := targets_target hready htarget
    have hgrows := ht.grows d.states.size start (Nat.le_refl _)
    exact (evolves_target htarget).trans (h.keeps d₁ start exit₁ d₂ (hgrows.booked hd)
      (Nat.lt_of_lt_of_le hroom hgrows.groups_le) ht.ready hpart)

variable {layout : Layout} {last : Nat}

theorem Chosen.evolves {body : Nat} {lazy : Bool} (h : Chosen start body exit lazy d d')
    (hstart : d.states[start]? = some {}) : d.Evolves d' := by
  refine .fills (fills_of_update start h.size_eq (.chooses body exit lazy) (fun s₀ hs₀ => ?_)
    ?_ fun id hid => ?_) (by rw [h.draft_eq])
  · rw [← Option.some.inj (hstart.symm.trans hs₀)]
    exact ⟨.ends false, rfl⟩
  · rw [h.states, if_pos rfl]
  · rw [h.states, if_neg hid]

theorem evolves_optionalCopies (hlays : Lays room part (fun _ => layout) fun _ => last)
    (h : Evolving room part) (lazy : Bool) (n : Nat) (hd : d.Booked) (hroom : room < d.groups.size)
    (hready : Ready d start (some exit))
    (hrun : Build.optionalCopies part lazy exit n start d = .ok ((), d')) : d.Evolves d' := by
  induction n generalizing d start with
  | zero =>
    obtain ⟨-, rfl⟩ := Build.pure_eq_ok.1 hrun
    exact .refl d
  | succ n ih =>
    obtain ⟨body, next, d₁, d₂, d₃, hcopy, hrun⟩ := hlays.takesCopy hd hroom hready hrun
    have hevolves : d.Evolves d₃ := ((evolves_addState hcopy.chooses.addState).trans
      (h.keeps d₁ body _ next d₂ hcopy.booked_body hcopy.room_lt_body hcopy.ready_body
        hcopy.compiles)).trans (hcopy.chosen.evolves hcopy.bare)
    cases n with
    | zero =>
      obtain ⟨-, rfl⟩ := Build.pure_eq_ok.1 hrun
      exact hevolves
    | succ n =>
      exact hevolves.trans (ih hcopy.booked hcopy.room_lt (hcopy.ready (Nat.succ_ne_zero n)) hrun)

theorem EvolvingTo.loop (hlays : Lays room part (fun _ => layout) fun _ => last)
    (h : Evolving room part) (lazy : Bool) :
    EvolvingTo room (fun start exit => Build.loop part lazy exit start) where
  lays := ⟨_, _, hlays.loop lazy⟩
  keeps d start exit d' hd hroom hready hrun := by
    obtain ⟨body, back, d₁, d₂, d₃, hloop⟩ := hlays.takesLoop hd hroom hready hrun
    have hb := hloop.brackets
    have hbody := h.body hb hloop.booked hloop.room_lt hloop.compiles
    exact .loop hloop.draft_eq ((hb.evolves (by rw [hloop.brackets_eq])).trans hbody)
      hloop.bare (hb.last_body hloop.laid.grows) hloop.loops

/-! ## Alternatives -/

/-- Compiling alternatives makes the draft evolve. -/
abbrev EvolvingAny (room : Nat) (parts : Nat → Nat → Build Unit) : Prop :=
  CompilesAny (fun d _ _ _ d' => d.Evolves d') room parts

theorem evolvingAny_nil : EvolvingAny room (fun _ _ => pure ()) where
  lays := ⟨_, _, laysAny_nil⟩
  keeps d start exit d' _ _ _ _ hrun := by
    obtain ⟨-, rfl⟩ := Build.pure_eq_ok.1 hrun
    exact .refl d

/-- The state where alternatives start gets one more epsilon. -/
theorem Forks.evolves {first : Nat} {epsilons : List Nat} (h : Forks d start first d₁)
    (hstate : d.states[start]? = some { epsilons }) : d.Evolves d₁ := by
  have hfirst := h.first_eq
  have hsize := h.size_eq
  refine .fills ⟨by omega, fun id s hs => ?_⟩ (by rw [h.draft_eq])
  have hid := (Array.getElem?_eq_some_iff.1 hs).1
  by_cases hold : id < d.states.size
  · by_cases hid' : id = start
    · rw [hid', h.state epsilons hstate] at hs
      rw [hid', ← Option.some.inj hs, hstate]
      refine .inr ⟨.forks _, fun s₀ hs₀ => ?_⟩
      rw [← Option.some.inj hs₀]
      exact ⟨.forks epsilons, rfl⟩
    · rw [h.grows.states id hold hid'] at hs
      exact .inl hs
  · rw [show id = first by omega, h.bare] at hs
    rw [← Option.some.inj hs]
    exact .inr ⟨.ends false, fun s₀ hs₀ => absurd (Array.getElem?_eq_some_iff.1 hs₀).1 hold⟩

theorem EvolvingAny.cons {parts : Nat → Nat → Build Unit} (h : Evolving room part)
    (h' : EvolvingAny room parts) :
    EvolvingAny room (fun start exit => do
      let first ← Build.addState
      Build.addEpsilon start first
      let _ ← part first (some exit)
      parts start exit) where
  lays := by
    obtain ⟨_, _, hlays⟩ := h.lays
    obtain ⟨_, _, hlays'⟩ := h'.lays
    exact ⟨_, _, hlays'.cons hlays⟩
  keeps d start exit d' hd hroom hstate hexit hrun := by
    obtain ⟨_, _, hlays⟩ := h.lays
    obtain ⟨epsilons, hstate⟩ := hstate
    have hstart := (Array.getElem?_eq_some_iff.1 hstate).1
    obtain ⟨first, d₁, d₂, htaken, hrest⟩ := hlays.takesBranch hd hroom hstart hexit hrun
    have hbranch := h.keeps d₁ first (some exit) exit d₂ htaken.booked_body htaken.room_lt_body
      htaken.ready_body htaken.compiles
    exact ((htaken.forks.evolves hstate).trans hbranch).trans
      (h'.keeps d₂ start exit d' htaken.booked htaken.room_lt
        ⟨_, htaken.state epsilons hstate⟩ ⟨hexit.1, htaken.exit_lt⟩ hrest)

end

/-- Every construct makes the draft evolve. -/
theorem evolves_closed : Effect.Closed fun d _ _ _ d' => d.Evolves d' where
  lastGroup {d _ _ _ _} base hevolves :=
    have hsame : d.Evolves { d with lastGroup := base } := .of_same rfl rfl
    hsame.trans hevolves
  skip := evolving_skip
  oneOf := evolving_oneOf
  look := evolving_look
  reference := evolving_reference
  text := evolving_text
  seq := Evolving.seq
  capture key numbered hopens h := Evolving.capture h key numbered hopens
  around := Evolving.around
  withTarget := EvolvingTo.withTarget
  optionalCopies lazy n hlays h :=
    ⟨⟨_, _, laysTo_optionalCopies hlays lazy n⟩, fun _ _ _ _ hd hroom hready hrun =>
      evolves_optionalCopies hlays h lazy (n + 1) hd hroom hready hrun⟩
  loop lazy hlays h := EvolvingTo.loop hlays h lazy
  nil := evolvingAny_nil
  cons := EvolvingAny.cons

end Automaton

end RegexEngine
