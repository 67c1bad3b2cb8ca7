import RegexEngine.Proofs.Layout.Compile

/-!
# Induction over what is compiled

To show what compiling a pattern does to a draft it is enough to show it of each construct.
The parts that a construct is made of are laid out, so it can be relied on that they leave
everything else alone.

* `Compiles` says that compiling a part has an effect.
* `Effect.Closed` lists what has to be shown, one lemma for each construct.
* `Pattern.compiles` is the induction over a pattern.
-/

namespace RegexEngine

open Automaton

namespace Automaton

/-- What compiling a part may do: a relation between the draft before, the states between
which the part is compiled, and the draft afterwards. -/
abbrev Effect :=
  (d : Draft) → (start : Nat) → (accept : Option Nat) → (exit : Nat) → (d' : Draft) → Prop

/-- Compiling a part lays it out and has an effect. -/
structure Compiles (E : Effect) (room : Nat) (part : Build.Part) : Prop where
  /-- It is laid out. -/
  lays : ∃ layout last, Lays room part layout last
  /-- The effect is there. -/
  keeps : ∀ d start accept exit d', d.Booked → room < d.groups.size → Ready d start accept →
    part start accept d = .ok (exit, d') → E d start accept exit d'

/-- A body has its effect between its two states. -/
theorem Compiles.body {E : Effect} {room : Nat} {part : Build.Part} {d d₁ d₂ : Draft}
    {first close exit : Nat} {accepting : Bool} (h : Compiles E room part)
    (hb : Brackets d first close accepting d₁) (hd : d.Booked) (hroom : room < d.groups.size)
    (hrun : part first (some close) d₁ = .ok (exit, d₂)) : E d₁ first (some close) exit d₂ :=
  h.keeps d₁ first (some close) exit d₂ ((hb.grows 0).booked hd)
    (Nat.lt_of_lt_of_le hroom (hb.grows 0).groups_le) hb.ready hrun

/-- Compiling a part to a given state lays it out and has an effect. -/
structure CompilesTo (E : Effect) (room : Nat) (part : Nat → Nat → Build Unit) : Prop where
  /-- It is laid out. -/
  lays : ∃ layout last, LaysTo room part layout last
  /-- The effect is there. -/
  keeps : ∀ d start exit d', d.Booked → room < d.groups.size → Ready d start (some exit) →
    part start exit d = .ok ((), d') → E d start (some exit) exit d'

/-- Compiling alternatives lays them out and has an effect. -/
structure CompilesAny (E : Effect) (room : Nat) (parts : Nat → Nat → Build Unit) : Prop where
  /-- They are laid out. -/
  lays : ∃ branches last, LaysAny room parts branches last
  /-- The effect is there if the state where they start only leads to others. -/
  keeps : ∀ d start exit d', d.Booked → room < d.groups.size →
    (∃ epsilons, d.states[start]? = some { epsilons }) → exit ≠ start ∧ exit < d.states.size →
    parts start exit d = .ok ((), d') → E d start (some exit) exit d'

/-- The actions that need a fragment. -/
inductive Isolating : (Nat → Nat → Action) → Prop
  /-- It matches on one side, or it does not. -/
  | lookAround (direction : Direction) (negated : Bool) : Isolating (.lookAround direction negated)
  /-- Its first match is consumed. -/
  | atomic : Isolating .atomic
  /-- Its first matches are consumed one after the other. -/
  | possessive (min : Nat) (max : Option Nat) : Isolating (.possessive · min max)

/-- No slot is filled in for such an action. -/
theorem Isolating.resolve {action : Nat → Nat → Action} (h : Isolating action) (id next : Nat)
    (slot? : GroupKey → Option Nat) :
    State.resolve slot? { action := action id next } = { action := action id next } := by
  cases h <;> rfl

/-- What has to be shown of an effect. -/
structure Effect.Closed (E : Effect) : Prop where
  /-- Numbering the groups otherwise before does not matter. -/
  lastGroup : ∀ {d start accept exit d'} (base : Nat),
    E { d with lastGroup := base } start accept exit d' → E d start accept exit d'
  /-- Nothing. -/
  skip : ∀ {room}, Compiles E room Build.skip
  /-- One character. -/
  oneOf : ∀ {room} set, Compiles E room (Build.oneOf set)
  /-- An assertion. -/
  look : ∀ {room} look, Compiles E room (Build.look look)
  /-- The text of a group. -/
  reference : ∀ {room} ignoreCase key, Compiles E room (Build.reference ignoreCase key)
  /-- Characters. -/
  text : ∀ {room} ignoreCase chars, Compiles E room (Build.text ignoreCase chars)
  /-- One part after the other. -/
  seq : ∀ {room first second}, Compiles E room first → Compiles E room second →
    Compiles E room (fun start accept => do
      let next ← first start none
      second next accept)
  /-- A group. -/
  capture : ∀ {room part name} (key : Nat → GroupKey) (numbered : Nat),
    (∀ (d d' : Draft) slot, d.Booked → Build.groupSlot name d = .ok (slot, d') →
      Draft.Opens (key d.lastGroup) numbered slot d d') →
    Compiles E room part → Compiles E room (Build.capture name part)
  /-- A fragment. -/
  around : ∀ {room part action}, Isolating action → Compiles E room part →
    Compiles E room (Build.around part action)
  /-- A part whose last state is made before. -/
  withTarget : ∀ {room part}, CompilesTo E room part →
    Compiles E room (fun start accept => do
      let exit ← Build.target accept
      part start exit
      return exit)
  /-- Copies that need not be taken. -/
  optionalCopies : ∀ {room part layout last} lazy n,
    (Lays room part (fun _ => layout) fun _ => last) →
    Compiles E room part →
    CompilesTo E room (fun start exit => Build.optionalCopies part lazy exit (n + 1) start)
  /-- A loop. -/
  loop : ∀ {room part layout last} lazy, (Lays room part (fun _ => layout) fun _ => last) →
    Compiles E room part → CompilesTo E room (fun start exit => Build.loop part lazy exit start)
  /-- No alternatives. -/
  nil : ∀ {room}, CompilesAny E room (fun _ _ => pure ())
  /-- One more alternative. -/
  cons : ∀ {room part parts}, Compiles E room part → CompilesAny E room parts →
    CompilesAny E room (fun start exit => do
      let first ← Build.addState
      Build.addEpsilon start first
      let _ ← part first (some exit)
      parts start exit)

section

variable {E : Effect} {room : Nat} {part second : Build.Part} {layout layout' : Layout} {last : Nat}
  {last' : Nat → Nat}

/-! ## Constructs made of others -/

/-- Alternatives that start where nothing else does. -/
theorem CompilesAny.alt {parts : Nat → Nat → Build Unit} (h : CompilesAny E room parts) :
    CompilesTo E room parts where
  lays := by
    obtain ⟨_, _, hlays⟩ := h.lays
    exact ⟨_, _, hlays.alt⟩
  keeps d start exit d' hd hroom hready hrun :=
    h.keeps d start exit d' hd hroom ⟨[], hready.bare⟩ (hready.accept exit rfl) hrun

/-- A way that asks for nothing. -/
theorem Effect.Closed.addEpsilon (hE : E.Closed) : CompilesTo E room Build.addEpsilon where
  lays := ⟨_, _, laysTo_addEpsilon⟩
  keeps d start exit d' hd hroom hready hrun :=
    hE.skip.keeps d start (some exit) exit d' hd hroom hready
      (Build.bind_eq_ok.2 ⟨(), d', hrun, rfl⟩)

/-- Copies of a part come before what follows them. -/
theorem Effect.Closed.copies (hE : E.Closed)
    (hlays : Lays room part (fun _ => layout) fun _ => last)
    (hlays' : Lays room second (fun _ => layout') last') (h : Compiles E room part)
    (h' : Compiles E room second) (n : Nat) :
    Compiles E room (fun start accept => do
      let next ← Build.copies part n start
      second next accept) where
  lays := ⟨_, _, hlays.copies hlays' n⟩
  keeps := by
    induction n with
    | zero => exact fun d start accept exit d' hd hroom hready hrun =>
        h'.keeps d start accept exit d' hd hroom hready hrun
    | succ n ih =>
      intro d start accept exit d' hd hroom hready hrun
      have hrest : Compiles E room (fun start accept => do
          let next ← Build.copies part n start
          second next accept) := ⟨⟨_, _, hlays.copies hlays' n⟩, ih⟩
      apply (hE.seq h hrest).keeps d start accept exit d' hd hroom hready
      obtain ⟨last, d₁, hcopies, hrun⟩ := Build.bind_eq_ok.1 hrun
      obtain ⟨next, d₂, hpart, hcopies⟩ := Build.bind_eq_ok.1 hcopies
      exact Build.bind_eq_ok.2 ⟨next, d₂, hpart, Build.bind_eq_ok.2 ⟨last, d₁, hcopies, hrun⟩⟩

/-- A copy of a part numbers its groups as the other copies do. -/
theorem Effect.Closed.copy (hE : E.Closed) {layout : Nat → Layout} {last : Nat → Nat}
    (hlays : Lays 0 part layout last) (h : Compiles E 0 part) (base : Nat) :
    Compiles E base (fun start accept => do
      Build.setLastGroup base
      part start accept) where
  lays := ⟨_, _, hlays.copy base⟩
  keeps d start accept exit d' hd hroom hready hrun := by
    obtain ⟨_, d₁, hmodify, hrun⟩ := Build.bind_eq_ok.1 hrun
    have hgrows : Draft.Grows d.states.size start d d₁ := by
      rw [Build.modify_eq_ok.1 hmodify]
      exact Draft.grows_lastGroup fun _ => hroom
    obtain rfl := Build.modify_eq_ok.1 hmodify
    exact hE.lastGroup base (h.keeps _ start accept exit d' (hgrows.booked hd)
      (Nat.lt_of_le_of_lt (Nat.zero_le _) hroom) ⟨hready.bare, hready.accept⟩ hrun)

/-- From `min` to `max` times. -/
theorem Effect.Closed.repeated (hE : E.Closed) {layout : Nat → Layout} {last : Nat → Nat}
    (hlays : Lays 0 part layout last) (h : Compiles E 0 part) (min : Nat) (max : Option Nat)
    (hmax : ∀ max', max = some max' → min ≤ max') (lazy : Bool) :
    Compiles E 0 (Build.repeated part min max lazy) where
  lays := ⟨_, _, hlays.repeated min max hmax lazy⟩
  keeps d start accept exit d' hd _ hready hrun := by
    obtain ⟨_, _, hget, hbranch⟩ := Build.bind_eq_ok.1 hrun
    obtain ⟨rfl, rfl⟩ := Build.get_eq_ok.1 hget
    clear hrun hget
    have hlays' := hlays.copy d.lastGroup
    have hcopy := hE.copy hlays h d.lastGroup
    have hlast := hd.lastGroup_lt
    by_cases hexact : max = some min ∧ 0 < min
    · simp only [if_pos hexact] at hbranch
      exact (hE.copies hlays' hlays' hcopy hcopy (min - 1)).keeps d start accept exit d' hd hlast
        hready hbranch
    · simp only [if_neg hexact] at hbranch
      cases max with
      | none =>
        exact (hE.copies hlays' (hlays'.loop lazy).withTarget hcopy
          (hE.withTarget (hE.loop lazy hlays' hcopy)) min).keeps d start accept exit d' hd
            hlast hready
          hbranch
      | some max =>
        have hle := hmax max rfl
        by_cases heq : min = max
        · simp only [if_pos heq] at hbranch
          exact (hE.copies hlays' laysTo_addEpsilon.withTarget hcopy (hE.withTarget hE.addEpsilon)
            min).keeps d start accept exit d' hd hlast hready hbranch
        · obtain ⟨n, hn⟩ : ∃ n, max - min = n + 1 := ⟨max - min - 1, by omega⟩
          simp only [if_neg heq, hn] at hbranch
          exact (hE.copies hlays' (laysTo_optionalCopies hlays' lazy n).withTarget hcopy
            (hE.withTarget (hE.optionalCopies lazy n hlays' hcopy)) min).keeps d start accept exit
            d' hd hlast hready hbranch

end

/-- A chain of characters is one character after the other. -/
theorem compiles_chain {E : Effect} {room : Nat} (hskip : Compiles E room Build.skip)
    (honeOf : ∀ set, Compiles E room (Build.oneOf set))
    (hseq : ∀ {first second}, Compiles E room first → Compiles E room second →
      Compiles E room (fun start accept => do
        let next ← first start none
        second next accept)) (ignoreCase : Bool) (chars : List Char) :
    Compiles E room (Build.chain ignoreCase chars) := by
  induction chars with
  | nil => exact hskip
  | cons c chars ih =>
    cases chars with
    | nil => exact honeOf _
    | cons c' chars => exact hseq (honeOf _) ih

end Automaton

/-! ## Patterns -/

namespace Pattern

mutual

/-- Compiling a pattern has an effect if compiling each construct has. -/
theorem compiles {E : Effect} (hE : E.Closed) (o : Options) :
    (p : Pattern) → Compiles E 0 (compilePart o p)
  | text chars => by
    simp only [compilePart]
    exact hE.text o.ignoreCase chars
  | concat parts => by
    simpa only [compilePart] using compilesConcat hE o parts
  | alt branches => by
    simpa only [compilePart] using hE.withTarget (compilesAlt hE o branches).alt
  | repeated body min max mode => by
    refine ⟨⟨_, _, lays_compilePart o _⟩, fun d start accept exit d' hd hroom hready hrun => ?_⟩
    obtain ⟨hmax, hrun⟩ := compileRepeated_eq_ok hrun
    have hbody := compiles hE o body
    by_cases hmode : mode = .possessive
    · rw [if_pos hmode] at hrun
      exact (hE.around (.possessive min max) hbody).keeps d start accept exit d' hd hroom
        hready hrun
    · rw [if_neg hmode] at hrun
      exact (hE.repeated (lays_compilePart o body) hbody min max hmax (mode == .lazy)).keeps d start
        accept exit d' hd hroom hready hrun
  | oneOf set => by
    simp only [compilePart]
    exact hE.oneOf (Build.classSet o set)
  | assert assertion => by
    simp only [compilePart]
    exact hE.look (assertion.look o)
  | withFlags flags body => by
    simpa only [compilePart] using compiles hE (o.overlay flags) body
  | lookAround direction negated body => by
    simpa only [compilePart] using hE.around (.lookAround direction negated) (compiles hE o body)
  | atomic body => by
    simpa only [compilePart] using hE.around .atomic (compiles hE o body)
  | capture (some name) body => by
    simp only [compilePart]
    exact hE.capture (fun _ => .name name) 0
      (fun _ _ _ hd hrun => Draft.opens_groupSlot_name hd hrun) (compiles hE o body)
  | capture none body => by
    simp only [compilePart]
    exact hE.capture (fun base => .index (base + 1)) 1
      (fun _ _ _ hd hrun => Draft.opens_groupSlot_index hd hrun) (compiles hE o body)
  | reference group => by
    simp only [compilePart]
    exact hE.reference o.ignoreCase group

theorem compilesConcat {E : Effect} (hE : E.Closed) (o : Options) :
    (parts : List Pattern) → Compiles E 0 (compileConcat o parts)
  | [] => by
    simp only [compileConcat]
    exact hE.skip
  | [part] => by
    simpa only [compileConcat] using compiles hE o part
  | part :: part' :: parts => by
    simpa only [compileConcat] using hE.seq (compiles hE o part)
      (compilesConcat hE o (part' :: parts))

theorem compilesAlt {E : Effect} (hE : E.Closed) (o : Options) :
    (branches : List Pattern) → CompilesAny E 0 (compileAlt o branches)
  | [] => by
    simp only [compileAlt]
    exact hE.nil
  | branch :: branches => by
    simpa only [compileAlt] using hE.cons (compiles hE o branch) (compilesAlt hE o branches)

end

end Pattern

end RegexEngine
