import RegexEngine.Proofs.Layout.Repetition
import RegexEngine.Proofs.Layout.Slots

/-!
# Compiling lays out a pattern

* `Lays.takesBranch` is about one alternative and what is compiled behind it.
* `LaysAny.cons` and `LaysAny.alt` are about alternatives.
* `Pattern.lays_compilePart` is the induction over a pattern.
* `Pattern.exists_liesIn` says how a pattern lies in its automaton.
-/

namespace RegexEngine.Automaton

section

variable {d d' : Draft} {start exit room : Nat} {accept : Option Nat}

/-! ## Alternatives -/

/-- What compiling alternatives does.  The state where they start leads to the start of
each of them. -/
structure LaidAny (d : Draft) (start exit : Nat) (d' : Draft) (branches : Layout.Branches)
    (last : Nat) : Prop where
  /-- Everything else stays. -/
  grows : Draft.Grows d.states.size start d d'
  /-- It numbers its groups. -/
  lastGroup_eq : d'.lastGroup = last
  /-- They lie as their layout says. -/
  places : ∃ firsts ranges, (∀ first ∈ firsts, d.states.size ≤ first) ∧
    (∀ epsilons, d.states[start]? = some { epsilons } →
      d'.states[start]? = some { epsilons := epsilons ++ firsts }) ∧
    Covers ranges d d' ∧ ∀ site, Fits site d d' ranges d.states.size exit →
      ∃ rank, d.states.size + rank ≤ d'.states.size ∧
        branches site firsts rank d.loopCount d'.loopCount exit

/-- Compiling alternatives lays them out. -/
def LaysAny (room : Nat) (parts : Nat → Nat → Build Unit) (branches : Nat → Layout.Branches)
    (last : Nat → Nat) : Prop :=
  ∀ d start exit d', d.Booked → room < d.groups.size → start < d.states.size →
    exit ≠ start ∧ exit < d.states.size → parts start exit d = .ok ((), d') →
      LaidAny d start exit d' (branches d.lastGroup) (last d.lastGroup)

theorem laysAny_nil : LaysAny room (fun _ _ => pure ()) (fun _ => .nil) id := by
  intro d start exit d' hd hroom hstart hexit hrun
  obtain ⟨-, rfl⟩ := Build.pure_eq_ok.1 hrun
  refine ⟨.refl _ _ _, rfl, [], fun _ => (0, 0), by simp, fun epsilons h => by simpa using h,
    fun id hlo hhi => by omega, fun site _ => ⟨0, Nat.le_refl _, rfl, rfl, rfl⟩⟩

/-- A state is made for an alternative, and the state where they start leads to it. -/
structure Forks (d : Draft) (start first : Nat) (d₁ : Draft) : Prop where
  /-- The state is new. -/
  first_eq : first = d.states.size
  /-- It is the only one. -/
  size_eq : d₁.states.size = d.states.size + 1
  /-- Nothing else is made. -/
  draft_eq : d₁ = { d with states := d₁.states }
  /-- Nothing leads on from the state yet. -/
  bare : d₁.states[first]? = some {}
  /-- It comes after what has been there. -/
  state : ∀ epsilons, d.states[start]? = some { epsilons } →
    d₁.states[start]? = some { epsilons := epsilons ++ [first] }
  /-- Everything else stays. -/
  grows : Draft.Grows d.states.size start d d₁

theorem forks_addEpsilon {d₁ d₂ : Draft} {first : Nat} (hstart : start < d.states.size)
    (hadd : Build.addState d = .ok (first, d₁))
    (hepsilon : Build.addEpsilon start first d₁ = .ok ((), d₂)) : Forks d start first d₂ := by
  obtain ⟨rfl, rfl⟩ := Build.addState_eq_ok.1 hadd
  obtain rfl := Build.update_eq_ok.1 hepsilon
  refine ⟨rfl, by simp, rfl, ?_, fun epsilons hstate => ?_,
    (Draft.grows_addState (Nat.le_refl _)).trans (Draft.grows_update (.inl rfl) _)⟩
  · rw [Array.getElem?_modify, if_neg (by omega), Array.getElem?_push_size]
  · have hstate' : (d.states.push {})[start]? = some { epsilons } := by
      rw [Array.getElem?_push_lt hstart, ← Array.getElem?_eq_getElem hstart, hstate]
    rw [getElem?_modify_state hstate', if_pos rfl]

/-- An alternative has been compiled, between a state that is made for it and the exit. -/
structure TakesBranch (part : Build.Part) (layout : Nat → Layout) (last : Nat → Nat) (room : Nat)
    (d : Draft) (start exit first : Nat) (d₁ d₂ : Draft) : Prop where
  /-- The state where the alternatives start leads to it. -/
  forks : Forks d start first d₁
  /-- The alternative can be compiled then. -/
  booked_body : d₁.Booked
  /-- Its groups have been reserved. -/
  room_lt_body : room < d₁.groups.size
  /-- It lies between two states. -/
  ready_body : Ready d₁ first (some exit)
  /-- It is compiled. -/
  compiles : part first (some exit) d₁ = .ok (exit, d₂)
  /-- It is laid out. -/
  laid : Laid d₁ first (some exit) exit d₂ (layout d₁.lastGroup) (last d₁.lastGroup)
  /-- The state where the alternatives start leads nowhere else. -/
  state : ∀ epsilons, d.states[start]? = some { epsilons } →
    d₂.states[start]? = some { epsilons := epsilons ++ [first] }
  /-- The other alternatives can be compiled then. -/
  booked : d₂.Booked
  /-- Their groups have been reserved too. -/
  room_lt : room < d₂.groups.size
  /-- They start where this one does. -/
  start_lt : start < d₂.states.size
  /-- They end where this one does. -/
  exit_lt : exit < d₂.states.size

/-- One alternative is compiled, and then the other ones. -/
theorem Lays.takesBranch {part : Build.Part} {parts : Nat → Nat → Build Unit}
    {layout : Nat → Layout} {last : Nat → Nat} (h : Lays room part layout last) (hd : d.Booked)
    (hroom : room < d.groups.size) (hstart : start < d.states.size)
    (hexit : exit ≠ start ∧ exit < d.states.size)
    (hrun : (do
      let first ← Build.addState
      Build.addEpsilon start first
      let _ ← part first (some exit)
      parts start exit : Build Unit) d = .ok ((), d')) :
    ∃ first d₁ d₂, TakesBranch part layout last room d start exit first d₁ d₂ ∧
      parts start exit d₂ = .ok ((), d') := by
  obtain ⟨first, _, hadd, hrun⟩ := Build.bind_eq_ok.1 hrun
  obtain ⟨_, d₁, hepsilon, hrun⟩ := Build.bind_eq_ok.1 hrun
  obtain ⟨exit₁, d₂, hpart, hrest⟩ := Build.bind_eq_ok.1 hrun
  have hforks := forks_addEpsilon hstart hadd hepsilon
  have hfirst := hforks.first_eq
  have hsize₁ := hforks.size_eq
  have hbooked₁ := hforks.grows.booked hd
  have hroom₁ := Nat.lt_of_lt_of_le hroom hforks.grows.groups_le
  have hready₁ : Ready d₁ first (some exit) := ⟨hforks.bare, fun id hid => by cases hid; omega⟩
  have hlaid := h d₁ first (some exit) exit₁ d₂ hbooked₁ hroom₁ hready₁ hpart
  obtain rfl : exit₁ = exit := hlaid.ends.given _ rfl
  have hsize₂ := hlaid.grows.size_le
  exact ⟨first, d₁, d₂, ⟨hforks, hbooked₁, hroom₁, hready₁, hpart, hlaid,
    fun epsilons hstate => (hlaid.grows.states start (by omega) (by omega)).trans
      (hforks.state epsilons hstate),
    hlaid.grows.booked hbooked₁, Nat.lt_of_lt_of_le hroom₁ hlaid.grows.groups_le, by
      omega, by omega⟩,
    hrest⟩

/-- The start of an alternative is made and the state where they start leads to it. -/
theorem LaysAny.cons {part : Build.Part} {parts : Nat → Nat → Build Unit} {layout : Nat → Layout}
    {branches : Nat → Layout.Branches} {last last' : Nat → Nat} (h : Lays room part layout last)
    (h' : LaysAny room parts branches last') :
    LaysAny room (fun start exit => do
      let first ← Build.addState
      Build.addEpsilon start first
      let _ ← part first (some exit)
      parts start exit) (fun base => .cons (layout base) (branches (last base)))
      (fun base => last' (last base)) := by
  intro d start exit d' hd hroom hstart hexit hrun
  obtain ⟨first, d₁, d₂, hbranch, hrest⟩ := h.takesBranch hd hroom hstart hexit hrun
  obtain ⟨hfirst, hsize₁, hdraft₁, -, -, hgrows₁⟩ := hbranch.forks
  have hfields₁ : d₁.fragments.size = d.fragments.size ∧ d₁.loopCount = d.loopCount ∧
      d₁.lastGroup = d.lastGroup := by
    rw [hdraft₁]
    exact ⟨rfl, rfl, rfl⟩
  obtain ⟨hfragments₁, hloops₁, hlast₁⟩ := hfields₁
  have hlaid := hbranch.laid
  have hsize₂ := hlaid.grows.size_le
  have hloops₂ := hlaid.grows.loopCount_le
  -- The other ones.
  have hlaid' := h' d₂ start exit d' hbranch.booked hbranch.room_lt hbranch.start_lt
    ⟨hexit.1, hbranch.exit_lt⟩ hrest
  have hsize' := hlaid'.grows.size_le
  obtain ⟨ranges, hcovers, hplaces⟩ := hlaid.places
  obtain ⟨firsts, ranges', hfirsts, hepsilons, hcovers', hplaces'⟩ := hlaid'.places
  refine ⟨hgrows₁.trans ((hlaid.grows.mono (by omega) (.inr (by omega))).trans
      (hlaid'.grows.mono (by omega) (.inl rfl))), ?_, first :: firsts,
    glue d₂.fragments.size ranges ranges', ?_, fun epsilons hstate => ?_,
    hcovers.glue hcovers' hgrows₁ hlaid.grows (.refl 0 0 d₂) hlaid'.grows hfragments₁ rfl,
    fun site hfits => ?_⟩
  · rw [hlaid'.lastGroup_eq, hlaid.lastGroup_eq, hlast₁]
  · intro id hid
    rcases List.mem_cons.1 hid with rfl | hid
    · omega
    · have := hfirsts id hid
      omega
  · rw [hepsilons (epsilons ++ [first]), List.append_assoc]
    · rfl
    · exact hbranch.state epsilons hstate
  · obtain ⟨hleft, hright⟩ := hfits.split first exit d₂.states.size
      hgrows₁ hlaid.grows (.refl 0 0 d₂) hlaid'.grows hcovers hcovers' hfragments₁ rfl
      (fun id hid hne hlt => ⟨by omega, hne, hlaid'.grows.states id hlt (by omega)⟩)
      (.inr (by omega))
    obtain ⟨rank, hrank, hlayout⟩ := hplaces site hleft
    obtain ⟨rank', hrank', hlayout'⟩ := hplaces' site hright
    have hfirst' : first ∉ firsts := fun hmem => by
      have := hfirsts first hmem
      omega
    simp only [spare_some] at hrank
    rw [hloops₁, hlast₁] at hlayout
    rw [hlaid.lastGroup_eq, hlast₁] at hlayout'
    exact ⟨rank + rank', by omega, rank, rank', d₂.loopCount, first, firsts, rfl, hfirst', rfl,
      by omega, hlayout, hlayout'⟩

/-- Alternatives that start where nothing else does. -/
theorem LaysAny.alt {parts : Nat → Nat → Build Unit} {branches : Nat → Layout.Branches}
    {last : Nat → Nat} (h : LaysAny room parts branches last) :
    LaysTo room parts (fun base => .alt (branches base)) last := by
  intro d start exit d' hd hroom hready hrun
  have hexit := hready.accept exit rfl
  have hlaid := h d start exit d' hd hroom hready.lt_size hexit hrun
  obtain ⟨firsts, ranges, -, hepsilons, hcovers, hplaces⟩ := hlaid.places
  refine ⟨hlaid.grows, ⟨fun id h => Option.some.inj h, fun h => by cases h⟩,
    hlaid.lastGroup_eq, ranges, hcovers, fun site hfits => ?_⟩
  have hinner : Fits site d d' ranges d.states.size exit :=
    hfits.sub (.refl 0 0 d) (.refl 0 0 d') (fun id hid hne hlt => ⟨by omega, hne, rfl⟩)
      (fun _ _ _ => rfl) fun id loop hlo hhi hid _ _ => by omega
  obtain ⟨rank, hrank, hlayout⟩ := hplaces site hinner
  refine ⟨rank + 1, by simp only [spare_some]; omega, rank, firsts, rfl, ?_, hlayout⟩
  exact hfits.states start { epsilons := firsts } (.inl rfl) (Ne.symm hexit.1)
    (by simpa using hepsilons [] hready.bare)

end

end RegexEngine.Automaton

namespace RegexEngine.Pattern

open Automaton

/-! ## Patterns -/

/-- A repetition that can be compiled has bounds in order. -/
theorem compileRepeated_eq_ok {o : Options} {body : Pattern} {min : Nat} {max : Option Nat}
    {mode : Mode} {start exit : Nat} {accept : Option Nat} {d d' : Draft}
    (hrun : compilePart o (.repeated body min max mode) start accept d = .ok (exit, d')) :
    (∀ max', max = some max' → min ≤ max') ∧
      (if mode = .possessive then
        Build.around (compilePart o body) (.possessive · min max) start accept
      else Build.repeated (compilePart o body) min max (mode == .lazy) start accept) d =
        .ok (exit, d') := by
  simp only [compilePart] at hrun
  cases max with
  | none => exact ⟨fun _ h => (by cases h), hrun⟩
  | some max =>
    by_cases hbound : max < min
    · simp only [if_pos hbound] at hrun
      cases hrun
    · simp only [if_neg hbound] at hrun
      exact ⟨fun max' h => by cases h; omega, hrun⟩

mutual

/-- Compiling a pattern lays it out. -/
theorem lays_compilePart (o : Options) : (p : Pattern) →
    Lays 0 (compilePart o p) (fun base => p.layout o base) fun base => base + p.numbered
  | text chars => by
    simp only [compilePart, layout, numbered]
    exact lays_text o.ignoreCase chars
  | concat parts => by
    simpa only [compilePart, layout, numbered] using lays_compileConcat o parts
  | alt branches => by
    simpa only [compilePart, layout, numbered] using (lays_compileAlt o branches).alt.withTarget
  | repeated body min max mode => by
    intro d start accept exit d' hd hroom hready hrun
    obtain ⟨hmax, hrun⟩ := compileRepeated_eq_ok hrun
    have hbody := lays_compilePart o body
    by_cases hmode : mode = .possessive
    · rw [if_pos hmode] at hrun
      simpa [layout, numbered, hmode] using
        hbody.around (.possessive · min max) (fun _ _ _ => rfl) d start accept exit d' hd
          hroom hready hrun
    · rw [if_neg hmode] at hrun
      have hlaid :=
        hbody.repeated min max hmax (mode == .lazy) d start accept exit d' hd hroom hready hrun
      by_cases hzero : max = some 0
      · simpa [layout, numbered, hmode, hzero] using hlaid
      · simpa [layout, numbered, hmode, hzero] using hlaid
  | oneOf set => by
    simp only [compilePart, layout, numbered]
    exact lays_oneOf (Build.classSet o set)
  | assert assertion => by
    simp only [compilePart, layout, numbered]
    exact lays_look (assertion.look o)
  | withFlags flags body => by
    simpa only [compilePart, layout, numbered] using lays_compilePart (o.overlay flags) body
  | lookAround direction negated body => by
    simpa only [compilePart, layout, numbered] using
      (lays_compilePart o body).around (.lookAround direction negated) fun _ _ _ => rfl
  | atomic body => by
    simpa only [compilePart, layout, numbered] using
      (lays_compilePart o body).around .atomic fun _ _ _ => rfl
  | capture (some name) body => by
    simpa only [compilePart, layout, numbered] using lays_capture_name
      (lays_compilePart o body) name
  | capture none body => by
    have h := lays_capture_index (lays_compilePart o body)
    simpa only [compilePart, layout, numbered, Nat.add_assoc, Nat.add_comm 1] using h
  | reference group => by
    simp only [compilePart, layout, numbered]
    exact lays_reference o.ignoreCase group

/-- Compiling patterns one after the other lays them out. -/
theorem lays_compileConcat (o : Options) : (parts : List Pattern) →
    Lays 0 (compileConcat o parts) (fun base => layoutAll o base parts)
      fun base => base + numberedAll parts
  | [] => by
    simp only [compileConcat, layoutAll, numberedAll]
    exact lays_skip
  | [part] => by
    simp only [compileConcat, layoutAll, numberedAll]
    refine (lays_compilePart o part).mono _ fun base site rank lo hi start exit hle hlayout => ?_
    exact ⟨rank, 0, hi, exit, rfl, hle, hlayout, rfl, .inl ⟨rfl, rfl⟩⟩
  | part :: part' :: parts => by
    have h := (lays_compilePart o part).seq (lays_compileConcat o (part' :: parts))
    simpa only [compileConcat, layoutAll, numberedAll, Nat.add_assoc] using h

/-- Compiling alternatives lays them out. -/
theorem lays_compileAlt (o : Options) : (branches : List Pattern) →
    LaysAny 0 (compileAlt o branches) (fun base => layoutAny o base branches)
      fun base => base + numberedAll branches
  | [] => by
    simp only [compileAlt, layoutAny, numberedAll]
    exact laysAny_nil
  | branch :: branches => by
    have h := (lays_compileAlt o branches).cons (lays_compilePart o branch)
    simpa only [compileAlt, layoutAny, numberedAll, Nat.add_assoc] using h

end

end RegexEngine.Pattern

/-! ## Whole patterns -/

namespace RegexEngine

namespace Automaton

/-- The groups of a draft can be listed in the order of their slots. -/
theorem Draft.Booked.exists_keys {d : Draft} (h : d.Booked) :
    ∃ keys : List GroupKey, keys.length = d.slotCount ∧
      ∀ key id, d.slot? key = some id ↔ keys[id]? = some key := by
  have hkey (id : Fin d.slotCount) : ∃ key, d.slot? key = some id.1 := h.exists_key id.1 id.2
  obtain ⟨key, hkey⟩ := Classical.skolem.1 hkey
  refine ⟨List.ofFn key, by simp, fun key' id => ⟨fun hid => ?_, fun hid => ?_⟩⟩
  · have hlt := h.lt_slotCount _ _ hid
    rw [List.getElem?_ofFn, dif_pos hlt, h.injective _ _ id hid (hkey ⟨id, hlt⟩)]
  · rw [List.getElem?_ofFn] at hid
    split at hid
    · cases hid
      exact hkey _
    · cases hid

/-- The automaton of a draft that starts in its first state and accepts in the given one. -/
def Draft.whole (d : Draft) (accept : Nat) : Automaton :=
  Draft.finish { d with states := d.states.modify accept fun s => { s with accepting := true } }
    0 accept

theorem Draft.slot?_whole (d : Draft) (accept : Nat) : (d.whole accept).slot? = d.slot? := by
  funext key
  cases key <;> rfl

theorem Draft.getElem?_whole (d : Draft) (accept id : Nat) : (d.whole accept).states[id]? =
    (if accept = id then d.states[id]?.map fun s => { s with accepting := true }
      else d.states[id]?).map (State.resolve d.slot?) := by
  show (Array.map _ _)[id]? = _
  rw [Array.getElem?_map, Array.getElem?_modify]
  exact congrArg (fun slot? => Option.map (State.resolve slot?) _) (d.slot?_whole accept)

theorem Draft.size_whole (d : Draft) (accept : Nat) :
    (d.whole accept).states.size = d.states.size := by
  simp [whole, finish]

/-- Compiling a pattern compiles it as a part of a draft with one state. -/
theorem compile_eq_ok {o : Options} {p : Pattern} {a : Automaton} (h : compile o p = .ok a) :
    ∃ accept d, compilePart o p 0 none { states := #[{}] } = .ok (accept, d) ∧
      a = d.whole accept := by
  unfold compile at h
  cases hbuild : (do
      let start ← Build.addState
      let accept ← compilePart o p start none
      Build.update accept fun s => { s with accepting := true }
      return (start, accept) : Build (Nat × Nat)) {} with
  | error e =>
    simp only [StateT.run, hbuild] at h
    cases h
  | ok result =>
    obtain ⟨⟨start, accept⟩, d⟩ := result
    simp only [StateT.run, hbuild] at h
    obtain ⟨start₁, d₁, hstart, hrest⟩ := Build.bind_eq_ok.1 hbuild
    obtain ⟨accept₁, d₂, hpart, hrest⟩ := Build.bind_eq_ok.1 hrest
    obtain ⟨_, d₃, hupdate, hrest⟩ := Build.bind_eq_ok.1 hrest
    obtain ⟨rfl, rfl⟩ := Build.addState_eq_ok.1 hstart
    obtain rfl := Build.update_eq_ok.1 hupdate
    obtain ⟨heq, rfl⟩ := Build.pure_eq_ok.1 hrest
    cases heq
    exact ⟨accept, d₂, hpart, (Except.ok.inj h).symm⟩

theorem booked_empty : Draft.Booked { states := #[{}] } := by
  have hslot? (key : GroupKey) (id : Nat) :
      Draft.slot? { states := #[{}] } key = some id ↔ key = .index 0 ∧ id = 0 := by
    cases key with
    | index n => cases n <;> simp [Draft.slot?, eq_comm]
    | name s => simp [Draft.slot?]
  refine ⟨?_, ?_, (hslot? _ _).2 ⟨rfl, rfl⟩, ?_, by decide, by simp, by simp⟩
  · intro key key' id h h'
    rw [((hslot? _ _).1 h).1, ((hslot? _ _).1 h').1]
  · intro key id h
    rw [((hslot? _ _).1 h).2]
    decide
  · intro id hid
    exact ⟨.index 0, (hslot? _ _).2 ⟨rfl, by simpa using hid⟩⟩

theorem ready_empty : Ready { states := #[{}] } 0 none :=
  ⟨rfl, fun _ h => by cases h⟩

/-- A pattern is laid into a draft with one state, and its last state does nothing yet. -/
theorem laid_of_compilePart {o : Options} {p : Pattern} {accept : Nat} {d : Draft}
    (hpart : compilePart o p 0 none { states := #[{}] } = .ok (accept, d)) :
    Laid { states := #[{}] } 0 none accept d (p.layout o 0) (0 + p.numbered) ∧ d.Booked ∧
      d.states[accept]? = some {} := by
  have hlaid := p.lays_compilePart o { states := #[{}] } 0 none accept d booked_empty (by decide)
    ready_empty hpart
  exact ⟨hlaid, hlaid.grows.booked booked_empty, (hlaid.ends.made rfl).2⟩

/-- The site of a run of a whole automaton, where the loops of each fragment are given. -/
def wholeSite (a : Automaton) (ranges : Nat → Nat × Nat) : Site where
  automaton := a
  owns id loop := (ranges id).1 ≤ loop ∧ loop < (ranges id).2
  own _ := True
  tracked := decide (1 < a.slotCount)
  nested := a.fragments.size
  insides _ _ := True
  inside _ := True

end Automaton

namespace Pattern

open Automaton

/-- How a pattern lies in its automaton, where the loops of each fragment are given and the
slots belong to the given groups. -/
structure LiesIn (p : Pattern) (o : Options) (a : Automaton) (ranges : Nat → Nat × Nat)
    (keys : List GroupKey) : Prop where
  /-- The slots belong to the groups. -/
  keyed : a.Keyed keys
  /-- There are no other slots. -/
  length_keys : keys.length = a.slotCount
  /-- The pattern lies between the first state and the last. -/
  layout : ∃ rank, rank < a.states.size ∧
    p.layout o 0 (wholeSite a ranges) rank 0 a.loopCount a.start a.accept
  /-- A match ends in the last state. -/
  accept : a.states[a.accept]? = some { accepting := true }
  /-- A match begins in the first state. -/
  entry : a.entry = a.start
  /-- Fragments with groups have slots for them, and none has been replaced. -/
  fragments : ∀ (id : Nat) (f : Fragment), a.fragments[id]? = some f →
    (f.captures → 1 < a.slotCount) ∧ f.dfa = none

/-- A pattern lies in the automaton that it is compiled to. -/
theorem exists_liesIn {o : Options} {p : Pattern} {a : Automaton} (h : compile o p = .ok a) :
    ∃ ranges keys, p.LiesIn o a ranges keys := by
  obtain ⟨accept, d, hpart, rfl⟩ := compile_eq_ok h
  obtain ⟨hlaid, hd, hbare⟩ := laid_of_compilePart hpart
  obtain ⟨ranges, hcovers, hplaces⟩ := hlaid.places
  obtain ⟨keys, hlength, hkeys⟩ := hd.exists_keys
  obtain ⟨rank, hrank, hlayout⟩ := hplaces (wholeSite (d.whole accept) ranges)
    { states := fun id s hid hne hs => by
        rw [wholeSite, d.getElem?_whole, if_neg (Ne.symm hne), hs, d.slot?_whole]
        rfl
      fragments := fun _ _ _ h => h
      slot? := fun key id hkey => by rw [wholeSite, d.slot?_whole, hkey]
      size := Nat.le_of_eq (d.size_whole accept).symm
      loops := Nat.le_refl _
      owns := fun _ _ _ _ => Iff.rfl
      others := fun id _ hid hnested _ => by
        have hnested' : id < d.fragments.size := hnested
        have hzero : ({ states := #[{}] } : Draft).fragments.size = 0 := rfl
        omega
      own := fun _ _ _ => trivial
      nested := Nat.le_refl _
      tracked := fun hcaptures =>
        decide_eq_true (hd.captures (Nat.lt_of_le_of_lt (Nat.zero_le _) hcaptures)) }
  exact ⟨ranges, keys,
    { keyed := fun key id => by rw [d.slot?_whole]; exact hkeys key id
      length_keys := hlength
      layout := ⟨rank, by rw [d.size_whole]; simp at hrank; omega, hlayout⟩
      accept := by
        show (d.whole accept).states[accept]? = _
        rw [d.getElem?_whole, if_pos rfl, hbare]
        rfl
      entry := rfl
      fragments := hd.fragments }⟩

end Pattern

end RegexEngine
