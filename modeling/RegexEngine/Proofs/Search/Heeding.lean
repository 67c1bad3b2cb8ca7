import RegexEngine.Proofs.Search.Halting

/-!
# Which records a search heeds

A search records where the current iteration of each loop began.  Where it goes on from a
state, it heeds the records of the loops around this state and no others: an iteration is
ended only where one has been begun since.

* `Heeds` is said of a computation that heeds no records but the given ones.
* `heeds_step` says it of a step, if the fragments heed no records at all.
* `Twins` relates two stacks of pending work that differ only in what they put back.  The
  records that the pending work heeds are those that have been put back when it is its turn.
* `heeds_chase` and `continue_handle` keep the stacks alike, so `alike_walk` goes the same
  way with both, and `heedless_runFragment` follows by induction on the depth.
-/

namespace RegexEngine

open Automaton

/-! ## Computations that heed few records -/

/-- Two contents of the registers differ at most in the records of loops that do not
matter. -/
structure Registers.AgreeOn (needs : Finset Nat) (r r' : Registers) : Prop where
  /-- The slots are the same. -/
  slots_eq : r'.slots = r.slots
  /-- There are as many records. -/
  size_eq : r'.loops.size = r.loops.size
  /-- The records that matter are the same. -/
  loops_eq : ∀ loop ∈ needs, r'.loops[loop]? = r.loops[loop]?

/-- Two computations end with the same fault, or with related answers and registers. -/
inductive Parallel {α : Type} (related : α × Registers → α × Registers → Prop) :
    Except Fault (α × Registers) → Except Fault (α × Registers) → Prop
  /-- Neither has an answer. -/
  | fault (fault : Fault) : Parallel related (.error fault) (.error fault)
  /-- Both have an answer. -/
  | answer {p p' : α × Registers} (h : related p p') : Parallel related (.ok p) (.ok p')

/-- Two computations have the same answer, which is good, and leave registers that agree. -/
structure SameAnswer {α : Type} (needs : Finset Nat) (good : α → Prop) (p p' : α × Registers) :
    Prop where
  /-- The answer is the same. -/
  answer_eq : p'.1 = p.1
  /-- It is good. -/
  good : good p.1
  /-- The registers agree. -/
  agree : Registers.AgreeOn needs p.2 p'.2

/-- A computation heeds no records but the given ones, and its answer is good. -/
def Heeds {α : Type} (needs : Finset Nat) (good : α → Prop) (x : Search α) : Prop :=
  ∀ r r' : Registers, r.AgreeOn needs r' → Parallel (SameAnswer needs good) (x r) (x r')

section

variable {α β : Type} {needs below : Finset Nat} {good : α → Prop} {good' : β → Prop}
  {r r' : Registers}

namespace Registers.AgreeOn

theorem mono (h : r.AgreeOn needs r') (hsub : below ⊆ needs) : r.AgreeOn below r' :=
  ⟨h.slots_eq, h.size_eq, fun loop hloop => h.loops_eq loop (hsub hloop)⟩

/-- The slots may be changed in the same way. -/
theorem setSlots (h : r.AgreeOn needs r') (slots : Slots) :
    AgreeOn needs { r with slots } { r' with slots } :=
  ⟨rfl, h.size_eq, h.loops_eq⟩

/-- One record may be changed, and the records that matter may be others afterwards. -/
theorem setLoop (h : r.AgreeOn needs r') {loop : Nat} {start start' : Option Nat}
    (hbelow : ∀ other ∈ below, other ≠ loop → other ∈ needs)
    (hstart : loop ∈ below → start' = start) :
    AgreeOn below { r with loops := r.loops.setIfInBounds loop start }
      { r' with loops := r'.loops.setIfInBounds loop start' } := by
  refine ⟨h.slots_eq, by simpa using h.size_eq, fun other hother => ?_⟩
  simp only [Array.getElem?_setIfInBounds, h.size_eq]
  by_cases heq : loop = other
  · subst heq
    rw [if_pos rfl, if_pos rfl, hstart hother]
  · rw [if_neg heq, if_neg heq]
    exact h.loops_eq other (hbelow other hother (Ne.symm heq))

end Registers.AgreeOn

/-- Related answers may be taken for more. -/
theorem Parallel.mono {related related' : α × Registers → α × Registers → Prop}
    {result result' : Except Fault (α × Registers)} (h : Parallel related result result')
    (himp : ∀ p p', related p p' → related' p p') : Parallel related' result result' := by
  cases h with
  | fault fault => exact .fault fault
  | answer h => exact .answer (himp _ _ h)

/-- Computations are compared one step after the other. -/
theorem Parallel.bind {related : α × Registers → α × Registers → Prop}
    {related' : β × Registers → β × Registers → Prop} {x x' : Search α} {f f' : α → Search β}
    (h : Parallel related (x r) (x' r'))
    (hrest : ∀ p p', related p p' → Parallel related' (f p.1 p.2) (f' p'.1 p'.2)) :
    Parallel related' ((x >>= f) r) ((x' >>= f') r') := by
  rw [Search.bind_run, Search.bind_run]
  generalize x r = result at h
  generalize x' r' = result' at h
  cases h with
  | fault fault => exact .fault fault
  | answer h => exact hrest _ _ h

/-- With the same answer and registers that agree the slots are the same. -/
theorem Parallel.map_slots_eq {result result' : Except Fault (α × Registers)}
    (h : Parallel (SameAnswer needs good) result result') :
    result'.map (fun (a, r) => (a, r.slots)) = result.map fun (a, r) => (a, r.slots) := by
  cases h with
  | fault fault => rfl
  | answer hsame =>
    refine congrArg Except.ok (Prod.ext hsame.answer_eq ?_)
    exact hsame.agree.slots_eq

namespace Heeds

theorem pure {a : α} (h : good a) : Heeds needs good (Pure.pure a) :=
  fun _ _ hagree => .answer ⟨rfl, h, hagree⟩

theorem fault (fault : Fault) : Heeds needs good (throw fault) :=
  fun _ _ _ => .fault fault

/-- What does not read the registers heeds nothing. -/
theorem lift (x : Except Fault α) : Heeds needs (fun _ => True) (liftM x : Search α) := by
  intro r r' hagree
  rw [Search.lift_run, Search.lift_run]
  cases x with
  | error e => exact .fault e
  | ok a => exact .answer ⟨rfl, trivial, hagree⟩

theorem bind {x : Search α} {f : α → Search β} (h : Heeds needs good x)
    (hrest : ∀ a, good a → Heeds needs good' (f a)) : Heeds needs good' (x >>= f) := by
  intro r r' hagree
  refine (h r r' hagree).bind fun p p' hsame => ?_
  rw [hsame.answer_eq]
  exact hrest p.1 hsame.good p.2 p'.2 hsame.agree

end Heeds

/-! ## Registers -/

/-- Slots are no records. -/
theorem heeds_slot (id : Nat) : Heeds needs (fun _ => True) (Search.slot id) := by
  intro r r' hagree
  unfold Search.slot
  rw [Search.bind_run_ok Search.get_run, Search.bind_run_ok Search.get_run, hagree.slots_eq]
  cases r.slots[id]? with
  | none => exact .fault _
  | some slot => exact .answer ⟨rfl, trivial, hagree⟩

theorem heeds_setSlot (id : Nat) (slot : Option Slot) :
    Heeds needs (fun _ => True) (Search.setSlot id slot) := by
  intro r r' hagree
  unfold Search.setSlot
  rw [Search.bind_run_ok Search.get_run, Search.bind_run_ok Search.get_run, hagree.slots_eq]
  split
  · exact .answer ⟨rfl, trivial, hagree.setSlots _⟩
  · exact .fault _

theorem heeds_restore (slots : Slots) : Heeds needs (fun _ => True) (Search.restore slots) :=
  fun _ _ hagree => .answer ⟨rfl, trivial, hagree.setSlots slots⟩

/-- A record is read in two searches.  What is read is the same if the record matters. -/
theorem parallel_iteration (hagree : r.AgreeOn needs r') (loop : Nat) :
    Parallel (fun p p' => (loop ∈ needs → p'.1 = p.1) ∧ p.2.AgreeOn needs p'.2)
      (Search.iteration loop r) (Search.iteration loop r') := by
  unfold Search.iteration
  rw [Search.bind_run_ok Search.get_run, Search.bind_run_ok Search.get_run]
  cases hget : r.loops[loop]? with
  | none =>
    have hget' : r'.loops[loop]? = none := by
      rw [Array.getElem?_eq_none_iff] at hget ⊢
      exact hagree.size_eq ▸ hget
    rw [hget']
    exact .fault _
  | some start =>
    obtain ⟨start', hget'⟩ : ∃ start', r'.loops[loop]? = some start' := by
      have hlt := (Array.getElem?_eq_some_iff.1 hget).1
      exact ⟨_, Array.getElem?_eq_getElem (hagree.size_eq.symm ▸ hlt)⟩
    rw [hget']
    refine .answer ⟨fun hloop => ?_, hagree⟩
    have heq := hagree.loops_eq loop hloop
    rw [hget, hget'] at heq
    exact Option.some.inj heq

/-- A record can be read if it matters. -/
theorem heeds_iteration {loop : Nat} (h : loop ∈ needs) :
    Heeds needs (fun _ => True) (Search.iteration loop) :=
  fun _ _ hagree => (parallel_iteration hagree loop).mono fun _ _ hread =>
    ⟨hread.1 h, trivial, hread.2⟩

/-- A record is written in two searches.  It matters from then on only if it is the same. -/
theorem parallel_setIteration (hagree : r.AgreeOn needs r') {loop : Nat} {start start' : Option Nat}
    (hbelow : ∀ other ∈ below, other ≠ loop → other ∈ needs)
    (hstart : loop ∈ below → start' = start) :
    Parallel (SameAnswer below fun _ => True) (Search.setIteration loop start r)
      (Search.setIteration loop start' r') := by
  unfold Search.setIteration
  rw [Search.bind_run_ok Search.get_run, Search.bind_run_ok Search.get_run, hagree.size_eq]
  split
  · exact .answer ⟨rfl, trivial, hagree.setLoop hbelow hstart⟩
  · exact .fault _

end

/-! ## Steps -/

/-- Running fragments heeds no records at all. -/
def Heedless (run : FragmentRunner) : Prop :=
  ∀ needs window id pos, Heeds needs (fun _ => True) (run window id pos)

namespace Trial

variable {c : Chart} {t : Trial} {run : FragmentRunner} {window : Window} {needs : Finset Nat}
  {s : State} {limit id pos next : Nat}

theorem heeds_state :
    Heeds needs (fun s => t.automaton.states[id]? = some s) (t.state id) := by
  unfold state
  split
  · rename_i s hstate
    exact .pure hstate
  · exact .fault _

theorem heeds_fragment :
    Heeds needs (fun f => t.automaton.fragments[id]? = some f) (t.fragment id) := by
  unfold fragment
  split
  · rename_i f hfragment
    exact .pure hfragment
  · exact .fault _

theorem heeds_nextChar : Heeds needs (fun _ => True) (t.nextChar limit pos) := by
  unfold nextChar
  split
  · exact .pure trivial
  · exact .bind (.lift _) fun _ _ => .pure trivial

theorem heeds_runDfa {dfa : Nat} : Heeds needs (fun _ => True) (t.runDfa dfa pos limit) := by
  unfold runDfa
  split
  · exact .lift _
  · exact .fault _

theorem heeds_literal {chars : List Char} :
    Heeds needs (fun _ => True) (t.literal limit chars pos) := by
  unfold literal
  dsimp only
  split
  · exact .fault _
  · split
    · exact .pure trivial
    · exact .bind (.lift _) fun _ _ => .pure trivial

theorem heeds_literalFolded {chars : List Char} :
    Heeds needs (fun _ => True) (t.literalFolded limit chars pos) := by
  induction chars generalizing pos with
  | nil => exact .pure trivial
  | cons expected chars ih =>
    unfold literalFolded
    refine .bind heeds_nextChar fun found _ => ?_
    cases found with
    | none => exact .pure trivial
    | some c =>
      dsimp only
      split
      · exact ih
      · exact .pure trivial

theorem heeds_reference {slot : Option Nat} {ignoreCase : Bool} :
    Heeds needs (fun _ => True) (t.reference limit slot ignoreCase pos) := by
  unfold reference
  cases slot with
  | none => exact .pure trivial
  | some id =>
    refine .bind (heeds_slot id) fun slot _ => ?_
    split
    · refine .bind (.lift _) fun chars _ => ?_
      split
      · exact heeds_literalFolded
      · exact heeds_literal
    · exact .pure trivial

/-- Putting back the slots heeds no records. -/
theorem heeds_undoing {α : Type} {good : α → Prop} {captures : Bool} {undo : α → Bool}
    {step : Search α} (h : Heeds needs good step) :
      Heeds needs good (undoing captures undo step) := by
  intro r r' hagree
  unfold undoing
  rw [Search.bind_run_ok Search.get_run, Search.bind_run_ok Search.get_run, hagree.slots_eq]
  refine Heeds.bind h (fun result hgood => ?_) r r' hagree
  split
  · exact .bind (heeds_restore r.slots) fun _ _ => .pure hgood
  · exact .pure hgood

theorem heeds_endsAt (hruns : Heedless run) {captures : Bool} (starts : List Nat) :
    Heeds needs (fun _ => True) (endsAt run captures id pos starts) := by
  induction starts with
  | nil => exact .pure trivial
  | cons start starts ih =>
    refine .bind (heeds_undoing (hruns needs _ id start)) fun found _ => ?_
    cases found with
    | none => exact ih
    | some stop => exact .pure trivial

theorem heeds_looksAround (hruns : Heedless run) {direction : Direction} {captures : Bool} :
    Heeds needs (fun _ => True) (t.looksAround run direction captures id pos) := by
  cases direction with
  | ahead => exact .bind (hruns needs _ id pos) fun _ _ => .pure trivial
  | behind => exact .bind (.lift _) fun _ _ => heeds_endsAt hruns _

theorem heeds_exhaust (hruns : Heedless run) {captures : Bool} {max : Option Nat}
    (count pos : Nat) :
    Heeds needs (fun _ => True) (t.exhaust run limit captures id max count pos) := by
  induction hn : t.text.size - pos using Nat.strongRecOn generalizing count pos with
  | _ n ih =>
    rw [exhaust]
    split
    · exact .pure trivial
    · refine .bind (heeds_undoing (hruns needs _ id pos)) fun found _ => ?_
      cases found with
      | none => exact .pure trivial
      | some stop =>
        dsimp only
        split
        · exact ih _ (by omega) (count + 1) stop rfl
        · exact .pure trivial

/-- A step leads to a state to which its state leads. -/
abbrev LandsIn (s : State) (landing : Option (Nat × Nat)) : Prop :=
  ∀ next stop, landing = some (next, stop) → next ∈ landings s

theorem landsIn_none : LandsIn s none := fun _ _ h => by cases h

theorem landsIn_some (hnext : next ∈ landings s) {stop : Nat} : LandsIn s (some (next, stop)) := by
  intro next' stop' heq
  cases heq
  exact hnext

/-- Where something is found a step leads on. -/
theorem heeds_landing (hnext : next ∈ landings s) {x : Search (Option Nat)}
    (h : Heeds needs (fun _ => True) x) :
    Heeds needs (LandsIn s) (do return (← x).map (next, ·)) := by
  refine .bind h fun found _ => .pure ?_
  cases found with
  | none => exact landsIn_none
  | some stop => exact landsIn_some hnext

theorem heeds_follow {transition : Transition} (htransition : s.transition = some transition) :
    Heeds needs (LandsIn s) (t.follow limit transition pos) := by
  have hnext : transition.target ∈ landings s := by simp [landings, htransition]
  unfold follow
  split
  · refine .bind heeds_nextChar fun found _ => ?_
    cases found with
    | none => exact .pure landsIn_none
    | some c =>
      refine .pure ?_
      split
      · exact landsIn_some hnext
      · exact landsIn_none
  · refine .bind (.lift _) fun _ _ => .pure ?_
    split
    · exact landsIn_some hnext
    · exact landsIn_none

/-- A step heeds no records, if running fragments does not. -/
theorem heeds_step (hruns : Heedless run) : Heeds needs (LandsIn s) (t.step run limit s pos) := by
  unfold step
  cases haction : s.action with
  | none =>
    dsimp only
    cases htransition : s.transition with
    | none => exact .pure landsIn_none
    | some transition => exact heeds_follow htransition
  | text chars next =>
    have hnext : next ∈ landings s := by simp [landings, haction, Action.targets]
    exact heeds_landing hnext heeds_literal
  | capture slot body close dfa =>
    have hbody : body ∈ landings s := by simp [landings, haction, Action.targets]
    have hclose : close ∈ landings s := by simp [landings, haction, Action.targets]
    refine .bind (heeds_setSlot slot _) fun _ _ => ?_
    cases dfa with
    | none => exact .pure (landsIn_some hbody)
    | some dfa => exact heeds_landing hclose heeds_runDfa
  | captureClose slot next =>
    have hnext : next ∈ landings s := by simp [landings, haction, Action.targets]
    exact .bind (heeds_slot slot) fun opened _ => .bind (heeds_setSlot slot _) fun _ _ =>
      .pure (landsIn_some hnext)
  | reference group slot ignoreCase next =>
    have hnext : next ∈ landings s := by simp [landings, haction, Action.targets]
    exact heeds_landing hnext heeds_reference
  | lookAround direction negated id next =>
    have hnext : next ∈ landings s := by simp [landings, haction, Action.targets]
    refine .bind heeds_fragment fun fragment _ => ?_
    refine .bind (heeds_undoing (heeds_looksAround hruns)) fun found _ => .pure ?_
    split
    · exact landsIn_some hnext
    · exact landsIn_none
  | atomic id next =>
    have hnext : next ∈ landings s := by simp [landings, haction, Action.targets]
    exact heeds_landing hnext (hruns needs _ id pos)
  | possessive id min max next =>
    have hnext : next ∈ landings s := by simp [landings, haction, Action.targets]
    refine .bind heeds_fragment fun fragment _ => ?_
    refine .bind (heeds_exhaust hruns 0 pos) fun result _ => .pure ?_
    split
    · exact landsIn_some hnext
    · exact landsIn_none
  | dfa dfa next =>
    have hnext : next ∈ landings s := by simp [landings, haction, Action.targets]
    exact heeds_landing hnext heeds_runDfa

/-! ## Going on -/

/-- The records suffice for a frame: it heeds no others. -/
def Suffices (c : Chart) (needs : Finset Nat) : Frame → Prop
  | .visit _ id _ => c.around id ⊆ needs
  | .step _ id _ => c.around id ⊆ needs
  | .enter _ loop id _ => c.around id ⊆ insert loop needs
  | .accept _ => True
  | .restoreSlots _ => True
  | .restoreLoop _ _ => False

/-- The records suffice for what is to be done. -/
def SufficesAll (c : Chart) (needs : Finset Nat) (outcome : Outcome) : Prop :=
  ∀ frames, outcome = .more frames → ∀ frame ∈ frames, Suffices c needs frame

theorem sufficesAll_nil : SufficesAll c needs (.more []) := by
  intro frames heq frame hframe
  cases heq
  cases hframe

theorem sufficesAll_found : SufficesAll c needs (.found pos) := fun _ h => by cases h

/-- A step leads to states inside the same loops. -/
theorem around_landing {e : Extent} (hplaces : c.Places e id s) (hnext : next ∈ landings s) :
    c.around next = c.around id :=
  (leads_of_landing hplaces next hnext).2.around_eq

/-- The records suffice for all ways out of a state if they suffice for the state. -/
theorem suffices_frame {e : Extent} (hplaces : c.Places e id s) (hid : c.around id ⊆ needs)
    {mayEnd : Bool} {way : Way} (hway : way ∈ s.ways mayEnd) (budget : Nat) :
    Suffices c needs (way.frame budget id pos) := by
  cases way with
  | step => exact hid
  | accept => trivial
  | epsilon next loop =>
    obtain ⟨hnext, hloop⟩ := mem_epsilons_of_mem_ways hway
    cases hplaces with
    | ordinary hhead _ _ hleads =>
      obtain rfl : loop = none := by simp [hloop, hhead]
      have hbeside := (hleads next (by simp [State.targets, hnext])).2.around_eq
      exact show c.around next ⊆ needs from hbeside ▸ hid
    | @head first exit loop' lazy hs hfirst hexit hlt hhead hexits hzone hrank hnew haround =>
      subst hs
      by_cases heq : next = first
      · obtain rfl : loop = some loop' := by simp [hloop, heq]
        subst heq
        show c.around next ⊆ insert loop' needs
        rw [haround]
        exact Finset.insert_subset_insert loop' hid
      · obtain rfl : next = exit := by simpa [heq] using hnext
        obtain rfl : loop = none := by simp [hloop, Ne.symm heq]
        exact show c.around next ⊆ needs from hexits.around_eq ▸ hid
    | @back loop' hs _ _ _ _ haround =>
      subst hs
      obtain rfl : next = c.head loop' := by simpa using hnext
      obtain rfl : loop = none := by simp [hloop]
      rw [haround] at hid
      exact (Finset.subset_insert loop' _).trans hid

/-- Whether an iteration is idle depends on the record of a loop around the state. -/
theorem heeds_isIdle {e : Extent} (hplaces : c.Places e id s) (hid : c.around id ⊆ needs) :
    Heeds needs (fun _ => True) (isIdle s pos) := by
  unfold isIdle
  cases hplaces with
  | ordinary _ hback =>
    rw [hback]
    exact .pure trivial
  | head hs =>
    subst hs
    exact .pure trivial
  | @back loop hs _ _ _ _ haround =>
    subst hs
    have hloop : loop ∈ needs := hid (haround ▸ Finset.mem_insert_self loop _)
    exact .bind (heeds_iteration hloop) fun _ _ => .pure trivial

theorem heeds_choice {budget : Nat} {ways : List Way}
    (hways : ∀ way ∈ ways, Suffices c needs (way.frame budget id pos)) :
    Heeds needs (SufficesAll c needs) (t.choice budget id pos ways) := by
  intro r r' hagree
  unfold choice
  rw [Search.bind_run_ok Search.get_run, Search.bind_run_ok Search.get_run, hagree.slots_eq]
  refine .answer ⟨rfl, fun frames heq frame hframe => ?_, hagree⟩
  cases heq
  rcases mem_choiceFrames hframe with hundo | hframe
  · split at hundo
    · rw [List.mem_singleton.1 hundo]
      trivial
    · cases hundo
  · obtain ⟨way, hway, rfl⟩ := List.mem_map.1 hframe
    exact hways way hway

/-- Going on from a state heeds the records of the loops around it only, and so does what is
left to do. -/
theorem heeds_chase (hc : t.automaton.HasChart c) (hruns : Heedless run) (budget : Nat)
    (hid : c.around id ⊆ needs) :
    Heeds needs (SufficesAll c needs) (t.chase run window budget id pos) := by
  induction budget generalizing id pos with
  | zero => exact .fault _
  | succ budget ih =>
    rw [chase]
    refine .bind heeds_state fun s hstate => ?_
    have hplaces := hc.holds.states id s hstate
    refine .bind (heeds_isIdle hplaces hid) fun idle _ => ?_
    cases idle with
    | true => exact .pure sufficesAll_nil
    | false =>
      have hways : ∀ way ∈ s.ways (window.mayEnd pos), Suffices c needs (way.frame budget id pos) :=
        fun way hway => suffices_frame hplaces hid hway budget
      rw [if_neg Bool.false_ne_true]
      have hchoice := @heeds_choice c t needs id pos budget _ hways
      cases hlist : s.ways (window.mayEnd pos) with
      | nil =>
        rw [hlist] at hchoice
        exact hchoice
      | cons way others =>
        cases others with
        | cons other others =>
          rw [hlist] at hchoice
          exact hchoice
        | nil =>
          have hway := hways way (by simp [hlist])
          cases way with
          | step =>
            refine .bind (heeds_step hruns) fun landing hlands => ?_
            cases landing with
            | none => exact .pure sufficesAll_nil
            | some landing =>
              have haround := around_landing hplaces (hlands landing.1 landing.2 rfl)
              exact ih (haround ▸ hid)
          | accept => exact .pure sufficesAll_found
          | epsilon next loop =>
            cases loop with
            | none => exact ih hway
            | some loop =>
              -- The head of a loop has two ways.
              have hshort := not_enter_of_single hlist
              have hmem : .epsilon next (some loop) ∈ s.ways (window.mayEnd pos) := by simp [hlist]
              obtain ⟨-, hloop⟩ := mem_epsilons_of_mem_ways hmem
              cases hplaces with
              | ordinary hhead => simp [hhead] at hloop
              | head hs => simp [hs] at hshort
              | back hs => simp [hs] at hloop

/-! ## Stacks -/

/-- Two stacks of pending work differ only in what they put back.  The first records suffice
for the top of the stacks, and those of `base` agree when all has been worked off. -/
inductive Twins (c : Chart) (base : Finset Nat) : Finset Nat → List Frame → List Frame → Prop
  /-- Nothing is pending. -/
  | nil {needs : Finset Nat} (hbase : base ⊆ needs) : Twins c base needs [] []
  /-- The same work is pending. -/
  | frame {needs : Finset Nat} {frame : Frame} {stack stack' : List Frame}
      (hframe : Suffices c needs frame) (hrest : Twins c base needs stack stack') :
      Twins c base needs (frame :: stack) (frame :: stack')
  /-- A record is put back, to the same if it matters below. -/
  | restore {needs below : Finset Nat} {loop : Nat} {start start' : Option Nat}
      {stack stack' : List Frame} (hbelow : below ⊆ needs) (hstart : loop ∈ below → start' = start)
      (hrest : Twins c base below stack stack') :
      Twins c base needs (.restoreLoop loop start :: stack) (.restoreLoop loop start' :: stack')

section Stacks

variable {base : Finset Nat} {frame : Frame} {stack stack' : List Frame} {r r' : Registers}

theorem Twins.base_subset (h : Twins c base needs stack stack') : base ⊆ needs := by
  induction h with
  | nil hbase => exact hbase
  | frame _ _ ih => exact ih
  | restore hbelow _ _ ih => exact ih.trans hbelow

/-- The same work may be put on both stacks. -/
theorem Twins.append (h : Twins c base needs stack stack') {frames : List Frame}
    (hframes : ∀ frame ∈ frames, Suffices c needs frame) :
    Twins c base needs (frames ++ stack) (frames ++ stack') := by
  induction frames with
  | nil => exact h
  | cons frame frames ih =>
    exact .frame (hframes frame (by simp)) (ih fun frame hframe => hframes frame (by simp [hframe]))

theorem Twins.exists_cons (h : Twins c base needs (frame :: stack) stack') :
    ∃ frame' rest, stack' = frame' :: rest := by
  cases h with
  | frame => exact ⟨_, _, rfl⟩
  | restore => exact ⟨_, _, rfl⟩

/-- What comes of a piece of work on both stacks: the same match, or stacks that still differ
only in what they put back. -/
inductive Continue (c : Chart) (base : Finset Nat) (stack stack' : List Frame) :
    Outcome × Registers → Outcome × Registers → Prop
  /-- A match has been found. -/
  | found {stop : Nat} {r r' : Registers} (hagree : r.AgreeOn base r') :
      Continue c base stack stack' (.found stop, r) (.found stop, r')
  /-- There is more to do. -/
  | more {needs : Finset Nat} {frames frames' : List Frame} {r r' : Registers}
      (htwins : Twins c base needs (frames ++ stack) (frames' ++ stack'))
      (hagree : r.AgreeOn needs r') :
      Continue c base stack stack' (.more frames, r) (.more frames', r')

theorem Twins.continue_same (h : Twins c base needs stack stack') {p p' : Outcome × Registers}
    (hsame : SameAnswer needs (SufficesAll c needs) p p') : Continue c base stack stack' p p' := by
  obtain ⟨outcome, r⟩ := p
  obtain ⟨outcome', r'⟩ := p'
  obtain ⟨rfl, hsuffices, hagree⟩ := hsame
  cases outcome' with
  | found stop => exact .found (hagree.mono h.base_subset)
  | more frames => exact .more (h.append (hsuffices frames rfl)) hagree

/-- Beginning an iteration makes its record matter, until it is put back. -/
theorem continue_enter {budget loop : Nat} (hid : c.around id ⊆ insert loop needs)
    (hrest : Twins c base needs stack stack') (hagree : r.AgreeOn needs r') :
    Parallel (Continue c base stack stack') (t.handle run window (.enter budget loop id pos) r)
      (t.handle run window (.enter budget loop id pos) r') := by
  refine (parallel_iteration hagree loop).bind fun p p' hread => ?_
  have hset : Parallel (SameAnswer (insert loop needs) fun _ => True)
      (Search.setIteration loop (some pos) p.2) (Search.setIteration loop (some pos) p'.2) :=
    parallel_setIteration hread.2
      (fun other hother hne => (Finset.mem_insert.1 hother).resolve_left hne) fun _ => rfl
  refine hset.bind fun q q' hsame => .answer (.more ?_ hsame.agree)
  exact .frame hid (.restore (Finset.subset_insert loop needs) hread.1 hrest)

/-- Handling the tops of the stacks keeps them alike. -/
theorem continue_handle (hc : t.automaton.HasChart c) (hruns : Heedless run) {frame' : Frame}
    (htwins : Twins c base needs (frame :: stack) (frame' :: stack'))
    (hagree : r.AgreeOn needs r') :
    Parallel (Continue c base stack stack') (t.handle run window frame r)
      (t.handle run window frame' r') := by
  cases htwins with
  | frame hframe hrest =>
    cases frame with
    | visit budget id pos =>
      exact (heeds_chase hc hruns budget hframe r r' hagree).mono fun _ _ => hrest.continue_same
    | step budget id pos =>
      have hheeds : Heeds needs (SufficesAll c needs)
          (t.handle run window (.step budget id pos)) := by
        refine .bind heeds_state fun s hstate => .bind (heeds_step hruns) fun landing hlands => ?_
        cases landing with
        | none => exact .pure sufficesAll_nil
        | some landing =>
          have haround := around_landing (hc.holds.states id s hstate)
            (hlands landing.1 landing.2 rfl)
          refine .pure fun frames heq frame hmem => ?_
          cases heq
          rw [List.mem_singleton.1 hmem]
          exact show c.around landing.1 ⊆ needs from haround ▸ hframe
      exact (hheeds r r' hagree).mono fun _ _ => hrest.continue_same
    | enter budget loop id pos => exact continue_enter hframe hrest hagree
    | accept pos => exact .answer (.found (hagree.mono hrest.base_subset))
    | restoreSlots slots => exact .answer (.more hrest (hagree.setSlots slots))
    | restoreLoop loop start => exact hframe.elim
  | restore hbelow hstart hrest =>
    have hset := parallel_setIteration hagree (fun other hother _ => hbelow hother) hstart
    exact hset.bind fun p p' hsame => .answer (.more hrest hsame.agree)

/-- The other stack has a top too, and after that has been handled the stacks are alike again. -/
theorem exists_continue (hc : t.automaton.HasChart c) (hruns : Heedless run)
    (htwins : Twins c base needs (frame :: stack) stack') (hagree : r.AgreeOn needs r') :
    ∃ rest' result', t.walk run window stack' r' = t.resume run window rest' result' ∧
      Parallel (Continue c base stack rest') (t.handle run window frame r) result' := by
  obtain ⟨frame', rest', rfl⟩ := htwins.exists_cons
  exact ⟨rest', _, t.walk_cons frame' rest' r', continue_handle hc hruns htwins hagree⟩

/-- Pending work that differs only in what it puts back comes to the same. -/
theorem alike_walk (hc : t.automaton.HasChart c) (hruns : Heedless run)
    (htwins : Twins c base needs stack stack') (hagree : r.AgreeOn needs r') :
    Parallel (SameAnswer base fun _ => True) (t.walk run window stack r)
      (t.walk run window stack' r') := by
  induction stack, r using walk.induct t run window generalizing needs stack' r' with
  | case1 r =>
    cases htwins with
    | nil hbase =>
      rw [walk, walk]
      exact .answer ⟨rfl, trivial, hagree.mono hbase⟩
  | case2 r frame stack fault hhandle =>
    obtain ⟨rest', result', hwalk, hframe⟩ := exists_continue hc hruns htwins hagree
    rw [walk_cons, hwalk]
    rw [hhandle] at hframe ⊢
    cases hframe
    exact .fault fault
  | case3 r frame stack stop r₁ hhandle =>
    obtain ⟨rest', result', hwalk, hframe⟩ := exists_continue hc hruns htwins hagree
    rw [walk_cons, hwalk]
    rw [hhandle] at hframe ⊢
    cases hframe with
    | answer hcontinue =>
      cases hcontinue with
      | found hagree' => exact .answer ⟨rfl, trivial, hagree'⟩
  | case4 r frame stack frames r₁ hhandle ih =>
    obtain ⟨rest', result', hwalk, hframe⟩ := exists_continue hc hruns htwins hagree
    rw [walk_cons, hwalk]
    rw [hhandle] at hframe ⊢
    cases hframe with
    | answer hcontinue =>
      cases hcontinue with
      | more htwins' hagree' => exact ih htwins' hagree'

end Stacks

/-! ## Runs -/

/-- A search heeds the records of the loops around its first state only. -/
theorem heeds_search (hc : t.automaton.HasChart c) (hruns : Heedless run)
    (hid : c.around id ⊆ needs) :
    Heeds needs (fun _ => True) (t.search run window id pos) :=
  fun _ _ hagree => alike_walk hc hruns (.frame hid (.nil (Finset.Subset.refl needs))) hagree

/-- Running fragments heeds no records, since no loop is around a fragment. -/
theorem heedless_runFragment (hc : t.automaton.HasChart c) (depth : Nat) :
    Heedless (t.runFragment depth) := by
  induction depth with
  | zero => exact fun _ _ _ _ => .fault _
  | succ depth ih =>
    intro needs window id pos
    unfold runFragment
    refine .bind heeds_fragment fun fragment hfragment => ?_
    cases fragment.dfa with
    | none =>
      have haround := (hc.holds.fragments id fragment hfragment).around_eq
      exact heeds_search hc ih (haround ▸ Finset.empty_subset needs)
    | some dfa => exact .bind heeds_runDfa fun _ _ => .pure trivial

end Trial

end RegexEngine
