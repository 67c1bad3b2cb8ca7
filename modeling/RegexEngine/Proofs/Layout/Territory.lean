import RegexEngine.Proofs.Layout.Basic

/-!
# A layout is left only for its exit

What lies between two states is a territory: without an action it is left only for
its exit, no match ends in it, and its loops are those of the layout.

* `Automaton.Territory` is closed under union, and a single state is one.
* `Pattern.bordered_layout` is the induction over a pattern.
-/

namespace RegexEngine

namespace Automaton.Territory

variable {a : Automaton} {inside inside' goals goals' : Nat → Prop} {lo lo' : Nat}

/-- No state at all. -/
protected theorem empty (a : Automaton) (goals : Nat → Prop) (lo : Nat) :
    a.Territory (fun _ => False) goals lo :=
  ⟨fun _ h => h.elim, fun _ _ h => h.elim, fun _ _ h => h.elim, fun _ _ _ h => h.elim,
    fun _ _ _ h => h.elim⟩

/-- A single state. -/
theorem single {start : Nat} {s : State} (hstate : a.states[start]? = some s)
    (hclosed : s.action.isPlain → ∀ target,
      (∃ guard, s.transition = some ⟨guard, target⟩) ∨ target ∈ s.epsilons → goals target)
    (haccepting : s.accepting = false) (hhead : ∀ loop, s.loopHead = some loop → lo ≤ loop)
    (hback : ∀ loop, s.loopBack = some loop → lo ≤ loop) :
    a.Territory (· = start) goals lo := by
  have hsame {id : Nat} {s' : State} (hid : id = start) (hs' : a.states[id]? = some s') :
      s' = s := by
    subst hid
    exact Option.some.inj (hs'.symm.trans hstate)
  refine ⟨fun id hid => ⟨s, hid ▸ hstate⟩, ?_, ?_, ?_, ?_⟩
  · intro id s' hid hs' hplain target htarget
    obtain rfl := hsame hid hs'
    exact .inr (hclosed hplain target htarget)
  · intro id s' hid hs'
    rw [hsame hid hs']
    exact haccepting
  · intro id s' loop hid hs' hloop
    rw [hsame hid hs'] at hloop
    exact hhead loop hloop
  · intro id s' loop hid hs' hloop
    rw [hsame hid hs'] at hloop
    exact hback loop hloop

/-- Two territories are one if each goal of theirs is inside or a goal. -/
theorem union (h : a.Territory inside goals lo) (h' : a.Territory inside' goals' lo')
    {goals'' : Nat → Prop} {lo'' : Nat}
    (hgoals : ∀ id, goals id ∨ goals' id → (inside id ∨ inside' id) ∨ goals'' id)
    (hlo : lo'' ≤ lo) (hlo' : lo'' ≤ lo') :
    a.Territory (fun id => inside id ∨ inside' id) goals'' lo'' := by
  refine ⟨?_, ?_, ?_, ?_, ?_⟩
  · rintro id (hid | hid)
    · exact h.exists_state id hid
    · exact h'.exists_state id hid
  · rintro id s (hid | hid) hs hplain target htarget
    · rcases h.closed id s hid hs hplain target htarget with hin | hgoal
      · exact .inl (.inl hin)
      · exact hgoals target (.inl hgoal)
    · rcases h'.closed id s hid hs hplain target htarget with hin | hgoal
      · exact .inl (.inr hin)
      · exact hgoals target (.inr hgoal)
  · rintro id s (hid | hid) hs
    · exact h.accepting id s hid hs
    · exact h'.accepting id s hid hs
  · rintro id s loop (hid | hid) hs hloop
    · exact Nat.le_trans hlo (h.loopHead id s loop hid hs hloop)
    · exact Nat.le_trans hlo' (h'.loopHead id s loop hid hs hloop)
  · rintro id s loop (hid | hid) hs hloop
    · exact Nat.le_trans hlo (h.loopBack id s loop hid hs hloop)
    · exact Nat.le_trans hlo' (h'.loopBack id s loop hid hs hloop)

end Automaton.Territory

namespace Layout

/-- What lies between two states is a territory. -/
def Between (site : Site) (lo start exit : Nat) : Prop :=
  ∃ inside, site.automaton.Territory inside (· = exit) lo ∧ (inside start ∨ start = exit)

/-- Layouts are left only for their exit. -/
def Bordered (layout : Layout) : Prop :=
  ∀ site rank lo hi start exit, layout site rank lo hi start exit → Between site lo start exit

/-- Alternatives are left only for their exit. -/
def Branches.Bordered (branches : Branches) : Prop :=
  ∀ site starts rank lo hi exit, branches site starts rank lo hi exit →
    ∃ inside, site.automaton.Territory inside (· = exit) lo ∧
      ∀ start ∈ starts, inside start ∨ start = exit

variable {site : Site} {lo mid start next exit : Nat}

theorem between_self (site : Site) (lo exit : Nat) : Between site lo exit exit :=
  ⟨_, .empty _ _ _, .inr rfl⟩

/-- A state that leads to the exit or does not lead on by itself. -/
theorem between_of_state {s : Automaton.State} (hstate : site.automaton.states[start]? = some s)
    (hclosed : s.action.isPlain → ∀ target,
      (∃ guard, s.transition = some ⟨guard, target⟩) ∨ target ∈ s.epsilons → target = exit)
    (haccepting : s.accepting = false) (hhead : s.loopHead = none) (hback : s.loopBack = none) :
    Between site lo start exit :=
  ⟨_, .single hstate hclosed haccepting (fun loop h => by simp [hhead] at h)
    (fun loop h => by simp [hback] at h), .inl rfl⟩

/-- A state that does not lead on by itself. -/
theorem between_of_action {action : Action}
    (hstate : site.automaton.states[start]? = some { action }) (haction : action.isPlain = false) :
    Between site lo start exit :=
  between_of_state hstate (fun h => by simp [haction] at h) rfl rfl rfl

theorem Between.trans (h : Between site lo start next) (h' : Between site mid next exit)
    (hle : lo ≤ mid) : Between site lo start exit := by
  obtain ⟨inside, ht, hstart⟩ := h
  obtain ⟨inside', ht', hnext⟩ := h'
  refine ⟨_, ht.union ht' ?_ (Nat.le_refl _) hle, ?_⟩
  · rintro id (rfl | rfl)
    · exact hnext.imp_left .inr
    · exact .inr rfl
  · rcases hstart with hstart | rfl
    · exact .inl (.inl hstart)
    · exact hnext.imp_left .inr

theorem bordered_skip : Bordered skip := by
  rintro site rank lo hi start exit ⟨-, ⟨rfl, -⟩ | ⟨hstate, -⟩⟩
  · exact between_self _ _ _
  · exact between_of_state hstate (fun _ target h => by simpa using h) rfl rfl rfl

theorem Bordered.seq {first second : Layout} (h : Bordered first) (h' : Bordered second) :
    Bordered (seq first second) := by
  rintro site rank lo hi start exit ⟨rank₁, rank₂, mid, next, -, hlo, hfirst, hsecond⟩
  exact (h _ _ _ _ _ _ hfirst).trans (h' _ _ _ _ _ _ hsecond) hlo

theorem bordered_step (guard : Guard) : Bordered (step guard) := by
  rintro site rank lo hi start exit ⟨-, -, hstate⟩
  exact between_of_state hstate (fun _ target h => by simpa [eq_comm] using h) rfl rfl rfl

theorem bordered_links (sets : List CharSet) : Bordered (links sets) := by
  induction sets with
  | nil =>
    rintro site rank lo hi start exit ⟨-, -, rfl⟩
    exact between_self _ _ _
  | cons set sets ih => exact (bordered_step _).seq ih

/-- A chain of characters leads from its first state to its last. -/
theorem between_of_chain {chars : List Char} (h : site.automaton.Chain chars start exit) :
    Between site lo start exit := by
  induction chars generalizing start with
  | nil =>
    obtain rfl : start = exit := h
    exact between_self _ _ _
  | cons c chars ih =>
    obtain ⟨mid, hstate, hrest⟩ := h
    exact .trans (between_of_state hstate (fun _ target h => by simpa [eq_comm] using h) rfl
      rfl rfl) (ih hrest) (Nat.le_refl _)

theorem bordered_text (ignoreCase : Bool) (chars : List Char) :
    Bordered (text ignoreCase chars) := by
  intro site rank lo hi start exit h
  unfold text at h
  split at h
  · exact bordered_skip _ _ _ _ _ _ h
  split at h
  · exact bordered_links _ _ _ _ _ _ _ h
  · obtain ⟨-, -, s, hstate, c, rest, mid, -, hchain, rfl⟩ := h
    exact .trans (between_of_state hstate (fun _ target h => by simpa [eq_comm] using h) rfl
      rfl rfl) (between_of_chain hchain) (Nat.le_refl _)

theorem bordered_capture (key : GroupKey) (body : Layout) : Bordered (capture key body) := by
  rintro site rank lo hi start exit ⟨inner, slot, first, close, -, -, -, hstate, -, -⟩
  exact between_of_action hstate rfl

theorem bordered_reference (ignoreCase : Bool) (key : GroupKey) :
    Bordered (reference ignoreCase key) := by
  rintro site rank lo hi start exit ⟨-, -, hstate⟩
  exact between_of_action hstate rfl

theorem bordered_around (body : Layout) {action : Nat → Nat → Action}
    (haction : ∀ id next, (action id next).isPlain = false) : Bordered (around body action) := by
  rintro site rank lo hi start exit ⟨id, f, -, hstate, -⟩
  exact between_of_action hstate (haction _ _)

theorem Bordered.copies {body : Layout} (h : Bordered body) (n : Nat) :
    Bordered (copies body n) := by
  induction n with
  | zero => exact bordered_skip
  | succ n ih => exact h.seq ih

/-- A state that chooses between the exit and what leads to the exit. -/
theorem Between.choose {first : Nat} {lazy : Bool} (h : Between site lo first exit)
    (hstate : site.automaton.states[start]? = some { epsilons := [first, exit], lazy }) :
    Between site lo start exit := by
  obtain ⟨inside, ht, hfirst⟩ := h
  have hsingle : site.automaton.Territory (· = start) (fun id => id = first ∨ id = exit) lo :=
    .single hstate (fun _ target h => by simpa using h) rfl (fun _ h => by cases h)
      (fun _ h => by cases h)
  refine ⟨_, hsingle.union ht ?_ (Nat.le_refl _) (Nat.le_refl _), .inl (.inl rfl)⟩
  rintro id ((rfl | rfl) | rfl)
  · exact hfirst.imp_left .inr
  · exact .inr rfl
  · exact .inr rfl

theorem Bordered.optionalCopies {body : Layout} (h : Bordered body) (lazy : Bool) (n : Nat) :
    Bordered (optionalCopies body lazy n) := by
  induction n with
  | zero => exact bordered_skip
  | succ n ih =>
    rintro site rank lo hi start exit ⟨rank', first, -, -, hstate, hseq⟩
    exact (h.seq ih _ _ _ _ _ _ hseq).choose hstate

theorem Bordered.loop {body : Layout} (h : Bordered body) (lazy : Bool) :
    Bordered (loop body lazy) := by
  rintro site rank lo hi start exit ⟨inner, first, back, -, -, -, -, -, -, hstate, hbody, hback⟩
  obtain ⟨inside, ht, hfirst⟩ := h _ _ _ _ _ _ hbody
  have hhead : site.automaton.Territory (· = start) (fun id => id = first ∨ id = exit) lo :=
    .single hstate (fun _ target h => by simpa using h) rfl
      (fun _ h => by cases h; exact Nat.le_refl _)
      (fun _ h => by cases h)
  have hend : site.automaton.Territory (· = back) (· = start) lo :=
    .single hback (fun _ target h => by simpa using h) rfl (fun _ h => by cases h)
      (fun _ h => by cases h; exact Nat.le_refl _)
  have hends : site.automaton.Territory (fun id => inside id ∨ id = back) (· = start) lo :=
    ht.union hend (by rintro id (rfl | rfl) <;> simp) (Nat.le_succ _) (Nat.le_refl _)
  refine ⟨_, hhead.union hends ?_ (Nat.le_refl _) (Nat.le_refl _), .inl (.inl rfl)⟩
  rintro id ((rfl | rfl) | rfl)
  · rcases hfirst with hfirst | rfl
    · exact .inl (.inr (.inl hfirst))
    · exact .inl (.inr (.inr rfl))
  · exact .inr rfl
  · exact .inl (.inl rfl)

theorem Bordered.repeated {body : Layout} (h : Bordered body) (min : Nat) (max : Option Nat)
    (lazy : Bool) : Bordered (repeated body min max lazy) := by
  cases max with
  | none => exact (h.copies min).seq (h.loop lazy)
  | some max => exact (h.copies min).seq (h.optionalCopies lazy _)

theorem Branches.bordered_nil : Branches.Bordered .nil := by
  rintro site starts rank lo hi exit ⟨rfl, -, -⟩
  exact ⟨_, .empty _ _ _, fun _ h => by cases h⟩

theorem Branches.Bordered.cons {branch : Layout} {branches : Branches} (h : branch.Bordered)
    (h' : branches.Bordered) : Branches.Bordered (.cons branch branches) := by
  rintro site starts rank lo hi exit
    ⟨rank₁, rank₂, mid, first, others, rfl, -, -, hlo, hbranch, hbranches⟩
  obtain ⟨inside, ht, hfirst⟩ := h _ _ _ _ _ _ hbranch
  obtain ⟨inside', ht', hothers⟩ := h' _ _ _ _ _ _ hbranches
  refine ⟨_, ht.union ht' ?_ (Nat.le_refl _) hlo, ?_⟩
  · rintro id (rfl | rfl) <;> exact .inr rfl
  · intro start hstart
    rcases List.mem_cons.1 hstart with rfl | hstart
    · exact hfirst.imp_left .inl
    · exact (hothers start hstart).imp_left .inr

theorem Branches.Bordered.alt {branches : Branches} (h : branches.Bordered) :
    Layout.Bordered (.alt branches) := by
  rintro site rank lo hi start exit ⟨rank', starts, -, hstate, hbranches⟩
  obtain ⟨inside, ht, hstarts⟩ := h _ _ _ _ _ _ hbranches
  have hhead : site.automaton.Territory (· = start) (· ∈ starts) lo :=
    .single hstate (fun _ target h => by simpa using h) rfl (fun _ h => by cases h)
      (fun _ h => by cases h)
  refine ⟨_, hhead.union ht ?_ (Nat.le_refl _) (Nat.le_refl _), .inl (.inl rfl)⟩
  rintro id (hid | rfl)
  · exact (hstarts id hid).imp_left .inr
  · exact .inr rfl

end Layout

namespace Pattern

open Layout

mutual

/-- The layout of a pattern is left only for its exit. -/
theorem bordered_layout (o : Options) (base : Nat) : (p : Pattern) → Bordered (layout o base p)
  | text cs => bordered_text _ cs
  | concat parts => bordered_layoutAll o base parts
  | alt branches => (bordered_layoutAny o base branches).alt
  | repeated body min max mode => by
    unfold layout
    split
    · exact bordered_around _ fun _ _ => rfl
    · exact (bordered_layout o base body).repeated min max _
  | oneOf set => bordered_step _
  | assert assertion => bordered_step _
  | withFlags flags body => bordered_layout (o.overlay flags) base body
  | lookAround direction negated body => bordered_around _ fun _ _ => rfl
  | atomic body => bordered_around _ fun _ _ => rfl
  | capture (some name) body => bordered_capture _ _
  | capture none body => bordered_capture _ _
  | reference group => bordered_reference _ group

theorem bordered_layoutAll (o : Options) (base : Nat) :
    (parts : List Pattern) → Bordered (layoutAll o base parts)
  | [] => bordered_skip
  | part :: parts =>
    (bordered_layout o base part).seq (bordered_layoutAll o (base + numbered part) parts)

theorem bordered_layoutAny (o : Options) (base : Nat) :
    (branches : List Pattern) → (layoutAny o base branches).Bordered
  | [] => Branches.bordered_nil
  | branch :: branches =>
    .cons (bordered_layout o base branch) (bordered_layoutAny o (base + numbered branch) branches)

end

end Pattern

end RegexEngine
