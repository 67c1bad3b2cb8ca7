import RegexEngine.Proofs.Layout.Repetition

/-!
# What becomes of the states of a draft

A compilation makes states and lets them lead on.  A state that leads on by a transition,
begins a loop or ends an iteration is left alone from then on, but for the first state of a
text, which also gets an action.

* `State.Simple` says what a state may be made to do at once, and `Fills` that nothing else
  has been done.
* `Draft.Evolves` puts together what a compilation can do.  A loop is made around what
  becomes of the draft while its body is compiled.
* `Draft.Evolves.shaped` says what each state can look like, and `Draft.Evolves.hasLoop`
  that each new loop has a first state and a state that ends its iterations.
-/

namespace RegexEngine.Automaton

/-! ## States -/

/-- A state that has one way of moving and nothing to do with loops. -/
inductive State.Simple : State → Prop
  /-- It leads nowhere. -/
  | ends (accepting : Bool) : Simple { accepting }
  /-- It leads on by its transition. -/
  | moves (transition : Transition) : Simple { transition := some transition }
  /-- It leads on as its action says. -/
  | acts {action : Action} (h : action.isPlain = false) : Simple { action }
  /-- It leads on by its epsilons. -/
  | forks (epsilons : List Nat) : Simple { epsilons }
  /-- It prefers one of two epsilons. -/
  | chooses (first last : Nat) (lazy : Bool) : Simple { epsilons := [first, last], lazy }

/-- From a state on the transitions consume the given characters and lead to another state. -/
def Spells (states : Array State) : List Char → Nat → Nat → Prop
  | [], start, stop => start = stop
  | c :: chars, start, stop => ∃ s mid, states[start]? = some s ∧
      s.transition = some ⟨.oneOf (.ofChar c), mid⟩ ∧ Spells states chars mid stop

/-- What a state can look like. -/
inductive State.Shaped (states : Array State) (id : Nat) : State → Prop
  /-- It is simple. -/
  | simple {s : State} (h : s.Simple) : Shaped states id s
  /-- It consumes the characters that its transitions spell. -/
  | text {chars : List Char} {next : Nat} (transition : Transition) (hchars : chars ≠ [])
      (hspells : Spells states chars id next) :
      Shaped states id { action := .text chars next, transition := some transition }
  /-- It begins an iteration or leaves the loop. -/
  | head (body exit loop : Nat) (lazy : Bool) :
      Shaped states id { epsilons := [body, exit], lazy, loopHead := some loop }
  /-- It ends an iteration. -/
  | back (head loop : Nat) : Shaped states id { epsilons := [head], loopBack := some loop }

/-- A state begins a loop or ends its iterations. -/
def State.Concerns (s : State) (loop : Nat) : Prop :=
  s.loopHead = some loop ∨ s.loopBack = some loop

theorem State.Simple.not_concerns {s : State} (h : s.Simple) (loop : Nat) : ¬ s.Concerns loop := by
  intro hs
  cases h <;> rcases hs with hs | hs <;> cases hs

/-- A loop has one state where it begins and one where its iterations end. -/
def HasLoop (states : Array State) (loop : Nat) : Prop :=
  ∃ head body exit lazy back,
    states[head]? = some { epsilons := [body, exit], lazy, loopHead := some loop } ∧
    states[back]? = some { epsilons := [head], loopBack := some loop } ∧
    (∀ (id : Nat) (s : State), states[id]? = some s → s.loopHead = some loop → id = head) ∧
    ∀ (id : Nat) (s : State), states[id]? = some s → s.loopBack = some loop → id = back

/-! ## What stays -/

/-- Each transition is still there. -/
def KeepsTransitions (states states' : Array State) : Prop :=
  ∀ (id : Nat) (s : State) (t : Transition), states[id]? = some s → s.transition = some t →
    ∃ s', states'[id]? = some s' ∧ s'.transition = some t

/-- The same states begin a loop and end its iterations. -/
def KeepsLoop (states states' : Array State) (loop : Nat) : Prop :=
  ∀ (id : Nat) (s : State), s.Concerns loop → (states'[id]? = some s ↔ states[id]? = some s)

variable {states states' states'' : Array State} {id loop : Nat} {s : State}

theorem Spells.keeps {chars : List Char} {start stop : Nat} (h : Spells states chars start stop)
    (hkeeps : KeepsTransitions states states') : Spells states' chars start stop := by
  induction chars generalizing start with
  | nil => exact h
  | cons c chars ih =>
    obtain ⟨s, mid, hs, ht, hrest⟩ := h
    obtain ⟨s', hs', ht'⟩ := hkeeps _ s _ hs ht
    exact ⟨s', mid, hs', ht', ih hrest⟩

theorem State.Shaped.keeps (h : s.Shaped states id) (hkeeps : KeepsTransitions states states') :
    s.Shaped states' id := by
  cases h with
  | simple h => exact .simple h
  | text transition hchars hspells => exact .text transition hchars (hspells.keeps hkeeps)
  | head body exit loop lazy => exact .head body exit loop lazy
  | back head loop => exact .back head loop

theorem KeepsLoop.trans (h : KeepsLoop states states' loop) (h' : KeepsLoop states' states'' loop) :
    KeepsLoop states states'' loop :=
  fun id s hs => (h' id s hs).trans (h id s hs)

/-- A state may be changed that has had nothing to do with a loop and has nothing to do with it
now. -/
theorem keepsLoop_of_states (h : ∀ id : Nat, states'[id]? = states[id]? ∨
      (∀ s : State, states[id]? = some s → ¬ s.Concerns loop) ∧
        ∀ s : State, states'[id]? = some s → ¬ s.Concerns loop) :
    KeepsLoop states states' loop := by
  intro id s hs
  rcases h id with hsame | ⟨hold, hnew⟩
  · rw [hsame]
  · constructor
    · intro hs'
      exact absurd hs (hnew s hs')
    · intro hs'
      exact absurd hs (hold s hs')

theorem HasLoop.keeps (h : HasLoop states loop) (hkeeps : KeepsLoop states states' loop) :
    HasLoop states' loop := by
  obtain ⟨head, body, exit, lazy, back, hhead, hback, honly, honly'⟩ := h
  refine ⟨head, body, exit, lazy, back, (hkeeps _ _ (.inl rfl)).2 hhead,
    (hkeeps _ _ (.inr rfl)).2 hback, fun id s hs hloop => ?_, fun id s hs hloop => ?_⟩
  · exact honly id s ((hkeeps id s (.inl hloop)).1 hs) hloop
  · exact honly' id s ((hkeeps id s (.inr hloop)).1 hs) hloop

/-! ## Filling in -/

/-- States without a transition have been made to do something else, and states have been
added. -/
structure Fills (states states' : Array State) : Prop where
  /-- No state is lost. -/
  size_le : states.size ≤ states'.size
  /-- What has been changed or added is simple. -/
  states : ∀ (id : Nat) (s' : State), states'[id]? = some s' → states[id]? = some s' ∨
    s'.Simple ∧ ∀ s, states[id]? = some s → s.Simple ∧ s.transition = none

/-- Other states are left alone. -/
theorem Fills.keeps (h : Fills states states') (hs : states[id]? = some s)
    (hsimple : ¬ (s.Simple ∧ s.transition = none)) : states'[id]? = some s := by
  have hlt : id < states'.size := Nat.lt_of_lt_of_le (Array.getElem?_eq_some_iff.1 hs).1 h.size_le
  rcases h.states id _ (Array.getElem?_eq_getElem hlt) with hsame | ⟨_, hold⟩
  · rw [hs] at hsame
    rw [hsame, Array.getElem?_eq_getElem hlt]
  · exact absurd (hold s hs) hsimple

theorem Fills.keepsTransitions (h : Fills states states') : KeepsTransitions states states' := by
  intro id s t hs ht
  refine ⟨s, h.keeps hs fun hsimple => ?_, ht⟩
  rw [hsimple.2] at ht
  cases ht

theorem Fills.keepsLoop (h : Fills states states') (loop : Nat) :
    KeepsLoop states states' loop := by
  intro id s hs
  constructor
  · intro hs'
    rcases h.states id s hs' with hold | ⟨hsimple, _⟩
    · exact hold
    · exact absurd hs (hsimple.not_concerns loop)
  · intro hold
    exact h.keeps hold fun hsimple => hsimple.1.not_concerns loop hs

theorem Fills.shaped (h : Fills states states')
    (hstates : ∀ (id : Nat) (s : State), states[id]? = some s → s.Shaped states id) (id : Nat)
    (s : State) (hs : states'[id]? = some s) : s.Shaped states' id := by
  rcases h.states id s hs with hold | ⟨hsimple, _⟩
  · exact (hstates id s hold).keeps h.keepsTransitions
  · exact .simple hsimple

/-- One state is made to do something else. -/
theorem fills_of_update (id : Nat) (hsize : states'.size = states.size) (hsimple : s.Simple)
    (hold : ∀ s₀, states[id]? = some s₀ → s₀.Simple ∧ s₀.transition = none)
    (hs : states'[id]? = some s) (hstates : ∀ id', id' ≠ id → states'[id']? = states[id']?) :
    Fills states states' := by
  refine ⟨Nat.le_of_eq hsize.symm, fun id' s' hs' => ?_⟩
  by_cases hid : id' = id
  · rw [hid, hs] at hs'
    rw [hid, ← Option.some.inj hs']
    exact .inr ⟨hsimple, hold⟩
  · rw [hstates id' hid] at hs'
    exact .inl hs'

theorem fills_push (h : s.Simple) : Fills states (states.push s) := by
  refine ⟨by simp, fun id s' hs' => ?_⟩
  rw [Array.getElem?_push] at hs'
  split at hs'
  · rename_i hid
    rw [hid, ← Option.some.inj hs']
    refine .inr ⟨h, fun s₀ hs₀ => ?_⟩
    rw [Array.getElem?_size] at hs₀
    cases hs₀
  · exact .inl hs'

/-! ## Loops -/

variable {d d' : Draft} {start body back exit : Nat} {lazy : Bool}

/-- The two states of a loop had no transitions. -/
theorem Loops.keepsTransitions (h : Loops loop start body back exit lazy d d')
    (hstart : d.states[start]? = some {}) (hback : d.states[back]? = some {}) :
    KeepsTransitions d.states d'.states := by
  intro id s t hs ht
  have hne {other : Nat} (hother : d.states[other]? = some {}) : id ≠ other := by
    intro hid
    rw [hid, hother] at hs
    rw [← Option.some.inj hs] at ht
    cases ht
  exact ⟨s, (h.states id (hne hstart) (hne hback)).trans hs, ht⟩

/-- The two states of a loop had nothing to do with other loops, and they have not now. -/
theorem Loops.keepsLoop (h : Loops loop start body back exit lazy d d')
    (hstart : d.states[start]? = some {}) (hback : d.states[back]? = some {}) {other : Nat}
    (hother : other ≠ loop) : KeepsLoop d.states d'.states other := by
  have hbare (s : State) (hs : some {} = some s) : ¬ s.Concerns other := by
    rw [← Option.some.inj hs]
    exact (State.Simple.ends false).not_concerns other
  apply keepsLoop_of_states
  intro id
  by_cases hid : id = start
  · rw [hid, h.head_state, hstart]
    refine .inr ⟨hbare, fun s hs => ?_⟩
    simp [← Option.some.inj hs, State.Concerns, Ne.symm hother]
  · by_cases hid' : id = back
    · rw [hid', h.back_state, hback]
      refine .inr ⟨hbare, fun s hs => ?_⟩
      simp [← Option.some.inj hs, State.Concerns, Ne.symm hother]
    · exact .inl (h.states id hid hid')

/-- The two states are the only ones of the loop. -/
theorem Loops.hasLoop (h : Loops loop start body back exit lazy d d')
    (hnew : ∀ (id : Nat) (s : State), d.states[id]? = some s → ¬ s.Concerns loop) :
    HasLoop d'.states loop := by
  refine ⟨start, body, exit, lazy, back, h.head_state, h.back_state, fun id s hs hloop => ?_,
    fun id s hs hloop => ?_⟩
  · by_contra hid
    by_cases hid' : id = back
    · rw [hid', h.back_state] at hs
      rw [← Option.some.inj hs] at hloop
      cases hloop
    · rw [h.states id hid hid'] at hs
      exact hnew id s hs (.inl hloop)
  · by_contra hid
    by_cases hid' : id = start
    · rw [hid', h.head_state] at hs
      rw [← Option.some.inj hs] at hloop
      cases hloop
    · rw [h.states id hid' hid] at hs
      exact hnew id s hs (.inr hloop)

/-! ## Drafts -/

namespace Draft

/-- What can become of a draft while a part is compiled. -/
inductive Evolves : Draft → Draft → Prop
  /-- One thing after the other. -/
  | trans {d d₁ d₂ : Draft} (h : Evolves d d₁) (h' : Evolves d₁ d₂) : Evolves d d₂
  /-- States are made to do something. -/
  | fills {d d' : Draft} (h : Fills d.states d'.states) (hloops : d'.loopCount = d.loopCount) :
      Evolves d d'
  /-- A state with a transition becomes the first one of a text. -/
  | text {d d' : Draft} {start next : Nat} {transition : Transition} {chars : List Char}
      (hstate : d.states[start]? = some { transition := some transition }) (hchars : chars ≠ [])
      (hspells : Spells d.states chars start next) (hloops : d'.loopCount = d.loopCount)
      (hstates : ∀ id, d'.states[id]? = if id = start then
        some { action := .text chars next, transition := some transition } else d.states[id]?) :
      Evolves d d'
  /-- A loop is made, its body is compiled, and two states that did nothing are made to begin
  the loop and to end its iterations. -/
  | loop {d d₁ d₂ d' : Draft} {start body back exit : Nat} {lazy : Bool}
      (hd₁ : d₁ = { d with loopCount := d.loopCount + 1 }) (hbody : Evolves d₁ d₂)
      (hstart : d₂.states[start]? = some {}) (hback : d₂.states[back]? = some {})
      (hloops : Loops d.loopCount start body back exit lazy d₂ d') : Evolves d d'

namespace Evolves

/-- Nothing has become of the states. -/
theorem of_same (hstates : d'.states = d.states) (hloops : d'.loopCount = d.loopCount) :
    Evolves d d' :=
  .fills ⟨Nat.le_of_eq (by rw [hstates]), fun id s hs => .inl (by rwa [hstates] at hs)⟩ hloops

theorem refl (d : Draft) : Evolves d d :=
  .of_same rfl rfl

/-- No loop is lost. -/
theorem loopCount_le (h : Evolves d d') : d.loopCount ≤ d'.loopCount := by
  induction h with
  | trans _ _ ih ih' => exact Nat.le_trans ih ih'
  | fills _ hloops => exact Nat.le_of_eq hloops.symm
  | text _ _ _ hloops => exact Nat.le_of_eq hloops.symm
  | loop hd₁ _ _ _ hloops ih =>
    rw [hd₁] at ih
    rw [hloops.draft_eq]
    exact Nat.le_of_succ_le ih

theorem keepsTransitions (h : Evolves d d') : KeepsTransitions d.states d'.states := by
  induction h with
  | trans _ _ ih ih' =>
    intro id s t hs ht
    obtain ⟨s₁, hs₁, ht₁⟩ := ih id s t hs ht
    exact ih' id s₁ t hs₁ ht₁
  | fills h _ => exact h.keepsTransitions
  | @text _ _ start _ _ _ hstate _ _ _ hstates =>
    intro id s t hs ht
    have hget := hstates id
    by_cases hid : id = start
    · rw [if_pos hid] at hget
      rw [hid] at hs
      obtain rfl := Option.some.inj (hs.symm.trans hstate)
      exact ⟨_, hget, ht⟩
    · rw [if_neg hid] at hget
      exact ⟨s, hget.trans hs, ht⟩
  | loop hd₁ _ hstart hback hloops ih =>
    intro id s t hs ht
    rw [hd₁] at ih
    obtain ⟨s₁, hs₁, ht₁⟩ := ih id s t hs ht
    exact hloops.keepsTransitions hstart hback id s₁ t hs₁ ht₁

/-- Each state looks like something that states can look like. -/
theorem shaped (h : Evolves d d')
    (hd : ∀ (id : Nat) (s : State), d.states[id]? = some s → s.Shaped d.states id) :
    ∀ (id : Nat) (s : State), d'.states[id]? = some s → s.Shaped d'.states id := by
  induction h with
  | trans _ _ ih ih' => exact ih' (ih hd)
  | fills h _ => exact h.shaped hd
  | @text d d' start _ transition _ hstate hchars hspells hloops hstates =>
    have hkeeps := (Evolves.text hstate hchars hspells hloops hstates).keepsTransitions
    intro id s hs
    rw [hstates] at hs
    split at hs
    · rename_i hid
      rw [hid, ← Option.some.inj hs]
      exact .text transition hchars (hspells.keeps hkeeps)
    · exact (hd id s hs).keeps hkeeps
  | @loop d d₁ d₂ d' start _ back _ _ hd₁ hbody hstart hback hloops ih =>
    rw [hd₁] at ih
    have hkeeps := hloops.keepsTransitions hstart hback
    intro id s hs
    by_cases hid : id = start
    · rw [hid, hloops.head_state] at hs
      rw [← Option.some.inj hs]
      exact .head _ _ _ _
    · by_cases hid' : id = back
      · rw [hid', hloops.back_state] at hs
        rw [← Option.some.inj hs]
        exact .back _ _
      · rw [hloops.states id hid hid'] at hs
        exact (ih hd id s hs).keeps hkeeps

/-- Other loops are left alone. -/
theorem keepsLoop (h : Evolves d d') (hloop : loop < d.loopCount ∨ d'.loopCount ≤ loop) :
    KeepsLoop d.states d'.states loop := by
  induction h with
  | trans h h' ih ih' =>
    have hle := h.loopCount_le
    have hle' := h'.loopCount_le
    exact (ih (by omega)).trans (ih' (by omega))
  | fills h _ => exact h.keepsLoop loop
  | @text _ _ start _ _ _ hstate _ _ _ hstates =>
    apply keepsLoop_of_states
    intro id
    rw [hstates]
    split
    · rename_i hid
      rw [hid, hstate]
      refine .inr ⟨fun s hs => ?_, fun s hs => ?_⟩ <;> simp [← Option.some.inj hs, State.Concerns]
    · exact .inl rfl
  | @loop d d₁ d₂ d' _ _ _ _ _ hd₁ hbody hstart hback hloops ih =>
    have hle := hbody.loopCount_le
    have hcount : d'.loopCount = d₂.loopCount := by rw [hloops.draft_eq]
    rw [hd₁] at ih hle
    dsimp only at ih hle
    exact (ih (by omega)).trans (hloops.keepsLoop hstart hback (by omega))

/-- A new loop begins in one state, and its iterations end in one state. -/
theorem hasLoop (h : Evolves d d') (hlo : d.loopCount ≤ loop) (hhi : loop < d'.loopCount)
    (hnew : ∀ (id : Nat) (s : State), d.states[id]? = some s → ¬ s.Concerns loop) :
    HasLoop d'.states loop := by
  induction h with
  | @trans d d₁ d₂ h h' ih ih' =>
    by_cases hloop : loop < d₁.loopCount
    · exact (ih hlo hloop hnew).keeps (h'.keepsLoop (.inl hloop))
    · have hkeeps := h.keepsLoop (.inr (Nat.le_of_not_lt hloop))
      exact ih' (Nat.le_of_not_lt hloop) hhi fun id s hs hconcerns =>
        hnew id s ((hkeeps id s hconcerns).1 hs) hconcerns
  | fills _ hloops => omega
  | text _ _ _ hloops => omega
  | @loop d d₁ d₂ d' _ _ _ _ _ hd₁ hbody hstart hback hloops ih =>
    have hcount : d'.loopCount = d₂.loopCount := by rw [hloops.draft_eq]
    have hcount₁ : d₁.loopCount = d.loopCount + 1 := by rw [hd₁]
    have hnew₁ : ∀ (id : Nat) (s : State), d₁.states[id]? = some s → ¬ s.Concerns loop := by
      rw [hd₁]
      exact hnew
    by_cases hloop : loop = d.loopCount
    · -- The loop itself, which its body has nothing to do with.
      have hkeeps := hbody.keepsLoop (.inl (show loop < d₁.loopCount by omega))
      rw [hloop] at hkeeps hnew₁ ⊢
      exact hloops.hasLoop fun id s hs hconcerns =>
        hnew₁ id s ((hkeeps id s hconcerns).1 hs) hconcerns
    · exact (ih (by omega) (by omega) hnew₁).keeps (hloops.keepsLoop hstart hback hloop)

end Evolves

end Draft

end RegexEngine.Automaton
