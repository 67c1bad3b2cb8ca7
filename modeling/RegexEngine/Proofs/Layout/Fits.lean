import RegexEngine.Proofs.Layout.Draft

/-!
# What has been compiled stays

After a part has been compiled its states lie as its layout says, in every automaton
that keeps them.  What is compiled later changes neither the states of the part, but for
the one where it ends, nor its fragments, groups and loops.

* `Fits` says that an automaton keeps what has been compiled between two drafts.
* `Laid` says what compiling a part does, and `Lays` that it always does so.
* `Lays.seq` is about one part after the other.
-/

namespace RegexEngine.Automaton

/-! ## What a part relies on -/

/-- A part is compiled from a state without anything, to another state. -/
structure Ready (d : Draft) (start : Nat) (accept : Option Nat) : Prop where
  /-- Nothing leads on from the first state yet. -/
  bare : d.states[start]? = some {}
  /-- The last state, if it is given, is another one. -/
  accept : ∀ id, accept = some id → id ≠ start ∧ id < d.states.size

/-- A part ends in the given state, or in one from which nothing leads on yet. -/
structure Ends (d : Draft) (start : Nat) (accept : Option Nat) (exit : Nat) (d' : Draft) :
    Prop where
  /-- It ends in the given state. -/
  given : ∀ id, accept = some id → exit = id
  /-- If none is given it ends where it starts or in a new state. -/
  made : accept = none → (exit = start ∨ d.states.size ≤ exit) ∧ d'.states[exit]? = some {}

/-- The fragments between two drafts have loops between the two. -/
def Covers (ranges : Nat → Nat × Nat) (d d' : Draft) : Prop :=
  ∀ id, d.fragments.size ≤ id → id < d'.fragments.size →
    d.loopCount ≤ (ranges id).1 ∧ (ranges id).2 ≤ d'.loopCount

/-- An automaton keeps what has been compiled between two drafts, from the state `start`
to the state `exit`. -/
structure Keeps (a : Automaton) (d d' : Draft) (start exit : Nat) : Prop where
  /-- The states have been kept. -/
  states : ∀ id s, (id = start ∨ d.states.size ≤ id) → id ≠ exit → d'.states[id]? = some s →
    a.states[id]? = some (s.resolve a.slot?)
  /-- The fragments have been kept. -/
  fragments : ∀ (id : Nat) (f : Fragment), d.fragments.size ≤ id → d'.fragments[id]? = some f →
    a.fragments[id]? = some f
  /-- The groups have kept their slots. -/
  slot? : ∀ key id, d'.slot? key = some id → a.slot? key = some id
  /-- No state has been lost. -/
  size : d'.states.size ≤ a.states.size
  /-- No loop has been lost. -/
  loops : d'.loopCount ≤ a.loopCount

/-- What has been compiled between two drafts is kept, and its loops and groups are
loops and groups of this run.  The loops of each fragment are given. -/
structure Fits (site : Site) (d d' : Draft) (ranges : Nat → Nat × Nat) (start exit : Nat) : Prop
    extends Keeps site.automaton d d' start exit where
  /-- The fragments have the given loops. -/
  owns : ∀ id loop, d.fragments.size ≤ id → id < d'.fragments.size →
    (site.owns id loop ↔ (ranges id).1 ≤ loop ∧ loop < (ranges id).2)
  /-- Other fragments have other loops. -/
  others : ∀ id loop, id < d.fragments.size ∨ d'.fragments.size ≤ id → id < site.nested →
    site.owns id loop → loop < d.loopCount ∨ d'.loopCount ≤ loop
  /-- The loops are loops of this run. -/
  own : ∀ loop, d.loopCount ≤ loop → loop < d'.loopCount → site.own loop
  /-- The fragments are nested in this run. -/
  nested : d'.fragments.size ≤ site.nested
  /-- If there are captures then there are groups in this run. -/
  tracked : d.captureCount < d'.captureCount → site.tracked

/-- An automaton that keeps the whole keeps a piece of it. -/
theorem Keeps.sub {a : Automaton} {d d₁ d₂ d' : Draft}
    {start start₁ exit exit₁ base base' s s' : Nat}
    (h : Keeps a d d' start exit) (hbefore : Draft.Grows base s d d₁)
    (hbetween : Draft.Grows base' s' d₂ d')
    (hstates : ∀ id, (id = start₁ ∨ d₁.states.size ≤ id) → id ≠ exit₁ → id < d₂.states.size →
      (id = start ∨ d.states.size ≤ id) ∧ id ≠ exit ∧ d'.states[id]? = d₂.states[id]?) :
    Keeps a d₁ d₂ start₁ exit₁ := by
  refine ⟨?_, ?_, fun key id hkey => h.slot? key id (hbetween.slot? key id hkey),
    Nat.le_trans hbetween.size_le h.size, Nat.le_trans hbetween.loopCount_le h.loops⟩
  · intro id s hid hne hs
    have hlt : id < d₂.states.size := (Array.getElem?_eq_some_iff.1 hs).1
    obtain ⟨hid', hne', heq⟩ := hstates id hid hne hlt
    exact h.states id s hid' hne' (heq.trans hs)
  · intro id f hid hf
    have hlt : id < d₂.fragments.size := (Array.getElem?_eq_some_iff.1 hf).1
    exact h.fragments id f (Nat.le_trans hbefore.fragments_le hid)
      ((hbetween.fragments id hlt).trans hf)

/-- What fits the whole fits a piece of it. -/
theorem Fits.sub {site : Site} {d d₁ d₂ d' : Draft} {ranges ranges₁ : Nat → Nat × Nat}
    {start start₁ exit exit₁ base base' s s' : Nat} (h : Fits site d d' ranges start exit)
    (hbefore : Draft.Grows base s d d₁) (hbetween : Draft.Grows base' s' d₂ d')
    (hstates : ∀ id, (id = start₁ ∨ d₁.states.size ≤ id) → id ≠ exit₁ → id < d₂.states.size →
      (id = start ∨ d.states.size ≤ id) ∧ id ≠ exit ∧ d'.states[id]? = d₂.states[id]?)
    (hranges : ∀ id, d₁.fragments.size ≤ id → id < d₂.fragments.size → ranges₁ id = ranges id)
    (hothers : ∀ id loop, d.fragments.size ≤ id → id < d'.fragments.size →
      id < d₁.fragments.size ∨ d₂.fragments.size ≤ id → (ranges id).1 ≤ loop →
        loop < (ranges id).2 →
      loop < d₁.loopCount ∨ d₂.loopCount ≤ loop) :
    Fits site d₁ d₂ ranges₁ start₁ exit₁ := by
  have hlo := hbefore.loopCount_le
  have hhi := hbetween.loopCount_le
  have hfirst := hbefore.fragments_le
  have hlast := hbetween.fragments_le
  refine ⟨h.toKeeps.sub hbefore hbetween hstates, ?_, ?_, ?_, Nat.le_trans hlast h.nested, ?_⟩
  · intro id loop hid hlt
    rw [hranges id hid hlt]
    exact h.owns id loop (by omega) (by omega)
  · intro id loop hid hnested howns
    by_cases hinside : d.fragments.size ≤ id ∧ id < d'.fragments.size
    · obtain ⟨hlow, hhigh⟩ := (h.owns id loop hinside.1 hinside.2).1 howns
      exact hothers id loop hinside.1 hinside.2 hid hlow hhigh
    · have := h.others id loop (by omega) hnested howns
      omega
  · exact fun loop hlow hhigh => h.own loop (by omega) (by omega)
  · intro hcaptures
    have := hbefore.captureCount_le
    have := hbetween.captureCount_le
    exact h.tracked (by omega)

/-- A loop that no fragment in between has is one that a failing way puts back. -/
theorem Fits.guarded {site : Site} {d d' : Draft} {ranges : Nat → Nat × Nat} {start exit loop : Nat}
    (h : Fits site d d' ranges start exit) (hlo : d.loopCount ≤ loop) (hhi : loop < d'.loopCount)
    (hranges : ∀ id, d.fragments.size ≤ id → id < d'.fragments.size →
      ¬((ranges id).1 ≤ loop ∧ loop < (ranges id).2)) : site.guarded loop := by
  refine ⟨h.own loop hlo hhi, fun id hid howns => ?_⟩
  by_cases hinside : d.fragments.size ≤ id ∧ id < d'.fragments.size
  · exact hranges id hinside.1 hinside.2 ((h.owns id loop hinside.1 hinside.2).1 howns)
  · have := h.others id loop (by omega) hid howns
    omega

/-! ## What compiling a part does -/

/-- How many states a part need not make, since its last state is given. -/
def spare (accept : Option Nat) : Nat :=
  if accept.isSome then 1 else 0

@[simp] theorem spare_none : spare none = 0 := rfl

@[simp] theorem spare_some (id : Nat) : spare (some id) = 1 := rfl

/-- What compiling a part does, where `last` is the number of the last group then. -/
structure Laid (d : Draft) (start : Nat) (accept : Option Nat) (exit : Nat) (d' : Draft)
    (layout : Layout) (last : Nat) : Prop where
  /-- Everything else stays. -/
  grows : Draft.Grows d.states.size start d d'
  /-- It ends where it should. -/
  ends : Ends d start accept exit d'
  /-- It numbers its groups. -/
  lastGroup_eq : d'.lastGroup = last
  /-- It lies as its layout says. -/
  places : ∃ ranges, Covers ranges d d' ∧ ∀ site, Fits site d d' ranges start exit →
    ∃ rank, d.states.size + rank ≤ d'.states.size + spare accept ∧
      layout site rank d.loopCount d'.loopCount start exit

/-- Compiling a part lays it out.  The layout and the number of the last group may depend
on how many groups have been numbered before, which are more than `room`. -/
def Lays (room : Nat) (part : Build.Part) (layout : Nat → Layout) (last : Nat → Nat) : Prop :=
  ∀ d start accept exit d', d.Booked → room < d.groups.size → Ready d start accept →
    part start accept d = .ok (exit, d') →
      Laid d start accept exit d' (layout d.lastGroup) (last d.lastGroup)

section

variable {d d' : Draft} {start exit room : Nat} {accept : Option Nat}

theorem Ready.lt_size (h : Ready d start accept) : start < d.states.size :=
  (Array.getElem?_eq_some_iff.1 h.bare).1

/-- An exit need not be made use of. -/
theorem Ready.free (h : Ready d start accept) : Ready d start none :=
  ⟨h.bare, fun _ h => by cases h⟩

/-- A part without an exit of its own can be followed by another part. -/
theorem Ends.ready (h : Ends d start none exit d') (hgrows : Draft.Grows d.states.size start d d')
    (hready : Ready d start accept) : Ready d' exit accept := by
  obtain ⟨hexit, hbare⟩ := h.made rfl
  refine ⟨hbare, fun id hid => ?_⟩
  obtain ⟨hne, hlt⟩ := hready.accept id hid
  have := hgrows.size_le
  omega

/-- Behind a part without an exit of its own another part can be compiled. -/
theorem Laid.followed {layout : Layout} {last : Nat} (h : Laid d start none exit d' layout last)
    (hd : d.Booked) (hroom : room < d.groups.size) (hready : Ready d start accept) :
    d'.Booked ∧ room < d'.groups.size ∧ Ready d' exit accept :=
  ⟨h.grows.booked hd, Nat.lt_of_lt_of_le hroom h.grows.groups_le, h.ends.ready h.grows hready⟩

/-- The loops of the fragments of one part and of those of a later part. -/
def glue (bound : Nat) (ranges ranges' : Nat → Nat × Nat) (id : Nat) : Nat × Nat :=
  if id < bound then ranges id else ranges' id

/-- What fits two parts, the one compiled after the other, fits each of them. -/
theorem Fits.split {site : Site} {d d₁ d₂ d₃ d' : Draft} {ranges ranges' : Nat → Nat × Nat}
    {start exit base base' base'' s s' s'' : Nat} (start₁ mid mid' : Nat)
    (hfits : Fits site d d' (glue d₂.fragments.size ranges ranges') start exit)
    (hbefore : Draft.Grows base s d d₁) (hleft : Draft.Grows d₁.states.size start₁ d₁ d₂)
    (hbetween : Draft.Grows base' s' d₂ d₃) (hright : Draft.Grows base'' s'' d₃ d')
    (hcovers : Covers ranges d₁ d₂) (hcovers' : Covers ranges' d₃ d')
    (hfirst : d₁.fragments.size = d.fragments.size) (hmid : d₃.fragments.size = d₂.fragments.size)
    (hstates : ∀ id, (id = start₁ ∨ d₁.states.size ≤ id) → id ≠ mid → id < d₂.states.size →
      (id = start ∨ d.states.size ≤ id) ∧ id ≠ exit ∧ d'.states[id]? = d₂.states[id]?)
    (hstates' : mid' = start ∨ d.states.size ≤ mid') :
    Fits site d₁ d₂ ranges start₁ mid ∧ Fits site d₃ d' ranges' mid' exit := by
  have hloops := hbetween.loopCount_le
  have hle := hleft.fragments_le
  have hsizes := hbefore.size_le
  have hsizes' := hleft.size_le
  have hsizes'' := hbetween.size_le
  constructor
  · refine hfits.sub hbefore (hbetween.weaken.trans
      hright.weaken) hstates
      (fun id _ hhi => (if_pos hhi).symm) fun id loop hlo hhi hid hlow hhigh => ?_
    rw [glue, if_neg (by omega)] at hlow
    have := hcovers' id (by omega) hhi
    omega
  · refine hfits.sub (hbefore.weaken.trans
      (hleft.weaken.trans
        hbetween.weaken)) (.refl 0 0 d')
      (fun id hid hne hlt => ⟨by omega, hne, rfl⟩)
      (fun id hlo _ => (if_neg (by omega)).symm) fun id loop hlo hhi hid hlow hhigh => ?_
    rw [glue, if_pos (by omega)] at hhigh
    have := hcovers id (by omega) (by omega)
    omega

/-- The fragments of both parts have loops between the first draft and the last. -/
theorem Covers.glue {d d₁ d₂ d₃ d' : Draft} {ranges ranges' : Nat → Nat × Nat}
    {start₁ base base' base'' s s' s'' : Nat} (hcovers : Covers ranges d₁ d₂)
    (hcovers' : Covers ranges' d₃ d') (hbefore : Draft.Grows base s d d₁)
    (hleft : Draft.Grows d₁.states.size start₁ d₁ d₂) (hbetween : Draft.Grows base' s' d₂ d₃)
    (hright : Draft.Grows base'' s'' d₃ d') (hfirst : d₁.fragments.size = d.fragments.size)
    (hmid : d₃.fragments.size = d₂.fragments.size) :
    Covers (glue d₂.fragments.size ranges ranges') d d' := by
  have := hbefore.loopCount_le
  have := hleft.loopCount_le
  have := hbetween.loopCount_le
  have := hright.loopCount_le
  intro id hlo hhi
  unfold Automaton.glue
  split
  · have := hcovers id (by omega) ‹_›
    omega
  · have := hcovers' id (by omega) hhi
    omega

/-- A part may have its body compiled between two drafts of its own.  What fits the part
fits the body, so the layout of the part can make use of what holds of the body. -/
theorem Laid.of_body {P : Site → Prop} {d₁ d₂ : Draft} {first last : Nat} {layout : Layout}
    {lastGroup : Nat} (hbefore : Draft.Grows d.states.size start d d₁)
    (hbody : Draft.Grows d₁.states.size first d₁ d₂)
    (hafter : Draft.Grows d.states.size start d₂ d')
    (hfirst : first = start ∨ d.states.size ≤ first)
    (hfragments : d₁.fragments.size = d.fragments.size)
    (hfragments' : d'.fragments.size = d₂.fragments.size) (hends : Ends d start accept exit d')
    (hlast : d'.lastGroup = lastGroup)
    (hkept : ∀ id, (id = first ∨ d₁.states.size ≤ id) → id ≠ last → id < d₂.states.size →
      id ≠ exit ∧ d'.states[id]? = d₂.states[id]?)
    (hplaces : ∃ ranges, Covers ranges d₁ d₂ ∧ ∀ site, Fits site d₁ d₂ ranges first last → P site)
    (hlayout : ∀ site ranges, Covers ranges d₁ d₂ → Fits site d d' ranges start exit → P site →
      ∃ rank, d.states.size + rank ≤ d'.states.size + spare accept ∧
        layout site rank d.loopCount d'.loopCount start exit) :
    Laid d start accept exit d' layout lastGroup := by
  have hsize := hbefore.size_le
  have hlo := hbefore.loopCount_le
  have hhi := hafter.loopCount_le
  obtain ⟨ranges, hcovers, hplaces⟩ := hplaces
  refine ⟨hbefore.trans ((hbody.mono hsize hfirst).trans hafter), hends, hlast, ranges,
    fun id hid hlt => ?_, fun site hfits => hlayout site ranges hcovers hfits (hplaces site ?_)⟩
  · have := hcovers id (by omega) (by omega)
    omega
  · refine hfits.sub hbefore hafter (fun id hid hne hlt => ⟨by omega, hkept id hid hne hlt⟩)
      (fun _ _ _ => rfl) fun id loop hid hlt hout _ _ => by omega

/-- Compiling one part after the other. -/
theorem Lays.seq {first second : Build.Part} {layout layout' : Nat → Layout}
    {last last' : Nat → Nat}
    (h : Lays room first layout last) (h' : Lays room second layout' last') :
    Lays room (fun start accept => do
      let next ← first start none
      second next accept) (fun base => (layout base).seq (layout' (last base)))
      (fun base => last' (last base)) := by
  intro d start accept exit d' hd hroom hready hrun
  obtain ⟨mid, d₁, hfirst, hsecond⟩ := Build.bind_eq_ok.1 hrun
  have hlaid := h d start none mid d₁ hd hroom hready.free hfirst
  obtain ⟨hd₁, hroom₁, hready₁⟩ := hlaid.followed hd hroom hready
  have hlaid' := h' d₁ mid accept exit d' hd₁ hroom₁ hready₁ hsecond
  obtain ⟨hmid, hmidbare⟩ := hlaid.ends.made rfl
  have hsize := hlaid.grows.size_le
  have hsize' := hlaid'.grows.size_le
  have hmidlt : mid < d₁.states.size := (Array.getElem?_eq_some_iff.1 hmidbare).1
  have hexit : exit = mid ∨ d₁.states.size ≤ exit ∨ exit ≠ start ∧ exit < d.states.size := by
    cases accept with
    | none =>
      rcases (hlaid'.ends.made rfl).1 with hexit | hexit
      · exact .inl hexit
      · exact .inr (.inl hexit)
    | some id =>
      obtain rfl := hlaid'.ends.given id rfl
      exact .inr (.inr (hready.accept _ rfl))
  obtain ⟨ranges, hcovers, hplaces⟩ := hlaid.places
  obtain ⟨ranges', hcovers', hplaces'⟩ := hlaid'.places
  refine ⟨hlaid.grows.trans (hlaid'.grows.mono hsize hmid), ⟨hlaid'.ends.given, fun haccept => ?_⟩,
    ?_, glue d₁.fragments.size ranges ranges', ?_, fun site hfits => ?_⟩
  · obtain ⟨hexit, hbare⟩ := hlaid'.ends.made haccept
    exact ⟨by omega, hbare⟩
  · rw [hlaid'.lastGroup_eq, hlaid.lastGroup_eq]
  · exact hcovers.glue hcovers' (.refl 0 0 d) hlaid.grows (.refl 0 0 d₁) hlaid'.grows rfl rfl
  · obtain ⟨hleft, hright⟩ := hfits.split start mid mid (.refl 0 0 d)
      hlaid.grows (.refl 0 0 d₁) hlaid'.grows hcovers hcovers' rfl rfl
      (fun id hid hne hlt => ⟨hid, by omega, hlaid'.grows.states id hlt hne⟩) hmid
    obtain ⟨rank, hrank, hlayout⟩ := hplaces site hleft
    obtain ⟨rank', hrank', hlayout'⟩ := hplaces' site hright
    refine ⟨rank + rank', ?_, rank, rank', d₁.loopCount, mid, rfl, hlaid.grows.loopCount_le,
      hlayout, ?_⟩
    · simp only [spare_none] at hrank
      omega
    · rw [← hlaid.lastGroup_eq]
      exact hlayout'

end

end RegexEngine.Automaton
