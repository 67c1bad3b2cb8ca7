import RegexEngine.Proofs.Layout.Parts

/-!
# Compiling repetitions

* `LaysTo` is about parts that always end in a given state.
* `Lays.takesCopy` is about one copy that need not be taken and what is compiled behind it, and
  `Lays.takesLoop` about a loop.
* `Lays.copies`, `laysTo_optionalCopies` and `Lays.loop` are about copies of a body.
* `Lays.repeated` puts them together.
-/

namespace RegexEngine.Automaton

section

variable {d d' : Draft} {start exit room : Nat} {accept : Option Nat}

/-! ## Repetition -/

/-- Compiling a part to a given state lays it out. -/
def LaysTo (room : Nat) (part : Nat → Nat → Build Unit) (layout : Nat → Layout)
    (last : Nat → Nat) : Prop :=
  ∀ d start exit d', d.Booked → room < d.groups.size → Ready d start (some exit) →
    part start exit d = .ok ((), d') →
      Laid d start (some exit) exit d' (layout d.lastGroup) (last d.lastGroup)

/-- The last state is made before the part is compiled. -/
theorem LaysTo.withTarget {part : Nat → Nat → Build Unit} {layout : Nat → Layout} {last : Nat → Nat}
    (h : LaysTo room part layout last) :
    Lays room (fun start accept => do
      let exit ← Build.target accept
      part start exit
      return exit) layout last := by
  intro d start accept exit d' hd hroom hready hrun
  obtain ⟨exit₁, d₁, htarget, hrun⟩ := Build.bind_eq_ok.1 hrun
  obtain ⟨_, d₂, hpart, hrun⟩ := Build.bind_eq_ok.1 hrun
  obtain ⟨rfl, rfl⟩ := Build.pure_eq_ok.1 hrun
  have ht := targets_target hready htarget
  have hsize := ht.size_eq
  have hdraft := ht.draft_eq
  have hgrows := ht.grows d.states.size start (Nat.le_refl _)
  have hlaid := h d₁ start exit₁ d₂ (hgrows.booked hd) (Nat.lt_of_lt_of_le hroom hgrows.groups_le)
    ht.ready hpart
  have hlast₁ : d₁.lastGroup = d.lastGroup := by rw [hdraft]
  have hloops₁ : d₁.loopCount = d.loopCount := by rw [hdraft]
  refine Laid.of_body hgrows hlaid.grows (.refl _ _ d₂) (.inl rfl) (by rw [hdraft]) rfl
    ⟨ht.ends.given, fun haccept => ?_⟩ (by rw [hlaid.lastGroup_eq, hlast₁])
    (fun id hid hne hlt => ⟨hne, rfl⟩) hlaid.places fun site ranges _ hfits hplaces => ?_
  · obtain ⟨hexit, hbare⟩ := ht.ends.made haccept
    exact ⟨hexit, (hlaid.grows.states exit₁ ht.lt_size ht.ne).trans hbare⟩
  · obtain ⟨rank, hrank, hlayout⟩ := hplaces
    rw [hlast₁, hloops₁] at hlayout
    simp only [spare_some] at hrank
    exact ⟨rank, by omega, hlayout⟩

/-- A way that asks for nothing. -/
theorem laysTo_addEpsilon : LaysTo room Build.addEpsilon (fun _ => .skip) id := by
  intro d start exit d' hd hroom hready hrun
  refine lays_skip d start (some exit) exit d' hd hroom hready ?_
  exact Build.bind_eq_ok.2 ⟨(), d', hrun, rfl⟩

/-- Copies of a part come before what follows them. -/
theorem Lays.copies {part second : Build.Part} {layout layout' : Layout} {last : Nat}
    {last' : Nat → Nat} (h : Lays room part (fun _ => layout) fun _ => last)
    (h' : Lays room second (fun _ => layout') last') (n : Nat) :
    Lays room (fun start accept => do
      let next ← Build.copies part n start
      second next accept) (fun _ => (layout.copies n).seq layout')
      fun base => last' (if n = 0 then base else last) := by
  induction n with
  | zero =>
    intro d start accept exit d' hd hroom hready hrun
    refine (h'.mono (fun _ => (layout.copies 0).seq layout') ?_) d start accept exit d' hd
      hroom hready hrun
    intro _ site rank lo hi start exit _ hlayout
    exact ⟨0, rank, lo, start, by simp, Nat.le_refl _, ⟨rfl, .inl ⟨rfl, rfl⟩⟩, hlayout⟩
  | succ n ih =>
    intro d start accept exit d' hd hroom hready hrun
    have hseq := (h.seq ih).mono (fun _ => (layout.copies (n + 1)).seq layout') (by
      rintro _ site rank lo hi start exit -
        ⟨rank₁, _, mid, next, rfl, hlo, hfirst, rank₂, rank₃, mid', next', rfl, hlo',
          hcopies, hrest⟩
      exact ⟨rank₁ + rank₂, rank₃, mid', next', by omega, by omega,
        ⟨rank₁, rank₂, mid, next, rfl, hlo, hfirst, hcopies⟩, hrest⟩)
    have hlaid := hseq d start accept exit d' hd hroom hready (by
      obtain ⟨last, d₁, hcopies, hrun⟩ := Build.bind_eq_ok.1 hrun
      obtain ⟨next, d₂, hpart, hcopies⟩ := Build.bind_eq_ok.1 hcopies
      exact Build.bind_eq_ok.2 ⟨next, d₂, hpart, Build.bind_eq_ok.2 ⟨last, d₁, hcopies, hrun⟩⟩)
    simpa using hlaid

/-- A new state for the first copy of a part, between which and the exit is chosen. -/
structure Chooses (d d₁ : Draft) (body : Nat) : Prop where
  /-- The state is made. -/
  addState : Build.addState d = .ok (body, d₁)
  /-- It is new. -/
  body_eq : body = d.states.size
  /-- Nothing leads on from it yet. -/
  bare : d₁.states[body]? = some {}
  /-- It is the only one. -/
  size_eq : d₁.states.size = d.states.size + 1
  /-- Nothing else is made. -/
  draft_eq : d₁ = { d with states := d₁.states }
  /-- Everything else stays. -/
  grows : ∀ start, Draft.Grows d.states.size start d d₁

theorem chooses_addState {d₁ : Draft} {body : Nat} (h : Build.addState d = .ok (body, d₁)) :
    Chooses d d₁ body := by
  obtain ⟨rfl, rfl⟩ := Build.addState_eq_ok.1 h
  exact ⟨h, rfl, by simp, by simp, rfl, fun _ => Draft.grows_addState (Nat.le_refl _)⟩

/-- A state has been made to choose. -/
structure Chosen (start body exit : Nat) (lazy : Bool) (d d' : Draft) : Prop where
  /-- Only states are changed. -/
  draft_eq : d' = { d with states := d'.states }
  /-- No state is made. -/
  size_eq : d'.states.size = d.states.size
  /-- Other states stay. -/
  states : ∀ id, d'.states[id]? =
    if id = start then some { epsilons := [body, exit], lazy } else d.states[id]?
  /-- Everything else stays. -/
  grows : ∀ base, Draft.Grows base start d d'

/-- A copy of a part has been compiled that need not be taken.  It begins in a new state and ends in
the exit, if no copies are behind it. -/
structure TakesCopy (part : Build.Part) (layout : Layout) (last room : Nat) (lazy : Bool) (n : Nat)
    (d : Draft) (start exit body next : Nat) (d₁ d₂ d₃ : Draft) : Prop where
  /-- The copy begins in a new state. -/
  chooses : Chooses d d₁ body
  /-- The copy can be compiled there. -/
  booked_body : d₁.Booked
  /-- The groups of the part have been reserved. -/
  room_lt_body : room < d₁.groups.size
  /-- The copy has an end, or its end is made. -/
  ready_body : Ready d₁ body (if n = 0 then some exit else none)
  /-- It is compiled. -/
  compiles : part body (if n = 0 then some exit else none) d₁ = .ok (next, d₂)
  /-- It is laid out. -/
  laid : Laid d₁ body (if n = 0 then some exit else none) next d₂ layout last
  /-- Nothing leads on from the first state yet. -/
  bare : d₂.states[start]? = some {}
  /-- Then the first state chooses. -/
  chosen : Chosen start body exit lazy d₂ d₃
  /-- The other copies can be compiled then. -/
  booked : d₃.Booked
  /-- The groups of the part are still there. -/
  room_lt : room < d₃.groups.size
  /-- The other copies begin where this one ends. -/
  ready : n ≠ 0 → Ready d₃ next (some exit)

/-- One copy of a part is compiled, and then the copies behind it. -/
theorem Lays.takesCopy {part : Build.Part} {layout : Layout} {last n : Nat} {lazy : Bool}
    (h : Lays room part (fun _ => layout) fun _ => last) (hd : d.Booked)
    (hroom : room < d.groups.size) (hready : Ready d start (some exit))
    (hrun : Build.optionalCopies part lazy exit (n + 1) start d = .ok ((), d')) :
    ∃ body next d₁ d₂ d₃,
      TakesCopy part layout last room lazy n d start exit body next d₁ d₂ d₃ ∧
      Build.optionalCopies part lazy exit n next d₃ = .ok ((), d') := by
  obtain ⟨body, d₁, hbody, hrun⟩ := Build.bind_eq_ok.1 hrun
  obtain ⟨next, d₂, hpart, hrun⟩ := Build.bind_eq_ok.1 hrun
  obtain ⟨_, d₃, hchoose, hrun⟩ := Build.bind_eq_ok.1 hrun
  have hc := chooses_addState hbody
  have hstart := hready.lt_size
  obtain ⟨hexitne, hexitlt⟩ := hready.accept exit rfl
  have hbodyeq := hc.body_eq
  have hsize₁ := hc.size_eq
  -- The copy.
  have hbooked₁ := (hc.grows 0).booked hd
  have hroom₁ := Nat.lt_of_lt_of_le hroom (hc.grows 0).groups_le
  have hready₁ : Ready d₁ body (if n = 0 then some exit else none) := by
    refine ⟨hc.bare, fun id hid => ?_⟩
    split at hid
    · cases hid
      omega
    · cases hid
  have hlaid := h d₁ body _ next d₂ hbooked₁ hroom₁ hready₁ hpart
  have hsize₂ := hlaid.grows.size_le
  -- The choice.
  have hbare : d₂.states[start]? = some {} := by
    rw [hlaid.grows.states start (by omega) (by omega),
      (hc.grows body).states start hstart (by omega)]
    exact hready.bare
  have hchosen : Chosen start body exit lazy d₂ d₃ := by
    rw [Build.update_eq_ok.1 hchoose]
    exact ⟨rfl, by simp, getElem?_modify_state hbare _, fun _ => Draft.grows_update (.inl rfl) _⟩
  have hsize₃ := hchosen.size_eq
  have hgrows₃ := hchosen.grows 0
  refine ⟨body, next, d₁, d₂, d₃, ⟨hc, hbooked₁, hroom₁, hready₁, hpart, hlaid, hbare, hchosen,
    hgrows₃.booked (hlaid.grows.booked hbooked₁),
    Nat.lt_of_lt_of_le hroom₁ (Nat.le_trans hlaid.grows.groups_le hgrows₃.groups_le), fun hn => ?_⟩,
    hrun⟩
  obtain ⟨hnext, hnextbare⟩ := hlaid.ends.made (if_neg hn)
  refine ⟨by rw [hchosen.states, if_neg (by omega), hnextbare], fun id hid => ?_⟩
  cases hid
  omega

/-- The last of the copies of a part. -/
theorem laysTo_optionalCopy {part : Build.Part} {layout : Layout} {last : Nat}
    (h : Lays room part (fun _ => layout) fun _ => last) (lazy : Bool) :
    LaysTo room (fun start exit => Build.optionalCopies part lazy exit 1 start)
      (fun _ => layout.optionalCopies lazy 1) fun _ => last := by
  intro d start exit d' hd hroom hready hrun
  obtain ⟨body, next, d₁, d₂, d₃, hcopy, hrun⟩ := h.takesCopy hd hroom hready hrun
  obtain ⟨-, rfl⟩ := Build.pure_eq_ok.1 hrun
  obtain ⟨-, hbody, -, hsize₁, hdraft₁, hgrows₁⟩ := hcopy.chooses
  obtain ⟨hexitne, hexitlt⟩ := hready.accept exit rfl
  have hstart := hready.lt_size
  have hlaid := hcopy.laid
  obtain rfl : next = exit := hlaid.ends.given _ rfl
  have hsize₂ := hlaid.grows.size_le
  have hchosen := hcopy.chosen
  have hloops₁ : d₁.loopCount = d.loopCount := by rw [hdraft₁]
  have hfields₃ : d₃.fragments = d₂.fragments ∧ d₃.loopCount = d₂.loopCount ∧
      d₃.lastGroup = d₂.lastGroup := by
    rw [hchosen.draft_eq]
    exact ⟨rfl, rfl, rfl⟩
  obtain ⟨hfragments₃, hloops₃, hlast₃⟩ := hfields₃
  refine Laid.of_body (hgrows₁ start) hlaid.grows (hchosen.grows _) (.inr (by omega))
    (by rw [hdraft₁]) (by rw [hfragments₃]) ⟨fun id h => Option.some.inj h, fun h => by cases h⟩
    (by rw [hlast₃, hlaid.lastGroup_eq])
    (fun id hid hne hlt => ⟨hne, by rw [hchosen.states, if_neg (by omega)]⟩) hlaid.places
    fun site ranges _ hfits hplaces => ?_
  obtain ⟨rank, hrank, hlayout⟩ := hplaces
  have hsize₃ := hchosen.size_eq
  have hloops₂ := hlaid.grows.loopCount_le
  simp only [↓reduceIte, spare_some] at hrank ⊢
  rw [hloops₁, ← hloops₃] at hlayout
  refine ⟨rank + 1, by omega, rank, body, rfl, by omega, ?_, rank, 0, d₃.loopCount, next, rfl,
    by omega, hlayout, rfl, .inl ⟨rfl, rfl⟩⟩
  exact hfits.states start { epsilons := [body, next], lazy } (.inl rfl) (Ne.symm hexitne)
    (by rw [hchosen.states, if_pos rfl])

/-- Up to as many copies of a part, and at least one. -/
theorem laysTo_optionalCopies {part : Build.Part} {layout : Layout} {last : Nat}
    (h : Lays room part (fun _ => layout) fun _ => last) (lazy : Bool) (n : Nat) :
    LaysTo room (fun start exit => Build.optionalCopies part lazy exit (n + 1) start)
      (fun _ => layout.optionalCopies lazy (n + 1)) fun _ => last := by
  induction n with
  | zero => exact laysTo_optionalCopy h lazy
  | succ n ih =>
    intro d start exit d' hd hroom hready hrun
    obtain ⟨body, next, d₁, d₂, d₃, hcopy, hrun⟩ := h.takesCopy hd hroom hready hrun
    obtain ⟨-, hbody, -, hsize₁, hdraft₁, hgrows₁⟩ := hcopy.chooses
    obtain ⟨hexitne, hexitlt⟩ := hready.accept exit rfl
    have hstart := hready.lt_size
    have hlaid := hcopy.laid
    have hsize₂ := hlaid.grows.size_le
    have hchosen := hcopy.chosen
    have hgrows₃ := hchosen.grows d.states.size
    have hsize₃ := hchosen.size_eq
    have hfragments₁ : d₁.fragments.size = d.fragments.size := by rw [hdraft₁]
    have hloops₁ : d₁.loopCount = d.loopCount := by rw [hdraft₁]
    have hfragments₃ : d₃.fragments.size = d₂.fragments.size := by rw [hchosen.draft_eq]
    have hloops₃ : d₃.loopCount = d₂.loopCount := by rw [hchosen.draft_eq]
    -- The other copies.
    have hready₃ := hcopy.ready (Nat.succ_ne_zero n)
    have hlaid' := ih d₃ next exit d' hcopy.booked hcopy.room_lt hready₃ hrun
    have hnext := (hlaid.ends.made (if_neg (Nat.succ_ne_zero n))).1
    have hnextlt := hready₃.lt_size
    have hsize' := hlaid'.grows.size_le
    obtain ⟨ranges, hcovers, hplaces⟩ := hlaid.places
    obtain ⟨ranges', hcovers', hplaces'⟩ := hlaid'.places
    refine ⟨(hgrows₁ start).trans ((hlaid.grows.mono (by omega) (.inr (by omega))).trans
        (hgrows₃.trans (hlaid'.grows.mono (by omega) (.inr (by omega))))),
      ⟨fun id h => Option.some.inj h, fun h => by cases h⟩, hlaid'.lastGroup_eq,
      glue d₂.fragments.size ranges ranges',
      hcovers.glue hcovers' (hgrows₁ start) hlaid.grows hgrows₃ hlaid'.grows hfragments₁
        hfragments₃,
      fun site hfits => ?_⟩
    obtain ⟨hleft, hright⟩ := hfits.split body next next (hgrows₁ start)
      hlaid.grows hgrows₃ hlaid'.grows hcovers hcovers' hfragments₁ hfragments₃
      (fun id hid hne hlt => ⟨by omega, by omega, by
        rw [hlaid'.grows.states id (by omega) hne, hchosen.states, if_neg (by omega)]⟩) (by omega)
    obtain ⟨rank, hrank, hlayout⟩ := hplaces site hleft
    obtain ⟨rank', hrank', hlayout'⟩ := hplaces' site hright
    have hloops₂ := hlaid.grows.loopCount_le
    rw [if_neg (Nat.succ_ne_zero n)] at hrank
    simp only [spare_some, spare_none] at hrank hrank' ⊢
    rw [hloops₁] at hlayout
    rw [hloops₃] at hlayout'
    refine ⟨rank + rank' + 1, by omega, rank + rank', body, rfl, by omega, ?_, rank, rank',
      d₂.loopCount, next, rfl, by omega, hlayout, hlayout'⟩
    exact hfits.states start { epsilons := [body, exit], lazy } (.inl rfl) (Ne.symm hexitne)
      (by rw [hlaid'.grows.states start (by omega) (by omega), hchosen.states, if_pos rfl])

/-- The states of a loop have been made to lead to its body and back. -/
structure Loops (loop start body back exit : Nat) (lazy : Bool) (d d' : Draft) : Prop where
  /-- Only states are changed. -/
  draft_eq : d' = { d with states := d'.states }
  /-- No state is made. -/
  size_eq : d'.states.size = d.states.size
  /-- The first state begins an iteration or leaves the loop. -/
  head_state : d'.states[start]? = some { epsilons := [body, exit], lazy, loopHead := some loop }
  /-- The last state of the body ends an iteration. -/
  back_state : d'.states[back]? = some { epsilons := [start], loopBack := some loop }
  /-- Other states stay. -/
  states : ∀ id, id ≠ start → id ≠ back → d'.states[id]? = d.states[id]?
  /-- Everything else stays. -/
  grows : ∀ base, base ≤ back → Draft.Grows base start d d'

/-- A loop has been compiled: it has got its number, its body lies between two states, and the first
state and the last one of the two lead on. -/
structure TakesLoop (part : Build.Part) (layout : Layout) (last room : Nat) (lazy : Bool)
    (d : Draft) (start exit body back : Nat) (d₁ d₂ d₃ d' : Draft) : Prop where
  /-- The loop is counted. -/
  draft_eq : d₁ = { d with loopCount := d.loopCount + 1 }
  /-- Nothing else changes. -/
  grows : ∀ base start, Draft.Grows base start d d₁
  /-- The body can be compiled then. -/
  booked : d₁.Booked
  /-- Its groups have been reserved. -/
  room_lt : room < d₁.groups.size
  /-- Two states are made. -/
  brackets : Brackets d₁ body back false d₂
  /-- They are all that is made. -/
  brackets_eq : d₂ = { d₁ with states := d₂.states }
  /-- The body is compiled between them. -/
  compiles : part body (some back) d₂ = .ok (back, d₃)
  /-- It is laid out. -/
  laid : Laid d₂ body (some back) back d₃ layout last
  /-- Nothing leads on from the first state yet. -/
  bare : d₃.states[start]? = some {}
  /-- Then the states lead on. -/
  loops : Loops d.loopCount start body back exit lazy d₃ d'

/-- A loop gets its number, its body is compiled between two states, and the first state and
the last one of the two are made to lead on. -/
theorem Lays.takesLoop {part : Build.Part} {layout : Layout} {last : Nat} {lazy : Bool}
    (h : Lays room part (fun _ => layout) fun _ => last) (hd : d.Booked)
    (hroom : room < d.groups.size) (hready : Ready d start accept)
    (hrun : Build.loop part lazy exit start d = .ok ((), d')) :
    ∃ body back d₁ d₂ d₃,
      TakesLoop part layout last room lazy d start exit body back d₁ d₂ d₃ d' := by
  obtain ⟨loop, d₁, hloop, hrun⟩ := Build.bind_eq_ok.1 hrun
  obtain ⟨rfl, hd₁⟩ := Build.addLoop_eq_ok.1 hloop
  obtain ⟨body, _, hbody, hrun⟩ := Build.bind_eq_ok.1 hrun
  obtain ⟨back, d₂, hback, hrun⟩ := Build.bind_eq_ok.1 hrun
  obtain ⟨exit₁, d₃, hpart, hrun⟩ := Build.bind_eq_ok.1 hrun
  obtain ⟨_, d₄, hupdate, hrun⟩ := Build.bind_eq_ok.1 hrun
  have hd₄ := Build.update_eq_ok.1 hupdate
  have hd' := Build.update_eq_ok.1 hrun
  obtain ⟨hb, hdraft₂⟩ := brackets_addState hbody hback
  have hgrows₁ (base start : Nat) : Draft.Grows base start d d₁ := by
    rw [hd₁]
    exact Draft.grows_addLoop
  have hbooked₁ := (hgrows₁ 0 0).booked hd
  have hroom₁ := Nat.lt_of_lt_of_le hroom (hgrows₁ 0 0).groups_le
  have hready₁ : Ready d₁ start accept := by
    rw [hd₁]
    exact ⟨hready.bare, hready.accept⟩
  -- The body.
  have hlaid := h.body hb hbooked₁ hroom₁ hpart
  obtain rfl : exit₁ = back := hlaid.ends.given _ rfl
  have hbare := (hb.ready_body hlaid.grows hready₁).bare
  -- The two states.
  have hlast := hb.last_eq
  have hne : exit₁ ≠ start := by
    have := hready₁.lt_size
    omega
  have hget (id : Nat) : d₄.states[id]? =
      if id = exit₁ then some { epsilons := [start], loopBack := some d.loopCount }
      else d₃.states[id]? := by
    rw [hd₄]
    exact getElem?_modify_state (hb.last_body hlaid.grows) _ id
  have hget' (id : Nat) : d'.states[id]? =
      if id = start then some { epsilons := [body, exit], lazy, loopHead := some d.loopCount }
      else d₄.states[id]? := by
    rw [hd']
    exact getElem?_modify_state ((hget start).trans ((if_neg (Ne.symm hne)).trans hbare)) _ id
  have hloops : Loops d.loopCount start body exit₁ exit lazy d₃ d' := by
    refine ⟨by rw [hd', hd₄], by rw [hd', hd₄]; simp, ?_, ?_, fun id hid hid' => ?_,
      fun base hbase => ?_⟩
    · rw [hget', if_pos rfl]
    · rw [hget', if_neg hne, hget, if_pos rfl]
    · rw [hget', if_neg hid, hget, if_neg hid']
    · have hgrows₄ : Draft.Grows base start d₃ d₄ := by
        rw [hd₄]
        exact Draft.grows_update (.inr hbase) _
      rw [hd']
      exact hgrows₄.trans (Draft.grows_update (.inl rfl) _)
  exact ⟨body, exit₁, d₁, d₂, d₃, hd₁, hgrows₁, hbooked₁, hroom₁, hb, hdraft₂, hpart, hlaid, hbare,
    hloops⟩

theorem Lays.loop {part : Build.Part} {layout : Layout} {last : Nat}
    (h : Lays room part (fun _ => layout) fun _ => last) (lazy : Bool) :
    LaysTo room (fun start exit => Build.loop part lazy exit start)
      (fun _ => layout.loop lazy) fun _ => last := by
  intro d start exit d' hd hroom hready hrun
  obtain ⟨body, back, d₁, d₂, d₃, hloop⟩ := h.takesLoop hd hroom hready hrun
  have hb : Brackets d body back false d₂ := hloop.brackets.of_states_eq (by rw [hloop.draft_eq])
    fun start => hloop.grows _ start
  have hfields₂ : d₂.fragments.size = d.fragments.size ∧ d₂.loopCount = d.loopCount + 1 := by
    rw [hloop.brackets_eq, hloop.draft_eq]
    exact ⟨rfl, rfl⟩
  obtain ⟨hfragments₂, hloops₂⟩ := hfields₂
  have hfirst := hb.first_eq
  have hlast := hb.last_eq
  have hsize₂ := hb.size_eq
  have hstart := hready.lt_size
  obtain ⟨hexitne, hexitlt⟩ := hready.accept exit rfl
  have hlaid := hloop.laid
  have hsize₃ := hlaid.grows.size_le
  have hloops₃ := hlaid.grows.loopCount_le
  have hl := hloop.loops
  have hfields' : d'.fragments.size = d₃.fragments.size ∧ d'.loopCount = d₃.loopCount ∧
      d'.lastGroup = d₃.lastGroup := by
    rw [hl.draft_eq]
    exact ⟨rfl, rfl, rfl⟩
  obtain ⟨hfragments', hloops', hlast'⟩ := hfields'
  refine Laid.of_body (hb.grows start) hlaid.grows (hl.grows _ (by omega)) (.inr (by omega))
    hfragments₂ hfragments' ⟨fun id h => Option.some.inj h, fun h => by cases h⟩
    (by rw [hlast', hlaid.lastGroup_eq])
    (fun id hid hne hlt => ⟨by omega, hl.states id (by omega) hne⟩) hlaid.places
    fun site ranges hcovers hfits hplaces => ?_
  obtain ⟨inner, hrank, hlayout⟩ := hplaces
  have hguarded : site.guarded d.loopCount := by
    refine hfits.guarded (Nat.le_refl _) (by omega) fun id hlo hhi hloop => ?_
    have := hcovers id (by omega) (by omega)
    omega
  have hsite := hfits.size
  have hsiteloops := hfits.loops
  have hsize' := hl.size_eq
  simp only [spare_some] at hrank ⊢
  rw [hloops₂, ← hloops'] at hlayout
  refine ⟨1, by omega, inner, body, back, rfl, by omega, by omega, by omega, hguarded, by omega, ?_,
    hlayout, ?_⟩
  · exact hfits.states start { epsilons := [body, exit], lazy, loopHead := some d.loopCount }
      (.inl rfl) (Ne.symm hexitne) hl.head_state
  · exact hfits.states back { epsilons := [start], loopBack := some d.loopCount } (.inr (by omega))
      (by omega) hl.back_state

/-- So many copies of a part, of which the last ends where it has to. -/
theorem Lays.copiesTo {part : Build.Part} {layout : Layout} {last : Nat}
    (h : Lays room part (fun _ => layout) fun _ => last) (n : Nat) :
    Lays room (fun start accept => do
      let next ← Build.copies part n start
      part next accept) (fun _ => layout.copies (n + 1)) fun _ => last := by
  induction n with
  | zero =>
    refine h.mono _ fun _ site rank lo hi start exit hle hlayout => ?_
    exact ⟨rank, 0, hi, exit, rfl, hle, hlayout, rfl, .inl ⟨rfl, rfl⟩⟩
  | succ n ih =>
    intro d start accept exit d' hd hroom hready hrun
    refine (h.seq ih) d start accept exit d' hd hroom hready ?_
    obtain ⟨last, d₁, hcopies, hrun⟩ := Build.bind_eq_ok.1 hrun
    obtain ⟨next, d₂, hpart, hcopies⟩ := Build.bind_eq_ok.1 hcopies
    exact Build.bind_eq_ok.2 ⟨next, d₂, hpart, Build.bind_eq_ok.2 ⟨last, d₁, hcopies, hrun⟩⟩

/-- A copy of a part numbers its groups as the other copies do. -/
theorem Lays.copy {part : Build.Part} {layout : Nat → Layout} {last : Nat → Nat}
    (h : Lays 0 part layout last) (base : Nat) :
    Lays base (fun start accept => do
      Build.setLastGroup base
      part start accept) (fun _ => layout base) fun _ => last base := by
  intro d start accept exit d' hd hroom hready hrun
  obtain ⟨_, d₁, hmodify, hrun⟩ := Build.bind_eq_ok.1 hrun
  have hgrows : Draft.Grows d.states.size start d d₁ := by
    rw [Build.modify_eq_ok.1 hmodify]
    exact Draft.grows_lastGroup fun _ => hroom
  obtain rfl := Build.modify_eq_ok.1 hmodify
  have hlaid := h _ start accept exit d' (hgrows.booked hd)
    (Nat.lt_of_le_of_lt (Nat.zero_le _) hroom) ⟨hready.bare, hready.accept⟩ hrun
  exact Laid.of_body hgrows hlaid.grows (.refl _ _ d') (.inl rfl) rfl rfl
    ⟨hlaid.ends.given, hlaid.ends.made⟩ hlaid.lastGroup_eq
      (fun id _ hne _ => ⟨hne, rfl⟩) hlaid.places
    fun _ _ _ _ hplaces => hplaces

theorem Lays.repeated {part : Build.Part} {layout : Nat → Layout} {last : Nat → Nat}
    (h : Lays 0 part layout last) (min : Nat) (max : Option Nat)
    (hmax : ∀ max', max = some max' → min ≤ max') (lazy : Bool) :
    Lays 0 (Build.repeated part min max lazy)
      (fun base => (layout base).repeated min max lazy)
      fun base => if max = some 0 then base else last base := by
  intro d start accept exit d' hd _ hready hrun
  obtain ⟨_, _, hget, hbranch⟩ := Build.bind_eq_ok.1 hrun
  obtain ⟨rfl, rfl⟩ := Build.get_eq_ok.1 hget
  clear hrun hget
  have hcopy := h.copy d.lastGroup
  have hlast := hd.lastGroup_lt
  by_cases hexact : max = some min ∧ 0 < min
  · simp only [if_pos hexact] at hbranch
    obtain ⟨n, rfl⟩ : ∃ n, min = n + 1 := ⟨min - 1, by omega⟩
    obtain ⟨rfl, -⟩ := hexact
    have hlays := (hcopy.copiesTo n).mono
      (fun _ => (layout d.lastGroup).repeated (n + 1) (some (n + 1)) lazy)
      fun _ site rank lo hi start exit hle hlayout => by
        refine ⟨rank, 0, hi, exit, rfl, hle, hlayout, ?_⟩
        dsimp only
        rw [Nat.sub_self]
        exact ⟨rfl, .inl ⟨rfl, rfl⟩⟩
    simpa using hlays d start accept exit d' hd hlast hready hbranch
  · simp only [if_neg hexact] at hbranch
    cases max with
    | none =>
      have hlaid := hcopy.copies (hcopy.loop lazy).withTarget min d start accept exit d' hd hlast
        hready hbranch
      simpa [Layout.repeated] using hlaid
    | some max =>
      have hle := hmax max rfl
      by_cases heq : min = max
      · subst heq
        obtain rfl : min = 0 := by
          by_contra hne
          exact hexact ⟨rfl, by omega⟩
        simp only [if_pos] at hbranch
        have hlaid := hcopy.copies laysTo_addEpsilon.withTarget 0 d start accept exit d' hd hlast
          hready hbranch
        simpa [Layout.repeated, Layout.optionalCopies] using hlaid
      · obtain ⟨n, hn⟩ : ∃ n, max - min = n + 1 := ⟨max - min - 1, by omega⟩
        simp only [if_neg heq, hn] at hbranch
        have hlaid :=
          hcopy.copies (laysTo_optionalCopies hcopy lazy n).withTarget min d start accept
          exit d' hd hlast hready hbranch
        have hzero : max ≠ 0 := by omega
        simpa [Layout.repeated, hn, hzero] using hlaid

end

end RegexEngine.Automaton
