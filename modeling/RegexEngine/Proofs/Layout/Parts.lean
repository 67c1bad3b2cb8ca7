import RegexEngine.Proofs.Layout.Fits

/-!
# Compiling single states, groups and fragments

* `lays_update` is about a state that leads on by an action or a transition.
* `lays_text` is about characters, which are consumed by a chain of states or at once.
* `Brackets` is about two states between which a body is compiled.
* `Lays.takesGroup` says how a group is compiled.
* `Lays.capture` and `Lays.around` are about what has a body.
-/

namespace RegexEngine.Automaton

section

variable {d d' : Draft} {start exit room : Nat} {accept : Option Nat}

/-! ## Single states -/

/-- The last state of a part has been made, if none was given. -/
structure Targets (d : Draft) (start : Nat) (accept : Option Nat) (exit : Nat) (d' : Draft) :
    Prop where
  /-- Only states are made. -/
  draft_eq : d' = { d with states := d'.states }
  /-- Nothing leads on from the first state yet. -/
  bare : d'.states[start]? = some {}
  /-- The last state is another one. -/
  ne : exit ≠ start
  /-- It exists. -/
  lt_size : exit < d'.states.size
  /-- At most one state has been made. -/
  size_eq : d'.states.size + spare accept = d.states.size + 1
  /-- Other states stay. -/
  states : ∀ id, id < d.states.size → d'.states[id]? = d.states[id]?
  /-- The part ends there. -/
  ends : Ends d start accept exit d'
  /-- Nothing is lost. -/
  grows : ∀ base s, base ≤ d.states.size → Draft.Grows base s d d'

theorem targets_target (hready : Ready d start accept)
    (hrun : Build.target accept d = .ok (exit, d')) : Targets d start accept exit d' := by
  have hlt := hready.lt_size
  cases accept with
  | some id =>
    obtain ⟨rfl, rfl⟩ := Build.pure_eq_ok.1 hrun
    obtain ⟨hne, hlt⟩ := hready.accept _ rfl
    exact ⟨rfl, hready.bare, hne, hlt, rfl, fun _ _ => rfl,
      ⟨fun _ h => Option.some.inj h, fun h => by cases h⟩, fun _ _ _ => .refl _ _ _⟩
  | none =>
    obtain ⟨rfl, rfl⟩ := Build.addState_eq_ok.1 hrun
    refine ⟨rfl, ?_, by omega, by simp, by simp, fun id hid => ?_,
      ⟨fun _ h => (by cases h), fun _ => ⟨.inr (Nat.le_refl _), by simp⟩⟩,
      fun base s hbase => Draft.grows_addState hbase⟩
    · rw [Array.getElem?_push_lt hlt]
      simpa [hlt] using hready.bare
    · rw [Array.getElem?_push_lt hid]
      simp [hid]

/-- A part can be compiled between the first state and the last one. -/
theorem Targets.ready (h : Targets d start accept exit d') : Ready d' start (some exit) :=
  ⟨h.bare, fun id hid => by cases hid; exact ⟨h.ne, h.lt_size⟩⟩

/-- The last state of a part is not one of those that have been made for its body. -/
theorem Targets.exit_outside {d₁ d₂ : Draft} (h : Targets d₁ start accept exit d₂)
    (hready : Ready d start accept) : exit < d.states.size ∨ d₁.states.size ≤ exit := by
  cases haccept : accept with
  | none =>
    obtain ⟨hexit, -⟩ := h.ends.made haccept
    have := h.ne
    omega
  | some id =>
    rw [h.ends.given id haccept]
    exact .inl (hready.accept id haccept).2

/-- What the states are after one of them has been changed. -/
theorem getElem?_modify_state {states : Array State} {id : Nat} {s : State}
    (h : states[id]? = some s) (f : State → State) (i : Nat) :
    (states.modify id f)[i]? = if i = id then some (f s) else states[i]? := by
  rw [Array.getElem?_modify]
  by_cases hi : i = id
  · subst hi
    rw [if_pos rfl, if_pos rfl, h]
    rfl
  · rw [if_neg (Ne.symm hi), if_neg hi]

/-- The last state is made, and the first state is made to lead on. -/
theorem leadsOn_eq_ok {f : Nat → State → State} :
    (do
      let exit ← Build.target accept
      Build.update start (f exit)
      return exit : Build Nat) d = .ok (exit, d') ↔
    ∃ d₁, Build.target accept d = .ok (exit, d₁) ∧
      d' = { d₁ with states := d₁.states.modify start (f exit) } := by
  constructor
  · intro hrun
    obtain ⟨exit₁, d₁, htarget, hrun⟩ := Build.bind_eq_ok.1 hrun
    obtain ⟨_, _, hupdate, hrun⟩ := Build.bind_eq_ok.1 hrun
    obtain rfl := Build.update_eq_ok.1 hupdate
    obtain ⟨rfl, rfl⟩ := Build.pure_eq_ok.1 hrun
    exact ⟨d₁, htarget, rfl⟩
  · intro h
    obtain ⟨d₁, htarget, rfl⟩ := h
    exact Build.bind_eq_ok.2 ⟨exit, d₁, htarget,
      Build.bind_eq_ok.2 ⟨(), _, Build.update_eq_ok.2 rfl, Build.pure_eq_ok.2 ⟨rfl, rfl⟩⟩⟩

/-- A part that only says how its first state leads on. -/
theorem lays_update {f : Nat → State → State} {layout : Layout}
    (h : ∀ site lo start exit,
      site.automaton.states[start]? = some ((f exit {}).resolve site.automaton.slot?) →
        layout site 1 lo lo start exit) :
    Lays room (fun start accept => do
      let exit ← Build.target accept
      Build.update start (f exit)
      return exit) (fun _ => layout) id := by
  intro d start accept exit d' hd _ hready hrun
  obtain ⟨d₁, htarget, rfl⟩ := leadsOn_eq_ok.1 hrun
  have ht := targets_target hready htarget
  have hne := ht.ne
  have hsize := ht.size_eq
  have hdraft := ht.draft_eq
  have hget := getElem?_modify_state ht.bare (f exit)
  refine ⟨(ht.grows _ _ (Nat.le_refl _)).trans (Draft.grows_update (.inl rfl) _),
    ⟨ht.ends.given, fun haccept => ?_⟩, by rw [hdraft]; rfl, fun _ => (0, 0), fun id hlo hhi => ?_,
    fun site hfits => ⟨1, ?_, ?_⟩⟩
  · obtain ⟨hexit, hbare⟩ := ht.ends.made haccept
    exact ⟨hexit, by rw [hget, if_neg hne, hbare]⟩
  · rw [hdraft] at hhi
    simp only at hlo hhi
    omega
  · simp only [Array.size_modify]
    omega
  · have hlo : d₁.loopCount = d.loopCount := by rw [hdraft]
    show layout site 1 d.loopCount d₁.loopCount start exit
    rw [hlo]
    exact h site _ start _
      (hfits.states start _ (.inl rfl) (Ne.symm hne) (by rw [hget, if_pos rfl]))

theorem lays_oneOf (set : CharSet) : Lays room (Build.oneOf set) (fun _ => .step (.oneOf set)) id :=
  lays_update (f := fun exit s => { s with transition := some ⟨.oneOf set, exit⟩ })
    fun _ _ _ _ hstate => ⟨rfl, rfl, hstate⟩

theorem lays_look (look : Look) : Lays room (Build.look look) (fun _ => .step (.look look)) id :=
  lays_update (f := fun exit s => { s with transition := some ⟨.look look, exit⟩ })
    fun _ _ _ _ hstate => ⟨rfl, rfl, hstate⟩

theorem lays_reference (ignoreCase : Bool) (key : GroupKey) :
    Lays room (Build.reference ignoreCase key) (fun _ => .reference ignoreCase key) id :=
  lays_update (f := fun exit s => { s with action := .reference key none ignoreCase exit })
    fun _ _ _ _ hstate => ⟨rfl, rfl, hstate⟩

theorem lays_skip : Lays room Build.skip (fun _ => .skip) id := by
  intro d start accept exit d' hd hroom hready hrun
  cases accept with
  | none =>
    obtain ⟨rfl, rfl⟩ := Build.pure_eq_ok.1 hrun
    exact ⟨.refl _ _ _, ⟨fun _ h => (by cases h), fun _ => ⟨.inl rfl, hready.bare⟩⟩, rfl,
      fun _ => (0, 0), fun id hlo hhi => by omega,
      fun site _ => ⟨0, by simp, rfl, .inl ⟨rfl, rfl⟩⟩⟩
  | some id =>
    exact lays_update (f := fun exit s => { s with epsilons := s.epsilons ++ [exit] })
      (fun _ _ _ _ hstate => ⟨rfl, .inr ⟨hstate, rfl⟩⟩) d start
        (some id) exit d' hd hroom hready hrun

theorem Lays.mono {part : Build.Part} {layout : Nat → Layout} {last : Nat → Nat}
    (h : Lays room part layout last) (layout' : Nat → Layout)
    (hmono : ∀ base site rank lo hi start exit, lo ≤ hi →
      layout base site rank lo hi start exit → layout' base site rank lo hi start exit) :
    Lays room part layout' last := by
  intro d start accept exit d' hd hroom hready hrun
  obtain ⟨hgrows, hends, hlast, ranges, hcovers, hplaces⟩ :=
    h d start accept exit d' hd hroom hready hrun
  refine ⟨hgrows, hends, hlast, ranges, hcovers, fun site hfits => ?_⟩
  obtain ⟨rank, hrank, hlayout⟩ := hplaces site hfits
  exact ⟨rank, hrank, hmono _ _ _ _ _ _ _ hgrows.loopCount_le hlayout⟩

theorem lays_chain (ignoreCase : Bool) {chars : List Char} (h : chars ≠ []) :
    Lays room (Build.chain ignoreCase chars)
      (fun _ => .links (chars.map (Build.charSet ignoreCase))) id := by
  induction chars with
  | nil => exact absurd rfl h
  | cons c chars ih =>
    cases chars with
    | nil =>
      refine (lays_oneOf (Build.charSet ignoreCase c)).mono _ ?_
      rintro _ site rank lo hi start exit - ⟨rfl, rfl, hstate⟩
      exact ⟨1, 0, lo, exit, rfl, Nat.le_refl _, ⟨rfl, rfl, hstate⟩, rfl, rfl, rfl⟩
    | cons c' chars => exact (lays_oneOf _).seq (ih (by simp))

/-- A chain of characters is made of links. -/
theorem chain_of_links {site : Site} {chars : List Char} {rank lo hi start exit : Nat}
    (h : Layout.links (chars.map (Build.charSet false)) site rank lo hi start exit) :
    site.automaton.Chain chars start exit ∧ rank = chars.length ∧ lo = hi := by
  induction chars generalizing rank lo start with
  | nil =>
    obtain ⟨rfl, rfl, rfl⟩ := h
    exact ⟨rfl, rfl, rfl⟩
  | cons c chars ih =>
    obtain ⟨_, rank', _, mid, rfl, -, ⟨rfl, rfl, hstate⟩, hrest⟩ := h
    obtain ⟨hchain, rfl, rfl⟩ := ih hrest
    exact ⟨⟨mid, hstate, hchain⟩, by simp [Nat.add_comm], rfl⟩

/-- A text of one character is consumed at once. -/
theorem lays_text_single (c : Char) :
    Lays room (Build.text false [c]) (fun _ => .text false [c]) id := by
  intro d start accept exit d' hd hroom hready hrun
  have hlays : Lays room _ (fun _ => .text false [c]) id := lays_update (f := fun exit s =>
    { s with transition := some ⟨.oneOf (Build.charSet false c), exit⟩, action := .text [c] exit })
    fun site lo start exit hstate => by
      rw [Layout.text, if_neg (by simp), if_neg (by simp)]
      exact ⟨rfl, rfl, _, hstate, c, [], exit, rfl, rfl, rfl⟩
  refine hlays d start accept exit d' hd hroom hready (leadsOn_eq_ok.2 ?_)
  obtain ⟨exit₁, d₁, hone, hrun⟩ := Build.bind_eq_ok.1 hrun
  obtain ⟨d₂, htarget, rfl⟩ := leadsOn_eq_ok.1 hone
  obtain ⟨_, _, hupdate, hrun⟩ := Build.bind_eq_ok.1 hrun
  obtain rfl := Build.update_eq_ok.1 hupdate
  obtain ⟨rfl, rfl⟩ := Build.pure_eq_ok.1 hrun
  refine ⟨d₂, htarget, ?_⟩
  congr 1
  refine Array.ext_getElem? fun i => ?_
  simp only [Array.getElem?_modify]
  cases d₂.states[i]? <;> split <;> rfl

/-- A state has been made to consume one character. -/
structure Consumes (set : CharSet) (d : Draft) (start : Nat) (accept : Option Nat) (exit : Nat)
    (d' : Draft) : Prop where
  /-- Only states are made. -/
  draft_eq : d' = { d with states := d'.states }
  /-- The state leads to the last one. -/
  state : d'.states[start]? = some { transition := some ⟨.oneOf set, exit⟩ }
  /-- The last state is another one. -/
  ne : exit ≠ start
  /-- At most one state has been made. -/
  size_eq : d'.states.size + spare accept = d.states.size + 1

theorem consumes_oneOf {set : CharSet} (hready : Ready d start accept)
    (hrun : Build.oneOf set start accept d = .ok (exit, d')) :
    Consumes set d start accept exit d' := by
  obtain ⟨d₁, htarget, rfl⟩ := leadsOn_eq_ok.1 hrun
  have ht := targets_target hready htarget
  refine ⟨?_, ?_, ht.ne, ?_⟩
  · rw [ht.draft_eq]
  · rw [getElem?_modify_state ht.bare, if_pos rfl]
  · rw [← ht.size_eq]
    simp

/-- A text is consumed at once by the first of the states that consume its characters. -/
theorem lays_text_cons (c c' : Char) (chars : List Char) :
    Lays room (Build.text false (c :: c' :: chars))
      (fun _ => .text false (c :: c' :: chars)) id := by
  intro d start accept exit d' hd hroom hready hrun
  obtain ⟨exit₁, d₂, hchain, hrun⟩ := Build.bind_eq_ok.1 hrun
  obtain ⟨_, _, hupdate, hrun⟩ := Build.bind_eq_ok.1 hrun
  obtain rfl := Build.update_eq_ok.1 hupdate
  obtain ⟨rfl, rfl⟩ := Build.pure_eq_ok.1 hrun
  obtain ⟨mid, d₁, hone, hchain⟩ := Build.bind_eq_ok.1 hchain
  -- The first character.
  obtain ⟨hdraft₁, hstate₁, hmid, hsize₁⟩ := consumes_oneOf hready.free hone
  have hone := lays_oneOf _ d start none mid d₁ hd hroom hready.free hone
  have hgrows₁ := hone.grows
  obtain ⟨hd₁, hroom₁, hready₁⟩ := hone.followed hd hroom hready
  have hnew := (hone.ends.made rfl).1
  have hstart := hready.lt_size
  have hle₁ := hgrows₁.size_le
  -- The other ones.
  have hlaid := lays_chain false (List.cons_ne_nil c' chars) d₁ mid accept exit₁ d₂ hd₁ hroom₁
    hready₁ hchain
  have hstate₂ := (hlaid.grows.states start (Nat.lt_of_lt_of_le hstart hgrows₁.size_le)
    (Ne.symm hmid)).trans hstate₁
  have hget := getElem?_modify_state hstate₂ fun s =>
    { s with action := .text (c :: c' :: chars) exit₁ }
  have hexit : exit₁ ≠ start := by
    cases haccept : accept with
    | none =>
      have := (hlaid.ends.made haccept).1
      omega
    | some id =>
      rw [hlaid.ends.given id haccept]
      exact (hready.accept id haccept).1
  refine Laid.of_body hgrows₁ hlaid.grows (Draft.grows_update (.inl rfl) _) (by omega)
    (by rw [hdraft₁]) rfl ⟨hlaid.ends.given, fun haccept => ?_⟩
      (hlaid.lastGroup_eq.trans (by rw [hdraft₁]))
    (fun id hid hne hlt => ⟨hne, by rw [hget, if_neg (by omega)]⟩) hlaid.places
    fun site ranges _ hfits hplaces => ?_
  · obtain ⟨hexit', hbare⟩ := hlaid.ends.made haccept
    exact ⟨by omega, by rw [hget, if_neg hexit, hbare]⟩
  · obtain ⟨rank, hrank, hlayout⟩ := hplaces
    obtain ⟨hrest, rfl, hloops⟩ := chain_of_links hlayout
    have hloops₁ : d₁.loopCount = d.loopCount := by rw [hdraft₁]
    rw [hloops₁] at hloops
    simp only [spare_none, List.length_cons] at hsize₁ hrank
    refine ⟨(c :: c' :: chars).length, ?_, ?_⟩
    · simp only [Array.size_modify, List.length_cons]
      omega
    · have hstate := hfits.states start
        { action := .text (c :: c' :: chars) exit₁, transition := some ⟨.oneOf (.ofChar c), mid⟩ }
        (.inl rfl) (Ne.symm hexit) (by rw [hget, if_pos rfl]; rfl)
      show Layout.text false (c :: c' :: chars) site _ _ _ start exit₁
      rw [Layout.text, if_neg (by simp), if_neg (by simp)]
      exact ⟨hloops, rfl, _, hstate, c, c' :: chars, mid, rfl, hrest, rfl⟩

theorem lays_text (ignoreCase : Bool) (chars : List Char) :
    Lays room (Build.text ignoreCase chars) (fun _ => .text ignoreCase chars) id := by
  -- Without a state to be marked a text is only its chain.
  have hchain (layout : Nat → Layout) (hlays : Lays room (Build.chain ignoreCase chars) layout id)
      (hmark : (!chars.isEmpty && !ignoreCase) = false) :
      Lays room (Build.text ignoreCase chars) layout id := by
    intro d start accept exit d' hd hroom hready hrun
    refine hlays d start accept exit d' hd hroom hready ?_
    obtain ⟨exit₁, d₁, hchain, hrun⟩ := Build.bind_eq_ok.1 hrun
    rw [hmark] at hrun
    obtain ⟨rfl, rfl⟩ := Build.pure_eq_ok.1 hrun
    exact hchain
  match ignoreCase, chars with
  | _, [] => exact hchain _ (lays_skip.mono _ fun _ _ _ _ _ _ _ _ h => h) (by simp)
  | true, c :: chars =>
    exact hchain _ ((lays_chain true (by simp)).mono _ fun _ _ _ _ _ _ _ _ h => h) (by simp)
  | false, [c] => exact lays_text_single c
  | false, c :: c' :: chars => exact lays_text_cons c c' chars

/-! ## Bodies -/

/-- Two states are made, between which a body is to be compiled.  Nothing leads on from
them yet. -/
structure Brackets (d : Draft) (first last : Nat) (accepting : Bool) (d₁ : Draft) : Prop where
  /-- The first one is new. -/
  first_eq : first = d.states.size
  /-- The last one comes next. -/
  last_eq : last = d.states.size + 1
  /-- There are no others. -/
  size_eq : d₁.states.size = d.states.size + 2
  /-- Nothing leads on from the first one. -/
  bare : d₁.states[first]? = some {}
  /-- Nothing leads on from the last one. -/
  last_bare : d₁.states[last]? = some { accepting }
  /-- Everything else stays. -/
  grows : ∀ start, Draft.Grows d.states.size start d d₁

theorem brackets_addState {d₁ d₂ : Draft} {first last : Nat}
    (hfirst : Build.addState d = .ok (first, d₁)) (hlast : Build.addState d₁ = .ok (last, d₂)) :
    Brackets d first last false d₂ ∧ d₂ = { d with states := d₂.states } := by
  obtain ⟨rfl, rfl⟩ := Build.addState_eq_ok.1 hfirst
  obtain ⟨rfl, rfl⟩ := Build.addState_eq_ok.1 hlast
  refine ⟨⟨rfl, by simp, by simp, ?_, Array.getElem?_push_size, fun _ =>
    (Draft.grows_addState (Nat.le_refl _)).trans (Draft.grows_addState (by simp))⟩, rfl⟩
  rw [Array.getElem?_push, if_neg (by simp), Array.getElem?_push_size]

namespace Brackets

variable {d₁ d₂ : Draft} {first last : Nat} {accepting : Bool}

/-- The last state may be made to accept. -/
theorem accepts (h : Brackets d first last accepting d₁) :
    Brackets d first last true
      { d₁ with states := d₁.states.modify last fun s => { s with accepting := true } } := by
  have hfirst := h.first_eq
  have hlast := h.last_eq
  have hget := getElem?_modify_state h.last_bare fun s => { s with accepting := true }
  refine ⟨hfirst, hlast, by simp [h.size_eq], ?_, by rw [hget, if_pos rfl], fun start =>
    (h.grows start).trans (Draft.grows_update (.inr (by omega)) _)⟩
  rw [hget, if_neg (by omega), h.bare]

/-- Something else may be made before the two states. -/
theorem of_states_eq (h : Brackets d₁ first last accepting d₂) (hstates : d₁.states = d.states)
    (hgrows : ∀ start, Draft.Grows d.states.size start d d₁) :
    Brackets d first last accepting d₂ := by
  obtain ⟨hfirst, hlast, hsize, hbare, hlastbare, hgrows'⟩ := h
  rw [hstates] at hfirst hlast hsize hgrows'
  exact ⟨hfirst, hlast, hsize, hbare, hlastbare, fun start => (hgrows start).trans (hgrows' start)⟩

/-- The body is compiled between the two states. -/
theorem ready (h : Brackets d first last accepting d₁) : Ready d₁ first (some last) := by
  have hfirst := h.first_eq
  have hlast := h.last_eq
  have hsize := h.size_eq
  exact ⟨h.bare, fun id hid => by cases hid; omega⟩

/-- The states from before stay when the body is compiled. -/
theorem states_body (h : Brackets d first last accepting d₁)
    (hbody : Draft.Grows d₁.states.size first d₁ d₂) {id : Nat} (hid : id < d.states.size) :
    d₂.states[id]? = d.states[id]? := by
  have hfirst := h.first_eq
  have hsize := h.size_eq
  exact (hbody.states id (by omega) (by omega)).trans ((h.grows first).states id hid (by omega))

/-- The last state stays when the body is compiled. -/
theorem last_body (h : Brackets d first last accepting d₁)
    (hbody : Draft.Grows d₁.states.size first d₁ d₂) : d₂.states[last]? = some { accepting } := by
  have hfirst := h.first_eq
  have hlast := h.last_eq
  have hsize := h.size_eq
  exact (hbody.states last (by omega) (by omega)).trans h.last_bare

/-- After the body has been compiled what comes next can be. -/
theorem ready_body (h : Brackets d first last accepting d₁)
    (hbody : Draft.Grows d₁.states.size first d₁ d₂) (hready : Ready d start accept) :
    Ready d₂ start accept := by
  refine ⟨(h.states_body hbody hready.lt_size).trans hready.bare, fun id hid => ?_⟩
  obtain ⟨hne, hlt⟩ := hready.accept id hid
  have hsize := h.size_eq
  have hsize' := hbody.size_le
  exact ⟨hne, by omega⟩

end Brackets

/-- A body is laid out between its two states. -/
theorem Lays.body {part : Build.Part} {layout : Nat → Layout} {last : Nat → Nat} {d₁ d₂ : Draft}
    {first close : Nat} {accepting : Bool} (h : Lays room part layout last)
    (hb : Brackets d first close accepting d₁) (hd : d.Booked) (hroom : room < d.groups.size)
    (hrun : part first (some close) d₁ = .ok (exit, d₂)) :
    Laid d₁ first (some close) exit d₂ (layout d₁.lastGroup) (last d₁.lastGroup) :=
  h d₁ first (some close) exit d₂ ((hb.grows 0).booked hd)
    (Nat.lt_of_lt_of_le hroom (hb.grows 0).groups_le) hb.ready hrun

/-! ## Groups -/

/-- A group is opened and two states are made for its body. -/
structure Opened (key : GroupKey) (numbered slot : Nat) (d : Draft) (body close : Nat)
    (d₁ : Draft) :
    Prop extends Brackets d body close false d₁ where
  /-- The group has the slot. -/
  slot?_eq : d₁.slot? key = some slot
  /-- The group may have been numbered. -/
  lastGroup_eq : d₁.lastGroup = d.lastGroup + numbered
  /-- No fragment is made. -/
  fragments_eq : d₁.fragments = d.fragments
  /-- No loop is made. -/
  loopCount_eq : d₁.loopCount = d.loopCount
  /-- A capture is counted. -/
  captureCount_eq : d₁.captureCount = d.captureCount + 1

/-- A group is compiled after its body: the last state of the body closes it, and the first
state opens it. -/
structure Closes (slot start body close exit : Nat) (d d₁ d' : Draft) : Prop where
  /-- Only states are changed, and a region is noted. -/
  draft_eq : d' = { d₁ with states := d'.states, regions := d'.regions }
  /-- No state is made. -/
  size_eq : d'.states.size = d₁.states.size
  /-- The first state opens the group. -/
  opens : d'.states[start]? = some { action := .capture slot body close none }
  /-- The last state of the body closes it. -/
  closes : d'.states[close]? = some { action := .captureClose slot exit }
  /-- Other states stay. -/
  states : ∀ id, id ≠ start → id ≠ close → d'.states[id]? = d₁.states[id]?
  /-- Everything else stays. -/
  grows : ∀ base, base ≤ close → base ≤ d.states.size → Draft.Grows base start d d'

theorem closes_of_targets {d₁ d₂ d₃ : Draft} {slot body close : Nat}
    (ht : Targets d start accept exit d₁) (hbare : d.states[close]? = some {}) (hne : close ≠ start)
    (hcloses : Build.setAction close (.captureClose slot exit) d₁ = .ok ((), d₂))
    (hopens : Build.setAction start (.capture slot body close none) d₂ = .ok ((), d₃))
    (hregion : Build.addRegion (.capture start) d₃ = .ok ((), d')) :
    Closes slot start body close exit d d₁ d' := by
  have hlt := (Array.getElem?_eq_some_iff.1 hbare).1
  have hd₂ := Build.update_eq_ok.1 hcloses
  have hd₃ := Build.update_eq_ok.1 hopens
  have hd' := Build.modify_eq_ok.1 hregion
  have hget (id : Nat) : d₂.states[id]? =
      if id = close then some { action := .captureClose slot exit } else d₁.states[id]? := by
    rw [hd₂]
    exact getElem?_modify_state ((ht.states close hlt).trans hbare) _ id
  have hget' (id : Nat) : d'.states[id]? =
      if id = start then some { action := .capture slot body close none } else d₂.states[id]? := by
    rw [hd', hd₃]
    exact getElem?_modify_state ((hget start).trans ((if_neg (Ne.symm hne)).trans ht.bare)) _ id
  refine ⟨by rw [hd', hd₃, hd₂], by rw [hd', hd₃, hd₂]; simp, ?_, ?_, fun id hid hid' => ?_,
    fun base hclose hbase => (ht.grows _ _ hbase).trans ?_⟩
  · rw [hget', if_pos rfl]
  · rw [hget', if_neg hne, hget, if_pos rfl]
  · rw [hget', if_neg hid, hget, if_neg hid']
  · have hgrows₂ : Draft.Grows base start d₁ d₂ := by
      rw [hd₂]
      exact Draft.grows_update (.inr hclose) _
    have hgrows₃ : Draft.Grows base start d₂ d₃ := by
      rw [hd₃]
      exact Draft.grows_update (.inl rfl) _
    rw [hd']
    exact (hgrows₂.trans hgrows₃).trans (Draft.grows_regions _)

/-- A group has been compiled: it has been opened, its body lies between two states, and it has been
closed. -/
structure TakesGroup (part : Build.Part) (layout : Nat → Layout) (last : Nat → Nat) (key : GroupKey)
    (numbered slot : Nat) (d : Draft) (start : Nat) (accept : Option Nat) (exit body close : Nat)
    (d₁ d₂ d₃ d' : Draft) : Prop where
  /-- The group is opened. -/
  opened : Opened key numbered slot d body close d₁
  /-- Its body is compiled. -/
  compiles : part body (some close) d₁ = .ok (close, d₂)
  /-- The body is laid out. -/
  laid : Laid d₁ body (some close) close d₂ (layout d₁.lastGroup) (last d₁.lastGroup)
  /-- What follows the group can be compiled then. -/
  ready : Ready d₂ start accept
  /-- The last state is made. -/
  target_eq : Build.target accept d₂ = .ok (exit, d₃)
  /-- It is another one. -/
  targets : Targets d₂ start accept exit d₃
  /-- The group is closed. -/
  closes : Closes slot start body close exit d₂ d₃ d'

/-- A group is opened, its body is compiled, and the group is closed. -/
theorem Lays.takesGroup {part : Build.Part} {layout : Nat → Layout} {last : Nat → Nat}
    (h : Lays room part layout last) {name : Option String} {key : GroupKey} {numbered : Nat}
    (hopens : ∀ d' slot, Build.groupSlot name d = .ok (slot, d') →
      Draft.Opens key numbered slot d d')
    (hd : d.Booked) (hroom : room < d.groups.size) (hready : Ready d start accept)
    (hrun : Build.capture name part start accept d = .ok (exit, d')) :
    ∃ slot body close d₁ d₂ d₃,
      TakesGroup part layout last key numbered slot d start accept exit body close d₁ d₂ d₃ d' := by
  obtain ⟨slot, d₀, hslot, hrun⟩ := Build.bind_eq_ok.1 hrun
  obtain ⟨_, _, hcount, hrun⟩ := Build.bind_eq_ok.1 hrun
  obtain rfl := Build.modify_eq_ok.1 hcount
  obtain ⟨body, _, hbody, hrun⟩ := Build.bind_eq_ok.1 hrun
  obtain ⟨close, d₁, hclose, hrun⟩ := Build.bind_eq_ok.1 hrun
  obtain ⟨exit₁, d₂, hpart, hrun⟩ := Build.bind_eq_ok.1 hrun
  obtain ⟨exit₂, d₃, htarget, hrun⟩ := Build.bind_eq_ok.1 hrun
  obtain ⟨_, d₄, hcloses, hrun⟩ := Build.bind_eq_ok.1 hrun
  obtain ⟨_, d₅, hopens', hrun⟩ := Build.bind_eq_ok.1 hrun
  obtain ⟨_, d₆, hregion, hrun⟩ := Build.bind_eq_ok.1 hrun
  obtain ⟨rfl, rfl⟩ := Build.pure_eq_ok.1 hrun
  have ho := hopens d₀ slot hslot
  obtain ⟨hbrackets, hdraft⟩ := brackets_addState hbody hclose
  have hopened : Opened key numbered slot d body close d₁ := by
    refine ⟨hbrackets.of_states_eq ho.states_eq fun start => (ho.grows _ _).trans
      (Draft.grows_captureCount fun _ => ho.one_lt_slotCount), ?_, ?_, ?_, ?_, ?_⟩
    · rw [hdraft, ← ho.slot?_eq]
      cases key <;> rfl
    · rw [hdraft, ← ho.lastGroup_eq]
    · rw [hdraft, ← ho.fragments_eq]
    · rw [hdraft, ← ho.loopCount_eq]
    · rw [hdraft, ← ho.captureCount_eq]
  have hlaid := h.body hopened.toBrackets hd hroom hpart
  obtain rfl : exit₁ = close := hlaid.ends.given _ rfl
  have hready₂ := hopened.ready_body hlaid.grows hready
  have ht := targets_target hready₂ htarget
  have hne : exit₁ ≠ start := by
    have hstart := hready.lt_size
    have hlast := hopened.last_eq
    omega
  exact ⟨slot, body, exit₁, d₁, d₂, d₃, hopened, hpart, hlaid, hready₂, htarget, ht,
    closes_of_targets ht (hopened.last_body hlaid.grows) hne hcloses hopens' hregion⟩

/-- Compiling a group opens it, compiles its body and closes it. -/
theorem Lays.capture {part : Build.Part} {layout : Nat → Layout} {last : Nat → Nat}
    (h : Lays room part layout last) {name : Option String} (key : Nat → GroupKey) (numbered : Nat)
    (hopens : ∀ (d d' : Draft) slot, d.Booked → Build.groupSlot name d = .ok (slot, d') →
      Draft.Opens (key d.lastGroup) numbered slot d d') :
    Lays room (Build.capture name part) (fun base => .capture (key base) (layout (base + numbered)))
      (fun base => last (base + numbered)) := by
  intro d start accept exit d' hd hroom hready hrun
  obtain ⟨slot, body, close, d₁, d₂, d₃, hgroup⟩ :=
    h.takesGroup (fun d' slot => hopens d d' slot hd) hd hroom hready hrun
  have ho := hgroup.opened
  have hlaid := hgroup.laid
  have ht := hgroup.targets
  have hc := hgroup.closes
  have hstart := hready.lt_size
  have hfirst := ho.first_eq
  have hlast := ho.last_eq
  have hsize₁ := ho.size_eq
  have hcaptures₁ := ho.captureCount_eq
  have hgrows₁ := ho.grows start
  have hsize₂ := hlaid.grows.size_le
  have hne := ht.ne
  have hexit := ht.exit_outside hready
  have hgrows' := hc.grows d.states.size (by omega) (by omega)
  have hfields' : d'.fragments = d₂.fragments ∧ d'.loopCount = d₂.loopCount ∧
      d'.lastGroup = d₂.lastGroup := by
    rw [hc.draft_eq, ht.draft_eq]
    exact ⟨rfl, rfl, rfl⟩
  obtain ⟨hfragments', hloops', hlast'⟩ := hfields'
  refine Laid.of_body hgrows₁ hlaid.grows hgrows' (.inr (by omega)) (by rw [ho.fragments_eq])
    (by rw [hfragments']) ⟨ht.ends.given, fun haccept => ?_⟩
    (by rw [hlast', hlaid.lastGroup_eq, ho.lastGroup_eq]) (fun id hid hne hlt => ⟨by omega, ?_⟩)
    hlaid.places fun site ranges _ hfits hplaces => ?_
  · obtain ⟨hexit', hbare⟩ := ht.ends.made haccept
    exact ⟨by omega, (hc.states _ hne (by omega)).trans hbare⟩
  · exact (hc.states id (by omega) hne).trans (ht.states id hlt)
  · obtain ⟨inner, hrank, hlayout⟩ := hplaces
    have hsize' := hc.size_eq
    have hsize₃ := ht.size_eq
    have hcaptures := hlaid.grows.captureCount_le
    have hcaptures' := hgrows'.captureCount_le
    simp only [spare_some] at hrank
    refine ⟨inner + 2, by omega, inner, slot, body, close, rfl, hfits.tracked (by omega),
      ?_, ?_, ?_, ?_⟩
    · exact hfits.slot? _ _ (hgrows'.slot? _ _ (hlaid.grows.slot? _ _ ho.slot?_eq))
    · exact hfits.states start _ (.inl rfl) (Ne.symm hne) hc.opens
    · rw [hloops', ← ho.loopCount_eq, ← ho.lastGroup_eq]
      exact hlayout
    · exact hfits.states close { action := .captureClose slot exit } (.inr (by omega)) (by omega)
        hc.closes

theorem lays_capture_name {part : Build.Part} {layout : Nat → Layout} {last : Nat → Nat}
    (h : Lays room part layout last) (name : String) :
    Lays room (Build.capture (some name) part) (fun base => .capture (.name name) (layout base))
      last :=
  h.capture (fun _ => .name name) 0 fun _ _ _ hd hrun =>
    Draft.opens_groupSlot_name hd hrun

theorem lays_capture_index {part : Build.Part} {layout : Nat → Layout} {last : Nat → Nat}
    (h : Lays room part layout last) :
    Lays room (Build.capture none part)
      (fun base => .capture (.index (base + 1)) (layout (base + 1)))
        (fun base => last (base + 1)) :=
  h.capture (fun base => .index (base + 1)) 1 fun _ _ _ hd hrun =>
    Draft.opens_groupSlot_index hd hrun

/-! ## Fragments -/

/-- What compiling a fragment does.  Neither a first nor a last state matters. -/
structure LaidApart (d d' : Draft) (id : Nat) (layout : Layout) (last : Nat) : Prop where
  /-- Everything else stays. -/
  grows : ∀ start, Draft.Grows d.states.size start d d'
  /-- It numbers its groups. -/
  lastGroup_eq : d'.lastGroup = last
  /-- It is a fragment of its own. -/
  places : ∃ ranges, Covers ranges d d' ∧ ∀ site,
    Fits site d d' ranges d.states.size d'.states.size →
      ∃ f, layout.Isolated site id f d.loopCount d'.loopCount

/-- What fits a fragment fits the run of its body. -/
theorem Fits.inner {site : Site} {d d₁ d₂ d' : Draft} {ranges : Nat → Nat × Nat}
    (ranges₁ : Nat → Nat × Nat) {f : Fragment} {s e base s₁ : Nat} (h : Fits site d d' ranges s e)
    (hbetween : Draft.Grows base s₁ d₂ d') (hkeeps : Keeps site.automaton d₁ d₂ f.start f.accept)
    (hranges : ∀ id, d₁.fragments.size ≤ id → id < d₂.fragments.size → ranges₁ id = ranges id)
    (hfirst : d₁.fragments.size = d.fragments.size)
    (hlast : d'.fragments.size = d₂.fragments.size + 1)
    (hlo : d₁.loopCount = d.loopCount)
    (hrange : ranges d₂.fragments.size = (d.loopCount, d'.loopCount))
    (hle : d₁.fragments.size ≤ d₂.fragments.size)
    (hcaptures : d₁.captureCount < d₂.captureCount → f.captures) :
    Fits (site.inner d₂.fragments.size f) d₁ d₂ ranges₁ f.start f.accept := by
  have hhi := hbetween.loopCount_le
  refine ⟨hkeeps, ?_, ?_, ?_, Nat.le_refl _, hcaptures⟩
  · intro id loop hid hlt
    rw [hranges id hid hlt]
    exact h.owns id loop (by omega) (by omega)
  · intro id loop hid hnested howns
    have hnested' : id < d₂.fragments.size := hnested
    have hsite := h.nested
    have := h.others id loop (.inl (by omega)) (by omega) howns
    omega
  · intro loop hlow hhigh
    refine (h.owns _ loop (by omega) (by omega)).2 ?_
    rw [hrange]
    exact ⟨by omega, by omega⟩

/-- A fragment is compiled between two states of its own and gets a number then. -/
theorem isolated_eq_ok {part : Build.Part} {id : Nat}
    (hrun : Build.isolated part d = .ok (id, d')) :
    ∃ first last exit d₁ d₂, Brackets d first last true d₁ ∧ d₁ = { d with states := d₁.states } ∧
      part first (some last) d₁ = .ok (exit, d₂) ∧ id = d₂.fragments.size ∧
      d' = { d₂ with
        fragments := d₂.fragments.push
          { start := first, accept := last, captures := decide (d.captureCount < d₂.captureCount) }
        regions := .fragment id :: d₂.regions } := by
  obtain ⟨_, _, hget, hrun⟩ := Build.bind_eq_ok.1 hrun
  obtain ⟨rfl, rfl⟩ := Build.get_eq_ok.1 hget
  obtain ⟨first, _, hfirst, hrun⟩ := Build.bind_eq_ok.1 hrun
  obtain ⟨last, d₀, hlast, hrun⟩ := Build.bind_eq_ok.1 hrun
  obtain ⟨_, _, hupdate, hrun⟩ := Build.bind_eq_ok.1 hrun
  obtain rfl := Build.update_eq_ok.1 hupdate
  obtain ⟨exit, d₂, hpart, hrun⟩ := Build.bind_eq_ok.1 hrun
  obtain ⟨_, _, hget, hrun⟩ := Build.bind_eq_ok.1 hrun
  obtain ⟨rfl, rfl⟩ := Build.get_eq_ok.1 hget
  obtain ⟨_, _, hset, hrun⟩ := Build.bind_eq_ok.1 hrun
  obtain rfl := Build.set_eq_ok.1 hset
  obtain ⟨_, _, hregion, hrun⟩ := Build.bind_eq_ok.1 hrun
  obtain rfl := Build.modify_eq_ok.1 hregion
  obtain ⟨rfl, rfl⟩ := Build.pure_eq_ok.1 hrun
  obtain ⟨hbrackets, hdraft⟩ := brackets_addState hfirst hlast
  refine ⟨first, last, exit, _, d₂, hbrackets.accepts, ?_, hpart, rfl, rfl⟩
  conv => lhs; rw [hdraft]

theorem Lays.isolated {part : Build.Part} {layout : Nat → Layout} {last : Nat → Nat}
    (h : Lays room part layout last) {d d' : Draft} {id : Nat} (hd : d.Booked)
    (hroom : room < d.groups.size) (hrun : Build.isolated part d = .ok (id, d')) :
    LaidApart d d' id (layout d.lastGroup) (last d.lastGroup) := by
  obtain ⟨first, exit, exit₁, d₁, d₂, hb, hdraft₁, hpart, rfl, hd'⟩ := isolated_eq_ok hrun
  have hfirst := hb.first_eq
  have hexit := hb.last_eq
  have hsize₁ := hb.size_eq
  have hfields₁ : d₁.lastGroup = d.lastGroup ∧ d₁.fragments.size = d.fragments.size ∧
      d₁.loopCount = d.loopCount ∧ d₁.captureCount = d.captureCount := by
    rw [hdraft₁]
    exact ⟨rfl, rfl, rfl, rfl⟩
  obtain ⟨hlast₁, hfragments₁, hloops₁, hcaptures₁⟩ := hfields₁
  -- The body.
  have hlaid := h.body hb hd hroom hpart
  obtain rfl : exit₁ = exit := hlaid.ends.given _ rfl
  have hsize₂ := hlaid.grows.size_le
  have hfragments₂ := hlaid.grows.fragments_le
  have hgrows' (s : Nat) : Draft.Grows d.states.size s d₂ d' := by
    rw [hd']
    refine (Draft.grows_fragment (by rfl) fun hbooked hcaptures => ?_).trans (Draft.grows_regions _)
    exact hbooked.captures (by have := of_decide_eq_true hcaptures; omega)
  have hfields' : d'.states = d₂.states ∧ d'.lastGroup = d₂.lastGroup ∧
      d'.loopCount = d₂.loopCount ∧ d'.fragments = d₂.fragments.push
        { start := first, accept := exit₁,
          captures := decide (d.captureCount < d₂.captureCount) } := by
    rw [hd']
    exact ⟨rfl, rfl, rfl, rfl⟩
  obtain ⟨hstates', hlast', hloops', hfragments'⟩ := hfields'
  have hcount' : d'.fragments.size = d₂.fragments.size + 1 := by rw [hfragments']; simp
  obtain ⟨ranges, hcovers, hplaces⟩ := hlaid.places
  refine ⟨fun s => (hb.grows s).trans
    ((hlaid.grows.mono (by omega) (.inr (by omega))).trans (hgrows' s)),
    by rw [hlast', hlaid.lastGroup_eq, hlast₁],
    fun id => if id = d₂.fragments.size then (d.loopCount, d'.loopCount) else ranges id,
    fun id hlo hhi => ?_, fun site hfits => ?_⟩
  · by_cases hid : id = d₂.fragments.size
    · simp [hid]
    · dsimp only
      rw [if_neg hid, hloops', ← hloops₁]
      exact hcovers id (by omega) (by omega)
  · have hkeeps : Keeps site.automaton d₁ d₂ first exit₁ :=
      hfits.toKeeps.sub (hb.grows 0) (hgrows' 0) fun id hid hne hlt =>
        ⟨by omega, by rw [hstates']; omega, by rw [hstates']⟩
    have hinner := hfits.inner ranges
      (f := { start := first, accept := exit₁,
              captures := decide (d.captureCount < d₂.captureCount) })
      (hgrows' 0) hkeeps (fun id hlo hhi => by rw [if_neg (by omega)])
      hfragments₁ hcount' hloops₁ (if_pos rfl) hfragments₂
      (fun hcaptures => by rw [hcaptures₁] at hcaptures; exact decide_eq_true hcaptures)
    obtain ⟨rank, hrank, hlayout⟩ := hplaces _ hinner
    have hsite := hfits.size
    have hnested := hfits.nested
    have howns (loop : Nat) := hfits.owns d₂.fragments.size loop (by omega) (by omega)
    simp only [if_pos] at howns
    simp only [spare_some] at hrank
    rw [hstates'] at hsite
    rw [hloops₁, ← hloops', hlast₁] at hlayout
    refine ⟨_, hfits.fragments _ _ (by omega) (by rw [hfragments']; simp),
      by omega, fun hcaptures => ?_, howns, fun loop howned => ?_, ?_, rank, by omega, hlayout⟩
    · refine hfits.tracked ?_
      have := (hgrows' 0).captureCount_le
      have := of_decide_eq_true hcaptures
      omega
    · obtain ⟨hlow, hhigh⟩ := (howns loop).1 howned
      exact hfits.own loop hlow hhigh
    · refine hfits.states exit₁ { accepting := true } (.inr (by omega)) (by rw [hstates']; omega) ?_
      rw [hstates', hb.last_body hlaid.grows]

/-- After a fragment has been compiled what comes next can be. -/
theorem LaidApart.ready {id last : Nat} {layout : Layout} (h : LaidApart d d' id layout last)
    (hready : Ready d start accept) : Ready d' start accept := by
  have hstart := hready.lt_size
  have hgrows := h.grows d.states.size
  refine ⟨(hgrows.states start hstart (by omega)).trans hready.bare, fun id hid => ?_⟩
  obtain ⟨hne, hlt⟩ := hready.accept id hid
  exact ⟨hne, Nat.lt_of_lt_of_le hlt hgrows.size_le⟩

/-- A fragment is compiled, and the first state is made to refer to it. -/
theorem around_eq_ok {part : Build.Part} {action : Nat → Nat → Action}
    (hrun : Build.around part action start accept d = .ok (exit, d')) :
    ∃ id d₁ d₂, Build.isolated part d = .ok (id, d₁) ∧ Build.target accept d₁ = .ok (exit, d₂) ∧
      d' = { d₂ with states := d₂.states.modify start fun s =>
        { s with action := action id exit } } := by
  obtain ⟨id, d₁, hisolated, hrun⟩ := Build.bind_eq_ok.1 hrun
  obtain ⟨exit₁, d₂, htarget, hrun⟩ := Build.bind_eq_ok.1 hrun
  obtain ⟨_, d₃, hupdate, hrun⟩ := Build.bind_eq_ok.1 hrun
  obtain ⟨rfl, rfl⟩ := Build.pure_eq_ok.1 hrun
  exact ⟨id, d₁, d₂, hisolated, htarget, Build.update_eq_ok.1 hupdate⟩

/-- Compiling an action that needs a fragment. -/
theorem Lays.around {part : Build.Part} {layout : Nat → Layout} {last : Nat → Nat}
    (h : Lays room part layout last) (action : Nat → Nat → Action)
    (haction : ∀ id next slot?, State.resolve slot? { action := action id next } =
      { action := action id next }) :
    Lays room (Build.around part action) (fun base => .around (layout base) action) last := by
  intro d start accept exit d' hd hroom hready hrun
  obtain ⟨id, d₁, d₂, hisolated, htarget, hd'⟩ := around_eq_ok hrun
  have hlaid := h.isolated hd hroom hisolated
  have hstart := hready.lt_size
  have hgrows₁ := hlaid.grows d.states.size
  have hsize₁ := hgrows₁.size_le
  have ht := targets_target (hlaid.ready hready) htarget
  have hsize₂ := ht.size_eq
  have hne := ht.ne
  have hexit := ht.exit_outside hready
  have hget (i : Nat) : d'.states[i]? =
      if i = start then some { action := action id exit } else d₂.states[i]? := by
    rw [hd']
    exact getElem?_modify_state ht.bare _ i
  have hgrows' : Draft.Grows d.states.size start d₁ d' := by
    rw [hd']
    exact (ht.grows _ _ hsize₁).trans (Draft.grows_update (.inl rfl) _)
  have hfields' : d'.fragments = d₁.fragments ∧ d'.loopCount = d₁.loopCount ∧
      d'.lastGroup = d₁.lastGroup ∧ d'.states.size = d₂.states.size := by
    rw [hd', ht.draft_eq]
    exact ⟨rfl, rfl, rfl, by simp⟩
  obtain ⟨hfragments', hloops', hlast', hsize'⟩ := hfields'
  refine Laid.of_body (.refl _ _ d) hgrows₁ hgrows' (.inr (Nat.le_refl _)) rfl (by rw [hfragments'])
    ⟨ht.ends.given, fun haccept => ?_⟩ (hlast'.trans hlaid.lastGroup_eq)
    (fun i hi hne hlt => ⟨by omega, ?_⟩) hlaid.places fun site ranges _ hfits hplaces => ?_
  · obtain ⟨hexit', hbare⟩ := ht.ends.made haccept
    exact ⟨by omega, by rw [hget, if_neg hne, hbare]⟩
  · rw [hget, if_neg (by omega), ht.states i hlt]
  · obtain ⟨f, hisolated⟩ := hplaces
    refine ⟨1, by omega, id, f, rfl, ?_, hloops' ▸ hisolated⟩
    rw [hfits.states start _ (.inl rfl) (Ne.symm hne) (by rw [hget, if_pos rfl]), haction]

end

end RegexEngine.Automaton
