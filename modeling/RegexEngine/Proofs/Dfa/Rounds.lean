import RegexEngine.Proofs.Dfa.Exact

/-!
# The construction makes each state once

The construction works in rounds.  A round takes the next pending state, makes it and writes
it over its placeholder.  States that are met for the first time become pending.

* `Announces` is the contract of a step of the construction: what is new is pending, has a
  placeholder and is named in the result.
* `Tracked` is what a round preserves: the states are those that have been made and those
  that are pending, none of them twice, and each one is a root or is named by another one.
* `exists_rounds_ofPart` says that the rounds come to an end, and that the automaton is
  `WellFormed` then.
-/

namespace RegexEngine.Dfa

open Relation

variable {a : Automaton} {goal : Nat}

/-! ## Rounds -/

/-- One round: the next pending state is made.  The result is its number and the draft. -/
def round (a : Automaton) (goal : Nat) (d : Draft) : Option (Nat × Draft) :=
  match d.pending with
  | [] => none
  | id :: pending =>
    d.keys[id]?.map fun key =>
      let (s, d) := keyState a goal key { d with pending }
      (id, { d with states := d.states.setIfInBounds id s })

/-- Some rounds, with the numbers of the states that they make. -/
inductive Rounds (a : Automaton) (goal : Nat) : Draft → List Nat → Draft → Prop
  /-- No round. -/
  | nil (d : Draft) : Rounds a goal d [] d
  /-- One round and more. -/
  | cons {d d₁ d₂ : Draft} {id : Nat} {ids : List Nat} (hround : round a goal d = some (id, d₁))
      (hrest : Rounds a goal d₁ ids d₂) : Rounds a goal d (id :: ids) d₂

theorem round_eq {d : Draft} {id : Nat} {pending : List Nat} {key : Key}
    (hpending : d.pending = id :: pending) (hkey : d.keys[id]? = some key) :
    round a goal d = some (id, { (keyState a goal key { d with pending }).2 with
      states := (keyState a goal key { d with pending }).2.states.setIfInBounds id
        (keyState a goal key { d with pending }).1 }) := by
  simp only [round, hpending, hkey]
  rfl

theorem exists_of_round {d d' : Draft} {id : Nat} (h : round a goal d = some (id, d')) :
    ∃ pending key, d.pending = id :: pending ∧ d.keys[id]? = some key ∧
      d' = { (keyState a goal key { d with pending }).2 with
        states := (keyState a goal key { d with pending }).2.states.setIfInBounds id
          (keyState a goal key { d with pending }).1 } := by
  cases hpending : d.pending with
  | nil => simp [round, hpending] at h
  | cons first pending =>
    cases hkey : d.keys[first]? with
    | none => simp [round, hpending, hkey] at h
    | some key =>
      rw [round_eq hpending hkey] at h
      cases h
      exact ⟨pending, key, rfl, hkey, rfl⟩

/-- Making the pending states is doing rounds. -/
theorem exists_rounds_complete (fuel : Nat) (d : Draft) :
    ∃ order, Rounds a goal d order (complete a goal fuel d) := by
  induction fuel generalizing d with
  | zero => exact ⟨[], .nil d⟩
  | succ fuel ih =>
    rw [complete]
    split
    · exact ⟨[], .nil d⟩
    · rename_i id pending hpending
      split
      · exact ⟨[], .nil d⟩
      · rename_i key hkey
        obtain ⟨order, horder⟩ := ih _
        exact ⟨id :: order, .cons (round_eq hpending hkey) horder⟩

/-! ## What is new -/

/-- The new keys of `d'` are pending, with placeholders, and they are named. -/
structure Grows (d d' : Draft) (named : List Nat) : Prop where
  /-- There is a state for each key. -/
  size_eq : d'.states.size = d'.keys.size
  /-- No key is lost. -/
  size_le : d.keys.size ≤ d'.keys.size
  /-- States are kept. -/
  states : ∀ (id : Nat) (s : State), d.states[id]? = some s → d'.states[id]? = some s
  /-- What is new is pending. -/
  pending : d'.pending.Perm (List.range' d.keys.size (d'.keys.size - d.keys.size) ++ d.pending)
  /-- What is new has a placeholder. -/
  blank : ∀ id, d.keys.size ≤ id → id < d'.keys.size → d'.states[id]? = some {}
  /-- What is new is named. -/
  named : ∀ id, d.keys.size ≤ id → id < d'.keys.size → id ∈ named

theorem Grows.refl {d : Draft} (hsize : d.states.size = d.keys.size) (named : List Nat) :
    Grows d d named where
  size_eq := hsize
  size_le := Nat.le_refl _
  states _ _ h := h
  pending := by simp
  blank id hle hlt := absurd hlt (Nat.not_lt.2 hle)
  named id hle hlt := absurd hlt (Nat.not_lt.2 hle)

theorem Grows.trans {d₁ d₂ d₃ : Draft} {named named' all : List Nat} (h : Grows d₁ d₂ named)
    (h' : Grows d₂ d₃ named') (hsub : named ⊆ all) (hsub' : named' ⊆ all) : Grows d₁ d₃ all where
  size_eq := h'.size_eq
  size_le := h.size_le.trans h'.size_le
  states id s hs := h'.states id s (h.states id s hs)
  pending := by
    have hle := h.size_le
    have hle' := h'.size_le
    have hsplit : List.range' d₁.keys.size (d₃.keys.size - d₁.keys.size) =
        List.range' d₁.keys.size (d₂.keys.size - d₁.keys.size) ++
          List.range' d₂.keys.size (d₃.keys.size - d₂.keys.size) := by
      have hmid : d₂.keys.size = d₁.keys.size + 1 * (d₂.keys.size - d₁.keys.size) := by omega
      rw [show d₃.keys.size - d₁.keys.size =
        (d₂.keys.size - d₁.keys.size) + (d₃.keys.size - d₂.keys.size) by
          omega, ← List.range'_append]
      rw [← hmid]
    rw [hsplit, List.append_assoc]
    refine (h'.pending.trans (h.pending.append_left _)).trans ?_
    rw [← List.append_assoc, ← List.append_assoc]
    exact List.perm_append_comm.append_right _
  blank id hle hlt := by
    by_cases hmid : id < d₂.keys.size
    · exact h'.states id _ (h.blank id hle hmid)
    · exact h'.blank id (Nat.not_lt.1 hmid) hlt
  named id hle hlt := by
    by_cases hmid : id < d₂.keys.size
    · exact hsub (h.named id hle hmid)
    · exact hsub' (h'.named id (Nat.not_lt.1 hmid) hlt)

/-- The contract of a step of the construction: what is new is named in the result, which is
good. -/
def Announces {β : Type} (f : StateM Draft β) (named : β → List Nat) (good : β → Prop) : Prop :=
  ∀ d : Draft, d.states.size = d.keys.size → Grows d (f d).2 (named (f d).1) ∧ good (f d).1

section Steps

variable {β γ : Type} {named : β → List Nat} {good : β → Prop}

theorem announces_pure {y : β} (h : good y) : Announces (pure y) named good :=
  fun _ hsize => ⟨.refl hsize _, h⟩

theorem Announces.imp {named' : β → List Nat} {good' : β → Prop} {f : StateM Draft β}
    (h : Announces f named good) (hnamed : ∀ y, named y ⊆ named' y)
    (hgood : ∀ y, good y → good' y) :
    Announces f named' good' := by
  intro d hsize
  obtain ⟨hgrows, hy⟩ := h d hsize
  exact ⟨⟨hgrows.size_eq, hgrows.size_le, hgrows.states, hgrows.pending, hgrows.blank,
    fun id hle hlt => hnamed _ (hgrows.named id hle hlt)⟩, hgood _ hy⟩

theorem announces_bind {named' : γ → List Nat} {good' : γ → Prop} {f : StateM Draft β}
    {g : β → StateM Draft γ} (hf : Announces f named good)
    (hg : ∀ y, good y → Announces (g y) named' fun z => named y ⊆ named' z ∧ good' z) :
    Announces (f >>= g) named' good' := by
  intro d hsize
  obtain ⟨hgrows, hgood⟩ := hf d hsize
  obtain ⟨hgrows', hnamed, hgood'⟩ := hg (f d).1 hgood (f d).2 hgrows.size_eq
  exact ⟨hgrows.trans hgrows' hnamed (List.Subset.refl _), hgood'⟩

/-- What is new in one of several steps is named in its result. -/
theorem announces_mapM {α : Type} {f : α → StateM Draft β} {xs : List α}
    (h : ∀ x ∈ xs, Announces (f x) named good) :
    Announces (xs.mapM f) (fun ys => ys.flatMap named) fun ys => ∀ y ∈ ys, good y := by
  induction xs with
  | nil => exact announces_pure fun y hy => by cases hy
  | cons x xs ih =>
    rw [List.mapM_cons]
    refine announces_bind (h x (by simp)) fun y hy => ?_
    refine announces_bind (ih fun x hx => h x (by simp [hx])) fun ys hys => announces_pure ?_
    refine ⟨?_, ?_, ?_⟩
    · exact fun id hid => List.mem_flatMap.2 (by
        obtain ⟨y', hy', hid⟩ := List.mem_flatMap.1 hid
        exact ⟨y', by simp [hy'], hid⟩)
    · exact fun id hid => List.mem_flatMap.2 ⟨y, by simp, hid⟩
    · intro y' hy'
      rcases List.mem_cons.1 hy' with rfl | hy'
      · exact hy
      · exact hys y' hy'

/-- The number of a key is named. -/
theorem announces_intern (states : List Nat) (before : Category) :
    Announces (intern a goal states before) (fun id => [id]) fun _ => True := by
  intro d hsize
  unfold intern
  dsimp only
  split
  · exact ⟨.refl hsize _, trivial⟩
  · refine ⟨⟨by simp [hsize], by simp, fun _ _ => getElem?_push_of_getElem?, ?_, ?_, ?_⟩, trivial⟩
    · simp
    · intro id hle hlt
      obtain rfl : id = d.keys.size := by simp at hlt; omega
      simp [← hsize]
    · intro id hle hlt
      simp at hlt ⊢
      omega

end Steps

/-! ## Transitions of a state -/

/-- A transition to a key names its number. -/
theorem announces_transition {set : CharSet} (h : set.isEmpty = false) (states : List Nat)
    (before : Category) :
    Announces (do return (set, ← intern a goal states before)) (fun t => [t.2])
      fun t => t.1.isEmpty = false :=
  announces_bind (announces_intern states before) fun _ _ =>
    announces_pure ⟨List.Subset.refl _, h⟩

/-- Several of them name all their numbers. -/
theorem announces_transitions {α : Type} {f : α → StateM Draft (CharSet × Nat)} {xs : List α}
    (h : ∀ x ∈ xs, Announces (f x) (fun t => [t.2]) fun t => t.1.isEmpty = false) :
    Announces (xs.mapM f) targetsOf NoneVoid :=
  (announces_mapM h).imp (fun ts id hid => by simpa using hid) fun _ hts => hts

theorem announces_pieceTransitions {piece : CharSet × List Nat} (h : piece.1.isEmpty = false) :
    Announces (pieceTransitions a goal piece) targetsOf NoneVoid := by
  obtain ⟨set, states⟩ := piece
  unfold pieceTransitions
  dsimp only
  split
  · refine announces_transitions fun x hx => announces_transition ?_ _ _
    simpa using (List.mem_filter.1 hx).2
  · refine announces_bind (announces_intern _ _) fun id _ => announces_pure ⟨?_, ?_⟩
    · exact List.Subset.refl _
    · simpa [NoneVoid] using h

theorem announces_categoryTransitions (states : List Nat) (before category : Category) :
    Announces (categoryTransitions a goal states before category) targetsOf NoneVoid :=
  announces_transitions fun piece hpiece =>
    announces_transition (isEmpty_of_mem_partition piece hpiece) _ _

/-- The transitions of a state are not void and lead to different states. -/
structure Tidy (s : State) : Prop where
  /-- None is void. -/
  noneVoid : NoneVoid s.transitions
  /-- No two lead to the same state. -/
  nodup : (targetsOf s.transitions).Nodup

/-- A state with joined transitions is tidy. -/
theorem announces_joined {f : StateM Draft (List (List (CharSet × Nat)))}
    (h : Announces f (fun ts => ts.flatMap targetsOf) fun ts => ∀ t ∈ ts, NoneVoid t)
    (accepting : PerCategory Bool) :
    Announces (do let ts ← f; return { transitions := mergeTargets ts.flatten, accepting : State })
      (fun s => targetsOf s.transitions) Tidy := by
  refine announces_bind h fun ts hts => announces_pure ⟨fun id hid => ?_, ?_, ?_⟩
  · obtain ⟨t, ht, hid⟩ := List.mem_flatMap.1 hid
    obtain ⟨x, hx, rfl⟩ := List.mem_map.1 hid
    exact mem_targetsOf_mergeTargets.2 (List.mem_map_of_mem (List.mem_flatten_of_mem ht hx))
  · refine noneVoid_mergeTargets fun x hx => ?_
    obtain ⟨t, ht, hx⟩ := List.mem_flatten.1 hx
    exact hts t ht x hx
  · exact nodup_mergeTargets ts.flatten

/-- The state of a key names all states that are new, and it is tidy. -/
theorem announces_keyState (key : Key) :
    Announces (keyState a goal key) (fun s => targetsOf s.transitions) Tidy := by
  unfold keyState
  split
  · refine announces_joined (announces_mapM fun piece hpiece => ?_) _
    exact announces_pieceTransitions (isEmpty_of_mem_partition piece hpiece)
  · refine announces_joined (announces_mapM fun category _ => ?_) _
    exact announces_categoryTransitions key.states _ category

/-! ## What a round preserves -/

/-- The states are those that have been made and those that are pending, and each one has been
met by a transition of an earlier one, unless it is a root. -/
structure Tracked (roots made : List Nat) (d : Draft) : Prop where
  /-- There is a state for each key. -/
  size_eq : d.states.size = d.keys.size
  /-- Each state has been made or is pending, and that once. -/
  once : (made ++ d.pending).Perm (List.range d.keys.size)
  /-- What is pending has a placeholder. -/
  blank : ∀ id ∈ d.pending, d.states[id]? = some {}
  /-- States are tidy. -/
  tidy : ∀ (id : Nat) (s : State), d.states[id]? = some s → Tidy s
  /-- Each state is a root or the target of an earlier one. -/
  named : ∀ id < d.keys.size, id ∈ roots ∨
    ∃ p < id, ∃ s, d.states[p]? = some s ∧ id ∈ targetsOf s.transitions

theorem tidy_blank : Tidy {} :=
  ⟨fun t ht => (by cases ht), List.nodup_nil⟩

/-- The numbers below a bound stay there, and those behind it join them. -/
theorem perm_range_add {made pending fresh : List Nat} {id n k : Nat}
    (h : (made ++ id :: pending).Perm (List.range n))
    (hfresh : fresh.Perm (List.range' n k ++ pending)) :
    (made ++ [id] ++ fresh).Perm (List.range (n + k)) := by
  have hrange : List.range (n + k) = List.range n ++ List.range' n k := by
    rw [List.range_eq_range', List.range_eq_range', ← List.range'_append]
    simp
  rw [hrange]
  calc List.Perm (made ++ [id] ++ fresh) (made ++ [id] ++ (List.range' n k ++ pending)) :=
        hfresh.append_left _
    List.Perm _ (made ++ [id] ++ (pending ++ List.range' n k)) :=
        List.perm_append_comm.append_left _
    List.Perm _ (made ++ id :: pending ++ List.range' n k) := .of_eq (by simp)
    List.Perm _ (List.range n ++ List.range' n k) := h.append_right _

/-- A state that has been made takes the place of its placeholder. -/
theorem tracked_set {roots made pending named : List Nat} {d d' : Draft} {id : Nat} {s : State}
    (h : Tracked roots made d) (hpending : d.pending = id :: pending)
    (hgrows : Grows { d with pending } d' named) (hs : Tidy s)
    (hnamed : named ⊆ targetsOf s.transitions) :
    Tracked roots (made ++ [id]) { d' with states := d'.states.setIfInBounds id s } := by
  have hsize : d'.states.size = d'.keys.size := hgrows.size_eq
  have hle : d.keys.size ≤ d'.keys.size := hgrows.size_le
  have hfresh : d'.pending.Perm (List.range' d.keys.size (d'.keys.size - d.keys.size) ++ pending) :=
    hgrows.pending
  have honce := h.once
  rw [hpending] at honce
  have hid : id < d.keys.size :=
    List.mem_range.1 (honce.mem_iff.1 (List.mem_append_right _ (List.mem_cons_self ..)))
  have hself : (d'.states.setIfInBounds id s)[id]? = some s := by
    rw [Array.getElem?_setIfInBounds_self, if_pos (by omega)]
  have hother {p : Nat} (hne : p ≠ id) : (d'.states.setIfInBounds id s)[p]? = d'.states[p]? :=
    Array.getElem?_setIfInBounds_ne (Ne.symm hne)
  -- A state that was there has not changed, and one that is new has a placeholder.
  have hold {p : Nat} (hp : p < d.keys.size) : d'.states[p]? = d.states[p]? := by
    have hget := Array.getElem?_eq_getElem (h.size_eq.symm ▸ hp)
    rw [hget]
    exact hgrows.states p _ hget
  have hnew {p : Nat} (hge : d.keys.size ≤ p) (hlt : p < d'.keys.size) : d'.states[p]? = some {} :=
    hgrows.blank p hge hlt
  refine ⟨?_, ?_, ?_, ?_, ?_⟩
  · rw [Array.size_setIfInBounds]
    exact hsize
  · have hperm := perm_range_add honce hfresh
    rwa [Nat.add_sub_cancel' hle] at hperm
  · intro p hp
    rcases List.mem_append.1 (hfresh.mem_iff.1 hp) with hmem | hmem
    · have hrange := List.mem_range'_1.1 hmem
      exact (hother (by omega)).trans (hnew hrange.1 (by omega))
    · have hnodup : (id :: pending).Nodup :=
        (List.nodup_append.1 (honce.nodup_iff.2 List.nodup_range)).2.1
      have hne : p ≠ id := fun heq => (List.nodup_cons.1 hnodup).1 (heq ▸ hmem)
      exact (hother hne).trans (hgrows.states p _ (h.blank p (by simp [hpending, hmem])))
  · intro p s' hs'
    by_cases hne : p = id
    · subst hne
      rw [← Option.some.inj (hself.symm.trans hs')]
      exact hs
    · have hget : d'.states[p]? = some s' := (hother hne).symm.trans hs'
      have hlt : p < d'.keys.size := hsize ▸ (Array.getElem?_eq_some_iff.1 hget).1
      by_cases hp : p < d.keys.size
      · exact h.tidy p s' ((hold hp).symm.trans hget)
      · rw [← Option.some.inj ((hnew (Nat.not_lt.1 hp) hlt).symm.trans hget)]
        exact tidy_blank
  · intro q hq
    by_cases hlt : q < d.keys.size
    · refine (h.named q hlt).imp_right ?_
      rintro ⟨p, hpq, s', hs', hmem⟩
      have hne : p ≠ id := by
        rintro rfl
        have hblank := h.blank p (by simp [hpending])
        rw [← Option.some.inj (hblank.symm.trans hs')] at hmem
        cases hmem
      exact ⟨p, hpq, s', (hother hne).trans ((hold (by omega)).trans hs'), hmem⟩
    · exact .inr ⟨id, by omega, s, hself, hnamed (hgrows.named q (Nat.not_lt.1 hlt) hq)⟩

/-- A round makes one more state, and that for good. -/
theorem tracked_round {roots made : List Nat} {d d' : Draft} {id : Nat} (h : Tracked roots made d)
    (hround : round a goal d = some (id, d')) : Tracked roots (made ++ [id]) d' := by
  obtain ⟨pending, key, hpending, hkey, rfl⟩ := exists_of_round hround
  have hkeyState : Announces (keyState a goal key) (fun s => targetsOf s.transitions) Tidy :=
    announces_keyState key
  obtain ⟨hgrows, htidy⟩ := hkeyState { d with pending } h.size_eq
  exact tracked_set h hpending hgrows htidy (List.Subset.refl _)

theorem tracked_rounds {roots made order : List Nat} {d d' : Draft} (h : Tracked roots made d)
    (hrounds : Rounds a goal d order d') : Tracked roots (made ++ order) d' := by
  induction hrounds generalizing made with
  | nil d => rwa [List.append_nil]
  | cons hround _ ih =>
    have htracked := ih (tracked_round h hround)
    rwa [List.append_assoc] at htracked

/-- The construction starts with the roots. -/
theorem tracked_seed (a : Automaton) (start goal : Nat) :
    Tracked (Category.all.map (seed a start goal {}).1.get) [] (seed a start goal {}).2 := by
  have hseed : Announces (seed a start goal) (fun roots => Category.all.map roots.get)
      fun _ => True := by
    refine announces_bind (announces_intern _ _) fun edge _ => ?_
    refine announces_bind (announces_intern _ _) fun word _ => ?_
    refine announces_bind (announces_intern _ _) fun lineTerminator _ => ?_
    refine announces_bind (announces_intern _ _) fun other _ => announces_pure ?_
    simp [Category.all, PerCategory.get]
  obtain ⟨hgrows, -⟩ := hseed {} rfl
  refine ⟨hgrows.size_eq, ?_, ?_, ?_, fun id hid => .inl (hgrows.named id (Nat.zero_le _) hid)⟩
  · simpa [List.range_eq_range'] using hgrows.pending
  · intro id hid
    have hmem := hgrows.pending.mem_iff.1 hid
    have hlt : id < (seed a start goal {}).2.keys.size := by simpa using hmem
    exact hgrows.blank id (Nat.zero_le _) hlt
  · intro id s hs
    have hlt : id < (seed a start goal {}).2.keys.size :=
      hgrows.size_eq ▸ (Array.getElem?_eq_some_iff.1 hs).1
    rw [← Option.some.inj ((hgrows.blank id (Nat.zero_le _) hlt).symm.trans hs)]
    exact tidy_blank

/-! ## The end of the construction -/

/-- A transition leads from one state to another one. -/
def LeadsTo (d : Dfa) (id target : Nat) : Prop :=
  ∃ s, d.states[id]? = some s ∧ target ∈ targetsOf s.transitions

/-- A deterministic automaton without loose ends. -/
structure WellFormed (d : Dfa) : Prop where
  /-- The roots exist. -/
  root_lt : ∀ before, d.roots.get before < d.states.size
  /-- Transitions lead to states that exist. -/
  target_lt : ∀ id target, d.LeadsTo id target → target < d.states.size
  /-- Each state can be reached from a root. -/
  reached : ∀ id < d.states.size, ∃ before, ReflTransGen d.LeadsTo (d.roots.get before) id
  /-- No transition is void. -/
  noneVoid : ∀ s ∈ d.states, ∀ t ∈ s.transitions, t.1.isEmpty = false
  /-- No two transitions of a state have a character in common. -/
  disjoint : ∀ s ∈ d.states, s.transitions.Pairwise fun t t' => t.1.overlaps t'.1 = false
  /-- No two transitions of a state lead to the same state. -/
  distinct : ∀ s ∈ d.states, (s.transitions.map (·.2)).Nodup

/-- A key has one number. -/
theorem number_unique {keys : Array Key} (h : keys.toList.Nodup) {key : Key} {id id' : Nat}
    (hid : keys[id]? = some key) (hid' : keys[id']? = some key) : id = id' := by
  have hlt : id < keys.toList.length := (Array.getElem?_eq_some_iff.1 hid).1
  refine (List.getElem?_inj hlt h).1 ?_
  rw [Array.getElem?_toList, Array.getElem?_toList, hid, hid']

/-- Transitions that lead to the states of the next keys, and each to another one, have no
character in common. -/
theorem RightState.disjoint {keys : Array Key} {key : Key} {s : State}
    (h : RightState a goal keys key s) (hnodup : keys.toList.Nodup) (hs : Tidy s) :
    s.transitions.Pairwise fun t t' => t.1.overlaps t'.1 = false := by
  have hunique {c : Char} {id id' : Nat} (hid : Spells s.transitions c id)
      (hid' : Spells s.transitions c id') : id = id' :=
    number_unique hnodup (h.sound c id hid) (h.sound c id' hid')
  exact disjoint_iff.1 (disjoint_of_nodup hs.nodup hunique)

/-- The construction leaves no loose ends if no state is pending. -/
theorem wellFormed_of_tracked {order : List Nat} {dfa : Dfa} {d : Draft}
    (h : Tracked (Category.all.map dfa.roots.get) order d) (hstates : dfa.states = d.states)
    (hnodup : d.keys.toList.Nodup) (hcomplete : Complete a goal d.keys dfa)
    (hroots : ∀ before, dfa.roots.get before < d.keys.size) : dfa.WellFormed := by
  have hsize : dfa.states.size = d.keys.size := by rw [hstates, h.size_eq]
  have hright {id : Nat} {s : State} (hs : dfa.states[id]? = some s) :
      ∃ key, RightState a goal d.keys key s := by
    have hlt : id < d.keys.size := hsize ▸ (Array.getElem?_eq_some_iff.1 hs).1
    obtain ⟨s', hs', hright⟩ := hcomplete id _ (Array.getElem?_eq_getElem hlt)
    exact ⟨_, Option.some.inj (hs'.symm.trans hs) ▸ hright⟩
  have htidy {id : Nat} {s : State} (hs : dfa.states[id]? = some s) : Tidy s :=
    h.tidy id s (hstates ▸ hs)
  have hmem {s : State} (hs : s ∈ dfa.states) : ∃ id, dfa.states[id]? = some s :=
    Array.mem_iff_getElem?.1 hs
  refine ⟨fun before => hsize ▸ hroots before, ?_, ?_, ?_, ?_, ?_⟩
  · rintro id target ⟨s, hs, htarget⟩
    obtain ⟨t, ht, rfl⟩ := List.mem_map.1 htarget
    obtain ⟨c, hc⟩ := CharSet.exists_test ((htidy hs).noneVoid t ht)
    obtain ⟨key, hkey⟩ := hright hs
    rw [hsize]
    exact (Array.getElem?_eq_some_iff.1 (hkey.sound c t.2 ⟨t.1, ht, hc⟩)).1
  · -- Each state is met by a transition of an earlier one.
    intro id hid
    induction id using Nat.strongRecOn with
    | _ id ih =>
      rcases h.named id (hsize ▸ hid) with hroot | ⟨p, hlt, s, hs, htarget⟩
      · obtain ⟨before, -, rfl⟩ := List.mem_map.1 hroot
        exact ⟨before, .refl⟩
      · obtain ⟨before, hpath⟩ := ih p hlt (hlt.trans hid)
        exact ⟨before, hpath.tail ⟨s, hstates ▸ hs, htarget⟩⟩
  · intro s hs
    obtain ⟨id, hid⟩ := hmem hs
    exact (htidy hid).noneVoid
  · intro s hs
    obtain ⟨id, hid⟩ := hmem hs
    obtain ⟨key, hkey⟩ := hright hid
    exact hkey.disjoint hnodup (htidy hid)
  · intro s hs
    obtain ⟨id, hid⟩ := hmem hs
    exact (htidy hid).nodup

/-- The construction comes to an end.  Its rounds make each state once, there is one state for
each key, which does what the key says, and the automaton has no loose ends. -/
theorem exists_rounds_ofPart (a : Automaton) (start goal : Nat) :
    ∃ order d, Rounds a goal (seed a start goal {}).2 order d ∧ d.pending = [] ∧
      (ofPart a start goal).states = d.states ∧ d.states.size = d.keys.size ∧
      order.Perm (List.range d.states.size) ∧
      d.keys.toList.Nodup ∧ (∀ key ∈ d.keys, key.Proper a goal) ∧
      Complete a goal d.keys (ofPart a start goal) ∧ (ofPart a start goal).WellFormed := by
  obtain ⟨hwell, hpending, hroots⟩ := wellBuilt_wholeDraft a start goal
  obtain ⟨order, hrounds⟩ :
      ∃ order, Rounds a goal (seed a start goal {}).2 order (wholeDraft a start goal) :=
    exists_rounds_complete _ _
  have hcomplete := complete_wholeDraft a start goal
  have htracked := tracked_rounds (tracked_seed a start goal) hrounds
  have honce := htracked.once
  rw [hpending, List.append_nil] at honce
  refine ⟨order, wholeDraft a start goal, hrounds, hpending, rfl, hwell.size_eq, ?_, hwell.nodup,
    fun key hkey => hwell.proper key (Array.mem_toList_iff.2 hkey), hcomplete, ?_⟩
  · rw [hwell.size_eq]
    exact honce
  · exact wellFormed_of_tracked htracked rfl hwell.nodup hcomplete
      fun before => (Array.getElem?_eq_some_iff.1 (hroots before)).1

end RegexEngine.Dfa
