import Mathlib.Data.List.Sublists
import RegexEngine.Proofs.Dfa.Partition

/-!
# The subset construction

A state of the deterministic automaton stands for a `Key`.  The facts here say
that the construction ends and that each state does what its key says.

* `Key.next` is the key after a character, and `RightState` says that a state
  leads to the states of the next keys.
* `Builds` is the contract of a step of the construction: the draft stays well
  built, and what it had is kept.  `builds_intern` and `builds_keyState` are the
  two contracts of interest.
* `complete_spec` says that no state is left pending, as there are more units of
  fuel than keys.
-/

namespace RegexEngine.Dfa

open Relation

variable {a : Automaton} {goal : Nat} {busy : List Nat}

/-! ## Closures -/

theorem closure_congr {states states' : List Nat} (h : ∀ s, s ∈ states ↔ s ∈ states') :
    closure a goal states = closure a goal states' := by
  refine reachable_congr fun x => ?_
  simp only [mem_reachable_iff, h]

theorem closure_closure (states : List Nat) :
    closure a goal (closure a goal states) = closure a goal states := by
  refine reachable_congr fun x => ⟨fun h => ?_, fun h => ?_⟩
  · obtain ⟨hx, s, hs, hpath⟩ := mem_reachable_iff.1 h
    obtain ⟨_, s', hs', hpath'⟩ := mem_reachable_iff.1 hs
    exact mem_reachable_iff.2 ⟨hx, s', hs', hpath'.trans hpath⟩
  · exact mem_reachable_iff.2 ⟨(mem_reachable_iff.1 h).1, x, h, ReflTransGen.refl⟩

/-- Without assertions nothing but epsilons leads on. -/
theorem resolve_eq_closure {states : List Nat} (h : hasLook a goal (closure a goal states) = false)
    (before after : Category) :
    resolve a goal before after states = closure a goal states := by
  refine reachable_congr fun x => ⟨fun hx => ?_, fun hx => ?_⟩
  · obtain ⟨hlt, s, hs, hpath⟩ := mem_reachable_iff.1 hx
    refine mem_reachable_iff.2 ⟨hlt, s, hs, ?_⟩
    clear hx hlt
    induction hpath with
    | refl => exact ReflTransGen.refl
    | @tail y z _ hstep ih =>
      refine ih.tail ⟨hstep.1, ?_⟩
      rcases List.mem_append.1 hstep.2 with hasserted | hepsilon
      · obtain ⟨look, htransition, _⟩ := mem_assertedOf_iff.1 hasserted
        have hy : y ∈ closure a goal states := mem_reachable_iff.2 ⟨hstep.1, s, hs, ih⟩
        have := List.any_eq_false.1 h y hy
        rw [htransition] at this
        exact absurd rfl this
      · exact hepsilon
  · obtain ⟨hlt, s, hs, hpath⟩ := mem_reachable_iff.1 hx
    refine mem_reachable_iff.2 ⟨hlt, s, hs, ReflTransGen.mono ?_ _ _ hpath⟩
    exact fun x y hxy => ⟨hxy.1, List.mem_append_right _ hxy.2⟩

/-! ## Keys -/

/-- The key of states after a character of category `before`. -/
def keyOf (a : Automaton) (goal : Nat) (states : List Nat) (before : Category) : Key :=
  ⟨states, if hasLook a goal states then some before else none⟩

namespace Key

/-- The category of the character before, or any one if it does not matter. -/
def category (key : Key) : Category :=
  key.before.getD .other

/-- The states that assertions and epsilons lead to before a character of category
`after`. -/
def resolved (a : Automaton) (goal : Nat) (key : Key) (after : Category) : List Nat :=
  resolve a goal key.category after key.states

/-- The key after the character `c`. -/
def next (a : Automaton) (goal : Nat) (key : Key) (c : Char) : Key :=
  keyOf a goal (closure a goal (targets a goal (key.resolved a goal (.of c)) c)) (.of c)

/-- A key holds all that epsilons lead to, and a category just if it matters. -/
structure Proper (a : Automaton) (goal : Nat) (key : Key) : Prop where
  /-- The states are in ascending order. -/
  sublist : key.states.Sublist (List.range a.states.size)
  /-- Epsilons lead to no other states. -/
  closed : closure a goal key.states = key.states
  /-- There is a category if there is an assertion. -/
  before : key.before.isSome = hasLook a goal key.states

end Key

theorem keyOf_congr {states : List Nat} (h : hasLook a goal states = false)
    (before before' : Category) : keyOf a goal states before = keyOf a goal states before' := by
  simp [keyOf, h]

theorem proper_keyOf (states : List Nat) (before : Category) :
    (keyOf a goal (closure a goal states) before).Proper a goal where
  sublist := reachable_sublist _ _ _
  closed := closure_closure _
  before := by
    unfold keyOf
    dsimp only
    split <;> simp_all

/-- Where the category does not matter it may be any one. -/
theorem resolve_keyOf (states : List Nat) (before after : Category) :
    (keyOf a goal (closure a goal states) before).resolved a goal after =
      resolve a goal before after (closure a goal states) := by
  unfold Key.resolved Key.category keyOf
  cases h : hasLook a goal (closure a goal states) with
  | true => rfl
  | false =>
    rw [← closure_closure] at h
    rw [resolve_eq_closure h, resolve_eq_closure h]

/-- There are at most five keys for each set of states. -/
theorem length_le_of_proper {keys : List Key} (hnodup : keys.Nodup)
    (h : ∀ key ∈ keys, key.Proper a goal) : keys.length ≤ 5 * Nat.pow 2 a.states.size := by
  have hsub : keys ⊆ (List.range a.states.size).sublists.flatMap fun states =>
      (none :: Category.all.map some).map fun before => ⟨states, before⟩ := by
    intro key hkey
    refine List.mem_flatMap.2 ⟨key.states, List.mem_sublists.2 (h key hkey).sublist, ?_⟩
    refine List.mem_map.2 ⟨key.before, ?_, rfl⟩
    rcases key.before with _ | (_ | _ | _ | _) <;> simp [Category.all]
  refine (hnodup.subperm hsub).length_le.trans (Nat.le_of_eq ?_)
  simp [List.length_flatMap, Category.all, Nat.mul_comm]

/-! ## Drafts -/

/-- The keys of `keys` have the same numbers in `keys'`. -/
def KeysKept (keys keys' : Array Key) : Prop :=
  ∀ (id : Nat) (key : Key), keys[id]? = some key → keys'[id]? = some key

/-- The transitions lead from each character of `domain` to the state of its key,
and from no other character. -/
structure Follows (keys : Array Key) (transitions : List (CharSet × Nat)) (domain : Char → Prop)
    (key : Char → Key) : Prop where
  /-- A transition leads to the state of the key. -/
  sound : ∀ c id, Spells transitions c id → domain c ∧ keys[id]? = some (key c)
  /-- Each character of the domain has a transition. -/
  total : ∀ c, domain c → ∃ id, Spells transitions c id

/-- A state does what its key says. -/
structure RightState (a : Automaton) (goal : Nat) (keys : Array Key) (key : Key) (s : State) :
    Prop where
  /-- It accepts if the goal is among its states. -/
  accepting : ∀ after, s.accepting.get after = (key.resolved a goal after).contains goal
  /-- A transition leads to the state of the next key. -/
  sound : ∀ c id, Spells s.transitions c id → keys[id]? = some (key.next a goal c)
  /-- There is a transition for each character that leads on. -/
  total : ∀ c, targets a goal (key.resolved a goal (.of c)) c ≠ [] → ∃ id, Spells s.transitions c id

/-- The state of this number has been made. -/
def Finished (a : Automaton) (goal : Nat) (d : Draft) (id : Nat) : Prop :=
  ∃ key s, d.keys[id]? = some key ∧ d.states[id]? = some s ∧ RightState a goal d.keys key s

/-- Each state is being made, pending or finished. -/
structure WellBuilt (a : Automaton) (goal : Nat) (busy : List Nat) (d : Draft) : Prop where
  /-- There is a state for each key. -/
  size_eq : d.states.size = d.keys.size
  /-- No key is there twice. -/
  nodup : d.keys.toList.Nodup
  /-- The keys are proper. -/
  proper : ∀ key ∈ d.keys.toList, key.Proper a goal
  /-- Pending states have keys. -/
  pending_lt : ∀ id ∈ d.pending, id < d.keys.size
  /-- All other states are finished. -/
  finished : ∀ id < d.keys.size, id ∈ busy ∨ id ∈ d.pending ∨ Finished a goal d id

/-- `d'` has all that `d` has, and what is new is pending. -/
structure Extends (d d' : Draft) : Prop where
  /-- Keys are kept. -/
  keys : KeysKept d.keys d'.keys
  /-- States are kept. -/
  states : ∀ (id : Nat) (s : State), d.states[id]? = some s → d'.states[id]? = some s
  /-- Each new key is pending. -/
  count : d'.keys.size + d.pending.length = d.keys.size + d'.pending.length

/-- The contract of a step of the construction. -/
def Builds {β : Type} (a : Automaton) (goal : Nat) (busy : List Nat) (f : StateM Draft β)
    (post : Array Key → β → Prop) : Prop :=
  ∀ d, WellBuilt a goal busy d →
    WellBuilt a goal busy (f d).2 ∧ Extends d (f d).2 ∧ post (f d).2.keys (f d).1

theorem KeysKept.trans {keys₁ keys₂ keys₃ : Array Key} (h : KeysKept keys₁ keys₂)
    (h' : KeysKept keys₂ keys₃) : KeysKept keys₁ keys₃ :=
  fun id key hkey => h' id key (h id key hkey)

theorem Extends.refl (d : Draft) : Extends d d where
  keys := fun _ _ h => h
  states := fun _ _ h => h
  count := rfl

theorem Extends.trans {d₁ d₂ d₃ : Draft} (h : Extends d₁ d₂) (h' : Extends d₂ d₃) :
    Extends d₁ d₃ where
  keys := h.keys.trans h'.keys
  states := fun id s hs => h'.states id s (h.states id s hs)
  count := by
    have := h.count
    have := h'.count
    omega

theorem RightState.mono {keys keys' : Array Key} (hkeys : KeysKept keys keys') {key : Key}
    {s : State} (h : RightState a goal keys key s) : RightState a goal keys' key s where
  accepting := h.accepting
  sound := fun c id hspells => hkeys _ _ (h.sound c id hspells)
  total := h.total

theorem Finished.mono {d d' : Draft} (hextends : Extends d d') {id : Nat}
    (h : Finished a goal d id) : Finished a goal d' id := by
  obtain ⟨key, s, hkey, hs, hright⟩ := h
  exact ⟨key, s, hextends.keys _ _ hkey, hextends.states _ _ hs, hright.mono hextends.keys⟩

theorem Follows.mono {keys keys' : Array Key} (hkeys : KeysKept keys keys')
    {transitions : List (CharSet × Nat)} {domain : Char → Prop} {key : Char → Key}
    (h : Follows keys transitions domain key) : Follows keys' transitions domain key where
  sound := fun c id hspells => ⟨(h.sound c id hspells).1, hkeys _ _ (h.sound c id hspells).2⟩
  total := h.total

/-! ## Steps of the construction -/

theorem builds_pure {β : Type} {y : β} {post : Array Key → β → Prop}
    (h : ∀ keys, post keys y) : Builds a goal busy (pure y) post :=
  fun d hd => ⟨hd, Extends.refl d, h d.keys⟩

theorem builds_bind {β γ : Type} {f : StateM Draft β} {g : β → StateM Draft γ}
    {mid : Array Key → β → Prop} {post : Array Key → γ → Prop} (hf : Builds a goal busy f mid)
    (hg : ∀ y, Builds a goal busy (g y) fun keys z =>
      ∀ keys', KeysKept keys' keys → mid keys' y → post keys z) :
    Builds a goal busy (f >>= g) post := by
  intro d hd
  obtain ⟨hd₁, hextends₁, hmid⟩ := hf d hd
  obtain ⟨hd₂, hextends₂, hpost⟩ := hg (f d).1 (f d).2 hd₁
  exact ⟨hd₂, hextends₁.trans hextends₂, hpost _ hextends₂.keys hmid⟩

theorem Builds.imp {β : Type} {f : StateM Draft β} {post post' : Array Key → β → Prop}
    (h : Builds a goal busy f post) (himp : ∀ keys y, post keys y → post' keys y) :
    Builds a goal busy f post' := by
  intro d hd
  obtain ⟨hd', hextends, hpost⟩ := h d hd
  exact ⟨hd', hextends, himp _ _ hpost⟩

/-- What a step gives for each element holds of all elements at the end. -/
theorem builds_mapM {α β : Type} {f : α → StateM Draft β} {post : α → Array Key → β → Prop}
    {xs : List α}
    (hmono : ∀ x y keys keys', KeysKept keys keys' → post x keys y → post x keys' y)
    (h : ∀ x ∈ xs, Builds a goal busy (f x) (post x)) :
    Builds a goal busy (xs.mapM f) fun keys ys =>
      List.Forall₂ (fun x y => post x keys y) xs ys := by
  induction xs with
  | nil => exact builds_pure fun _ => .nil
  | cons x xs ih =>
    rw [List.mapM_cons]
    refine builds_bind (h x (by simp)) fun y => ?_
    refine builds_bind (ih fun x hx => h x (by simp [hx])) fun ys => builds_pure ?_
    intro keys keys' hkept hys keys'' hkept' hy
    refine .cons (hmono _ _ _ _ hkept' hy) (hys.imp ?_)
    exact fun x y hpost => hmono _ _ _ _ hkept hpost

theorem getElem?_of_idxOf? {keys : Array Key} {key : Key} {id : Nat}
    (h : keys.idxOf? key = some id) : keys[id]? = some key := by
  rcases keys with ⟨keys⟩
  rw [List.idxOf?_toArray, List.idxOf?_eq_some_iff] at h
  obtain ⟨hlt, heq, _⟩ := h
  simp [hlt, heq]

theorem getElem?_push_of_getElem? {α : Type} {xs : Array α} {x y : α} {i : Nat}
    (h : xs[i]? = some x) : (xs.push y)[i]? = some x := by
  have hlt := (Array.getElem?_eq_some_iff.1 h).1
  rw [Array.getElem?_push, if_neg (Nat.ne_of_lt hlt), h]

/-- A new key and a state for it, which is pending. -/
def Draft.add (d : Draft) (key : Key) : Draft :=
  ⟨d.keys.push key, d.states.push {}, d.keys.size :: d.pending⟩

theorem extends_add (d : Draft) (key : Key) : Extends d (d.add key) where
  keys := fun _ _ => getElem?_push_of_getElem?
  states := fun _ _ => getElem?_push_of_getElem?
  count := by
    simp only [Draft.add, Array.size_push, List.length_cons]
    omega

theorem wellBuilt_add {d : Draft} {key : Key} (hd : WellBuilt a goal busy d)
    (hproper : key.Proper a goal) (hnew : key ∉ d.keys) : WellBuilt a goal busy (d.add key) where
  size_eq := by simp [Draft.add, hd.size_eq]
  nodup := by
    rw [Draft.add, Array.toList_push]
    exact List.nodup_append.2 ⟨hd.nodup, List.nodup_singleton _, by grind⟩
  proper := by
    intro k hk
    rw [Draft.add, Array.toList_push, List.mem_append, List.mem_singleton] at hk
    rcases hk with hk | rfl
    · exact hd.proper k hk
    · exact hproper
  pending_lt := by
    intro id hid
    simp only [Draft.add, Array.size_push]
    rcases List.mem_cons.1 hid with rfl | hid
    · omega
    · have := hd.pending_lt id hid
      omega
  finished := by
    intro id hlt
    simp only [Draft.add, Array.size_push] at hlt
    by_cases hid : id = d.keys.size
    · exact Or.inr (Or.inl (by simp [Draft.add, hid]))
    · rcases hd.finished id (by omega) with hbusy | hpending | hfinished
      · exact Or.inl hbusy
      · exact Or.inr (Or.inl (by simp [Draft.add, hpending]))
      · exact Or.inr (Or.inr (hfinished.mono (extends_add d key)))

/-- The number of a key belongs to that key. -/
theorem builds_intern {states : List Nat} {before : Category}
    (h : (keyOf a goal states before).Proper a goal) :
    Builds a goal busy (intern a goal states before) fun keys id =>
      keys[id]? = some (keyOf a goal states before) := by
  intro d hd
  unfold intern
  dsimp only
  rw [← keyOf]
  cases hidx : d.keys.idxOf? (keyOf a goal states before) with
  | some id => exact ⟨hd, Extends.refl d, getElem?_of_idxOf? hidx⟩
  | none =>
    have hnew := Array.idxOf?_eq_none_iff.1 hidx
    exact ⟨wellBuilt_add hd h hnew, extends_add d _, by simp⟩

/-! ## Transitions of a state -/

theorem Follows.append {keys : Array Key} {xs ys : List (CharSet × Nat)}
    {domain domain' : Char → Prop}
    {key : Char → Key} (h : Follows keys xs domain key) (h' : Follows keys ys domain' key) :
    Follows keys (xs ++ ys) (fun c => domain c ∨ domain' c) key where
  sound := by
    rintro c id ⟨set, hmem, hc⟩
    rcases List.mem_append.1 hmem with hmem | hmem
    · exact ⟨Or.inl (h.sound c id ⟨set, hmem, hc⟩).1, (h.sound c id ⟨set, hmem, hc⟩).2⟩
    · exact ⟨Or.inr (h'.sound c id ⟨set, hmem, hc⟩).1, (h'.sound c id ⟨set, hmem, hc⟩).2⟩
  total := by
    rintro c (hc | hc)
    · obtain ⟨id, set, hmem, htest⟩ := h.total c hc
      exact ⟨id, set, List.mem_append_left _ hmem, htest⟩
    · obtain ⟨id, set, hmem, htest⟩ := h'.total c hc
      exact ⟨id, set, List.mem_append_right _ hmem, htest⟩

theorem Follows.congr {keys : Array Key} {xs : List (CharSet × Nat)} {domain domain' : Char → Prop}
    {key key' : Char → Key} (h : Follows keys xs domain key) (hdomain : ∀ c, domain c ↔ domain' c)
    (hkey : ∀ c, domain c → key c = key' c) : Follows keys xs domain' key' where
  sound := fun c id hspells =>
    have ⟨hc, hid⟩ := h.sound c id hspells
    ⟨(hdomain c).1 hc, hkey c hc ▸ hid⟩
  total := fun c hc => h.total c ((hdomain c).2 hc)

/-- Lists of transitions for parts of a domain give one for the whole. -/
theorem follows_flatten {α : Type} {keys : Array Key} {xs : List α}
    {transitions : List (List (CharSet × Nat))} {domain : α → Char → Prop} {key : Char → Key}
    (h : List.Forall₂ (fun x ts => Follows keys ts (domain x) key) xs transitions) :
    Follows keys transitions.flatten (fun c => ∃ x ∈ xs, domain x c) key := by
  induction h with
  | nil => exact ⟨fun c id ⟨_, hmem, _⟩ => by simp at hmem, fun c ⟨_, hmem, _⟩ => by simp at hmem⟩
  | cons hx _ ih =>
    refine (hx.append ih).congr (fun c => ?_) fun _ _ => rfl
    rw [List.exists_mem_cons_iff]

theorem follows_singleton {keys : Array Key} {set : CharSet} {id : Nat} {key : Char → Key}
    (h : ∀ c, set.test c → keys[id]? = some (key c)) :
    Follows keys [(set, id)] (fun c => set.test c) key where
  sound := by
    rintro c id' ⟨set', hmem, hc⟩
    cases List.mem_singleton.1 hmem
    exact ⟨hc, h c hc⟩
  total := fun c hc => ⟨id, set, by simp, hc⟩

theorem follows_of_forall₂ {α : Type} {keys : Array Key} {xs : List α}
    {transitions : List (CharSet × Nat)} {domain : α → Char → Prop} {key : Char → Key}
    (h : List.Forall₂ (fun x t => Follows keys [t] (domain x) key) xs transitions) :
    Follows keys transitions (fun c => ∃ x ∈ xs, domain x c) key := by
  have hlists : List.Forall₂ (fun x ts => Follows keys ts (domain x) key) xs
      (transitions.map ([·])) := List.forall₂_map_right_iff.2 h
  have hflatten : (transitions.map ([·])).flatten = transitions := by
    rw [← List.flatMap_def, List.flatMap_singleton']
  have := follows_flatten hlists
  rwa [hflatten] at this

/-- A piece leads to the key of what its states lead to. -/
theorem builds_pieceTransitions (piece : CharSet × List Nat) :
    Builds a goal busy (pieceTransitions a goal piece) fun keys ts =>
      Follows keys ts (fun c => piece.1.test c)
        fun c => keyOf a goal (closure a goal piece.2) (.of c) := by
  obtain ⟨set, states⟩ := piece
  unfold pieceTransitions
  dsimp only
  split
  · have hpart : ∀ x ∈ ((Category.ofCharacters.map fun category =>
        (category, set.inter category.members)).filter fun x => !x.2.isEmpty),
        Builds a goal busy (do return (x.2, ← intern a goal (closure a goal states) x.1))
          fun keys t => Follows keys [t] (fun c => x.2.test c)
            fun c => keyOf a goal (closure a goal states) (.of c) := by
      intro x hx
      obtain ⟨category, _, rfl⟩ := List.mem_map.1 (List.mem_filter.1 hx).1
      refine builds_bind (builds_intern (proper_keyOf _ _)) fun id => builds_pure ?_
      intro keys keys' hkept hid
      refine follows_singleton fun c hc => ?_
      rw [CharSet.test_inter, Bool.and_eq_true, Category.test_members_iff] at hc
      rw [hc.2]
      exact hkept _ _ hid
    refine (builds_mapM (fun _ _ _ _ hkept h => h.mono hkept) hpart).imp ?_
    intro keys ts h
    refine (follows_of_forall₂ h).congr (fun c => ?_) fun _ _ => rfl
    constructor
    · rintro ⟨x, hx, hc⟩
      obtain ⟨category, _, rfl⟩ := List.mem_map.1 (List.mem_filter.1 hx).1
      rw [CharSet.test_inter, Bool.and_eq_true] at hc
      exact hc.1
    · intro hc
      have htest : (set.inter (Category.of c).members).test c := by
        rw [CharSet.test_inter, hc, Bool.true_and]
        exact (Category.test_members_iff _ _).2 rfl
      refine ⟨(.of c, set.inter (Category.of c).members), List.mem_filter.2 ⟨?_, ?_⟩, htest⟩
      · exact List.mem_map.2 ⟨_, Category.of_mem_ofCharacters c, rfl⟩
      · rw [Bool.not_eq_true', Bool.eq_false_iff, Ne, CharSet.isEmpty_iff]
        intro hempty
        rw [hempty c] at htest
        cases htest
  · rename_i hlook
    refine builds_bind (builds_intern (proper_keyOf _ _)) fun id => builds_pure ?_
    intro keys keys' hkept hid
    refine follows_singleton fun c hc => ?_
    rw [keyOf_congr (Bool.eq_false_iff.2 hlook) _ .other]
    exact hkept _ _ hid

/-- A character of a piece leads to just the states of the piece. -/
theorem closure_targets_of_mem {within : Option CharSet} {states : List Nat}
    {piece : CharSet × List Nat} (hpiece : piece ∈ partition a goal within states) {c : Char}
    (hc : piece.1.test c) (hwithin : within.all (·.test c)) :
    closure a goal piece.2 = closure a goal (targets a goal states c) := by
  refine closure_congr fun t => ?_
  rw [← leads_iff_of_mem (disjoint_partition within states) hpiece hc, leads_partition_iff]
  simp [hwithin]

/-- A character that leads on has a piece. -/
theorem exists_mem_partition {within : Option CharSet} {states : List Nat} {c : Char}
    (h : targets a goal states c ≠ []) (hwithin : within.all (·.test c)) :
    ∃ piece ∈ partition a goal within states, piece.1.test c := by
  obtain ⟨t, ht⟩ := List.exists_mem_of_ne_nil _ h
  obtain ⟨piece, hpiece, hc, _⟩ := leads_partition_iff.2 ⟨ht, hwithin⟩
  exact ⟨piece, hpiece, hc⟩

theorem RightState.ofFollows {keys : Array Key} {key : Key} {transitions : List (CharSet × Nat)}
    {domain : Char → Prop} {accepting : PerCategory Bool}
    (h : Follows keys transitions domain (key.next a goal))
    (hdomain : ∀ c, targets a goal (key.resolved a goal (.of c)) c ≠ [] → domain c)
    (haccepting : ∀ after, accepting.get after = (key.resolved a goal after).contains goal) :
    RightState a goal keys key ⟨mergeTargets transitions, accepting⟩ where
  accepting := haccepting
  sound := fun c id hspells => (h.sound c id (spells_mergeTargets_iff.1 hspells)).2
  total := fun c hc =>
    have ⟨id, hspells⟩ := h.total c (hdomain c hc)
    ⟨id, spells_mergeTargets_iff.2 hspells⟩

theorem builds_plainState {key : Key} (h : key.Proper a goal) (hnone : key.before = none) :
    Builds a goal busy (plainState a goal key.states) fun keys s =>
      RightState a goal keys key s := by
  have hlook : hasLook a goal (closure a goal key.states) = false := by
    rw [h.closed, ← h.before, hnone]
    rfl
  have hresolved (after : Category) : key.resolved a goal after = key.states := by
    rw [Key.resolved, resolve_eq_closure hlook, h.closed]
  have hpiece : ∀ piece ∈ partition a goal none key.states,
      Builds a goal busy (pieceTransitions a goal piece) fun keys ts =>
        Follows keys ts (fun c => piece.1.test c) (key.next a goal) := by
    intro piece hpiece
    refine (builds_pieceTransitions piece).imp fun keys ts h => h.congr (fun _ => Iff.rfl) ?_
    intro c hc
    rw [Key.next, hresolved, closure_targets_of_mem hpiece hc rfl]
  refine builds_bind (builds_mapM (fun _ _ _ _ hkept h => h.mono hkept) hpiece)
    fun ts => builds_pure fun keys keys' hkept hts => ?_
  refine RightState.ofFollows ((follows_flatten hts).mono hkept) (fun c hc => ?_) fun after => ?_
  · rw [hresolved] at hc
    exact exists_mem_partition hc rfl
  · rw [PerCategory.get_ofFn, hresolved]

theorem within_of_mem_partition {within : CharSet} {states : List Nat} {piece : CharSet × List Nat}
    (h : piece ∈ partition a goal (some within) states) {c : Char} (hc : piece.1.test c) :
    within.test c := by
  have hall : ∀ p ∈ partition a goal (some within) states, ∀ c, p.1.test c → within.test c := by
    refine List.foldlRecOn (motive := fun (pieces : List (CharSet × List Nat)) =>
      ∀ p ∈ pieces, ∀ c, p.1.test c → within.test c) states _ (by simp) ?_
    intro pieces hpieces state _ p hp c hc
    split at hp
    · rcases test_of_mem_refine hp hc with hset | ⟨q, hq, hqc⟩
      · rw [CharSet.test_inter, Bool.and_eq_true] at hset
        exact hset.2
      · exact hpieces q hq c hqc
    · exact hpieces p hp c hc
  exact hall piece h c hc

/-- The characters of one category lead to their keys. -/
theorem builds_categoryTransitions {key : Key} {before : Category} (hbefore : key.category = before)
    (category : Category) :
    Builds a goal busy (categoryTransitions a goal key.states before category) fun keys ts =>
      Follows keys ts
        (fun c => ∃ piece ∈ partition a goal (some category.members) (key.resolved a goal category),
          piece.1.test c)
        (key.next a goal) := by
  subst hbefore
  have hpiece : ∀ piece ∈ partition a goal (some category.members) (key.resolved a goal category),
      Builds a goal busy (do return (piece.1, ← intern a goal (closure a goal piece.2) category))
        fun keys t => Follows keys [t] (fun c => piece.1.test c) (key.next a goal) := by
    intro piece hpiece
    refine builds_bind (builds_intern (proper_keyOf _ _)) fun id => builds_pure ?_
    intro keys keys' hkept hid
    refine follows_singleton fun c hc => ?_
    have hwithin := within_of_mem_partition hpiece hc
    have hcategory := (Category.test_members_iff _ _).1 hwithin
    rw [Key.next, hcategory, ← closure_targets_of_mem hpiece hc (by simpa using hwithin)]
    exact hkept _ _ hid
  exact (builds_mapM (fun _ _ _ _ hkept h => h.mono hkept) hpiece).imp
    fun keys ts h => follows_of_forall₂ h

theorem builds_lookingState {key : Key} {before : Category} (hbefore : key.category = before) :
    Builds a goal busy (lookingState a goal key.states before) fun keys s =>
      RightState a goal keys key s := by
  refine builds_bind (builds_mapM (fun _ _ _ _ hkept h => h.mono hkept)
    fun category _ => builds_categoryTransitions hbefore category)
    fun ts => builds_pure fun keys keys' hkept hts => ?_
  refine RightState.ofFollows ((follows_flatten hts).mono hkept) (fun c hc => ?_) fun after => ?_
  · refine ⟨.of c, Category.of_mem_ofCharacters c, exists_mem_partition hc ?_⟩
    exact (Category.test_members_iff _ _).2 rfl
  · rw [PerCategory.get_ofFn, Key.resolved, hbefore]

/-- The state that is made for a key is right. -/
theorem builds_keyState {key : Key} (h : key.Proper a goal) :
    Builds a goal busy (keyState a goal key) fun keys s => RightState a goal keys key s := by
  unfold keyState
  split
  · rename_i hnone
    exact builds_plainState h hnone
  · rename_i before hsome
    exact builds_lookingState (by simp [Key.category, hsome])

/-! ## The end of the construction -/

/-- A state that has been made is finished. -/
theorem wellBuilt_set {d : Draft} {id : Nat} {key : Key} {s : State}
    (hd : WellBuilt a goal [id] d) (hkey : d.keys[id]? = some key)
    (hs : RightState a goal d.keys key s) :
    WellBuilt a goal [] { d with states := d.states.setIfInBounds id s } where
  size_eq := by simp [hd.size_eq]
  nodup := hd.nodup
  proper := hd.proper
  pending_lt := hd.pending_lt
  finished := by
    intro id' hlt
    by_cases hid : id' = id
    · subst hid
      refine Or.inr (Or.inr ⟨key, s, hkey, ?_, hs⟩)
      have := hd.size_eq
      simp only [Array.getElem?_setIfInBounds_self]
      rw [if_pos (by dsimp only at hlt; omega)]
    · rcases hd.finished id' hlt with hbusy | hpending | ⟨key', s', hkey', hs', hright⟩
      · exact absurd (List.mem_singleton.1 hbusy) hid
      · exact Or.inr (Or.inl hpending)
      · refine Or.inr (Or.inr ⟨key', s', hkey', ?_, hright⟩)
        rw [Array.getElem?_setIfInBounds_ne (Ne.symm hid)]
        exact hs'

/-- With fuel for all keys that there can be, no state is left pending. -/
theorem complete_spec {fuel : Nat} {d : Draft} (hd : WellBuilt a goal [] d)
    (hfuel : 5 * Nat.pow 2 a.states.size + d.pending.length ≤ fuel + d.keys.size) :
    WellBuilt a goal [] (complete a goal fuel d) ∧
      KeysKept d.keys (complete a goal fuel d).keys ∧ (complete a goal fuel d).pending = [] := by
  have hcount (d : Draft) (hd : WellBuilt a goal [] d) :
      d.keys.size ≤ 5 * Nat.pow 2 a.states.size :=
    length_le_of_proper hd.nodup hd.proper
  induction fuel generalizing d with
  | zero =>
    refine ⟨hd, fun _ _ h => h, List.eq_nil_of_length_eq_zero ?_⟩
    have := hcount d hd
    show d.pending.length = 0
    omega
  | succ fuel ih =>
    rw [complete]
    split
    · rename_i hpending
      exact ⟨hd, fun _ _ h => h, hpending⟩
    · rename_i id pending hpending
      have hlt := hd.pending_lt id (by simp [hpending])
      rw [Array.getElem?_eq_getElem hlt]
      dsimp only
      have hbusy : WellBuilt a goal [id] { d with pending } := by
        refine ⟨hd.size_eq, hd.nodup, hd.proper, fun i hi => hd.pending_lt i ?_, fun i hi => ?_⟩
        · rw [hpending]
          exact List.mem_cons_of_mem _ hi
        · rcases hd.finished i hi with hnone | hmem | hfinished
          · cases hnone
          · rw [hpending] at hmem
            rcases List.mem_cons.1 hmem with rfl | hmem
            · exact Or.inl (by simp)
            · exact Or.inr (Or.inl hmem)
          · exact Or.inr (Or.inr hfinished)
      have hproper := hd.proper d.keys[id] (by simp)
      obtain ⟨hbuilt, hextends, hright⟩ := builds_keyState hproper _ hbusy
      have hkey := hextends.keys id _ (Array.getElem?_eq_getElem hlt)
      have hfinished := wellBuilt_set hbuilt hkey hright
      have hlength := hextends.count
      rw [hpending, List.length_cons] at hfuel
      dsimp only at hlength
      obtain ⟨hwell, hkept, hnil⟩ := ih hfinished (by dsimp only; omega)
      exact ⟨hwell, hextends.keys.trans hkept, hnil⟩

end RegexEngine.Dfa
