import RegexEngine.Proofs.Layout.Basic

/-!
# What a step of the compilation leaves alone

A part is compiled from a state into a draft.  It changes that state and makes new
ones, and everything else stays.

* The steps of `Build` are computed on given drafts.
* `Draft.Booked` is what holds of the numbers of groups in every draft.
* `Draft.Grows` is what a step leaves alone.
-/

namespace RegexEngine.Automaton

/-! ## Steps -/

namespace Build

variable {α β : Type} {d d' : Draft}

/-- A step that does two things has a result if both have. -/
theorem bind_eq_ok {x : Build α} {f : α → Build β} {b : β} :
    (x >>= f) d = .ok (b, d') ↔ ∃ a d₁, x d = .ok (a, d₁) ∧ f a d₁ = .ok (b, d') := by
  show Except.bind (x d) (fun p => f p.1 p.2) = .ok (b, d') ↔ _
  cases x d with
  | error e => simp [Except.bind]
  | ok p => exact ⟨fun h => ⟨p.1, p.2, rfl, h⟩, fun ⟨_, _, hp, h⟩ => by cases hp; exact h⟩

theorem pure_eq_ok {a b : α} : (pure a : Build α) d = .ok (b, d') ↔ a = b ∧ d = d' := by
  show (Except.ok (a, d) : Except PatternError (α × Draft)) = .ok (b, d') ↔ _
  simp

theorem addState_eq_ok {id : Nat} : addState d = .ok (id, d') ↔
    id = d.states.size ∧ d' = { d with states := d.states.push {} } := by
  show (Except.ok (d.states.size, { d with states := d.states.push {} }) :
    Except PatternError (Nat × Draft)) = .ok (id, d') ↔ _
  simp [eq_comm]

theorem update_eq_ok {id : Nat} {f : State → State} : update id f d = .ok ((), d') ↔
    d' = { d with states := d.states.modify id f } := by
  show (Except.ok ((), { d with states := d.states.modify id f }) :
    Except PatternError (Unit × Draft)) = .ok ((), d') ↔ _
  simp [eq_comm]

theorem addSlot_eq_ok {id : Nat} : addSlot d = .ok (id, d') ↔
    id = d.slotCount ∧ d' = { d with slotCount := d.slotCount + 1 } := by
  show (Except.ok (d.slotCount, { d with slotCount := d.slotCount + 1 }) :
    Except PatternError (Nat × Draft)) = .ok (id, d') ↔ _
  simp [eq_comm]

theorem addLoop_eq_ok {id : Nat} : addLoop d = .ok (id, d') ↔
    id = d.loopCount ∧ d' = { d with loopCount := d.loopCount + 1 } := by
  show (Except.ok (d.loopCount, { d with loopCount := d.loopCount + 1 }) :
    Except PatternError (Nat × Draft)) = .ok (id, d') ↔ _
  simp [eq_comm]

theorem modify_eq_ok {f : Draft → Draft} :
    (modify f : Build Unit) d = .ok ((), d') ↔ d' = f d := by
  show (Except.ok ((), f d) : Except PatternError (Unit × Draft)) = .ok ((), d') ↔ _
  simp [eq_comm]

theorem get_eq_ok {d₁ : Draft} : (get : Build Draft) d = .ok (d₁, d') ↔ d = d₁ ∧ d = d' := by
  show (Except.ok (d, d) : Except PatternError (Draft × Draft)) = .ok (d₁, d') ↔ _
  simp

theorem set_eq_ok {d₁ : Draft} : (set d₁ : Build PUnit) d = .ok ((), d') ↔ d' = d₁ := by
  show (Except.ok ((), d₁) : Except PatternError (PUnit × Draft)) = .ok ((), d') ↔ _
  simp [eq_comm]

end Build

/-! ## Groups -/

namespace Draft

/-- The slot of a group. -/
def slot? (d : Draft) : GroupKey → Option Nat
  | .index n => d.groups[n]?
  | .name s => d.names.lookup s

/-- Each slot belongs to one group, the next group has a number that fits, and where
there are captures there are slots for them. -/
structure Booked (d : Draft) : Prop where
  /-- No two groups share a slot. -/
  injective : ∀ key key' id, d.slot? key = some id → d.slot? key' = some id → key = key'
  /-- The slots have been made. -/
  lt_slotCount : ∀ key id, d.slot? key = some id → id < d.slotCount
  /-- Slot 0 belongs to the whole match. -/
  whole : d.slot? (.index 0) = some 0
  /-- Each slot belongs to a group. -/
  exists_key : ∀ id, id < d.slotCount → ∃ key, d.slot? key = some id
  /-- Groups are numbered without gaps. -/
  lastGroup_lt : d.lastGroup < d.groups.size
  /-- Captures have slots. -/
  captures : 0 < d.captureCount → 1 < d.slotCount
  /-- Fragments with captures have slots, and none has been replaced. -/
  fragments : ∀ (id : Nat) (f : Fragment), d.fragments[id]? = some f →
    (f.captures → 1 < d.slotCount) ∧ f.dfa = none

/-- What stays the same but for the state `start` and the states from `base` on. -/
structure Grows (base start : Nat) (d d' : Draft) : Prop where
  /-- No state is lost. -/
  size_le : d.states.size ≤ d'.states.size
  /-- Other states stay. -/
  states : ∀ id, id < base → id ≠ start → d'.states[id]? = d.states[id]?
  /-- No fragment is lost. -/
  fragments_le : d.fragments.size ≤ d'.fragments.size
  /-- Fragments stay. -/
  fragments : ∀ id, id < d.fragments.size → d'.fragments[id]? = d.fragments[id]?
  /-- Groups keep their slots. -/
  slot? : ∀ key id, d.slot? key = some id → d'.slot? key = some id
  /-- No loop is lost. -/
  loopCount_le : d.loopCount ≤ d'.loopCount
  /-- No capture is lost. -/
  captureCount_le : d.captureCount ≤ d'.captureCount
  /-- No group is lost. -/
  groups_le : d.groups.size ≤ d'.groups.size
  /-- The numbers of groups stay in order. -/
  booked : d.Booked → d'.Booked

variable {base start : Nat} {d d' d'' : Draft}

theorem Grows.refl (base start : Nat) (d : Draft) : Grows base start d d where
  size_le := Nat.le_refl _
  states _ _ _ := rfl
  fragments_le := Nat.le_refl _
  fragments _ _ := rfl
  slot? _ _ h := h
  loopCount_le := Nat.le_refl _
  captureCount_le := Nat.le_refl _
  groups_le := Nat.le_refl _
  booked h := h

theorem Grows.trans (h : Grows base start d d') (h' : Grows base start d' d'') :
    Grows base start d d'' where
  size_le := Nat.le_trans h.size_le h'.size_le
  states id hid hne := (h'.states id hid hne).trans (h.states id hid hne)
  fragments_le := Nat.le_trans h.fragments_le h'.fragments_le
  fragments id hid :=
    (h'.fragments id (Nat.lt_of_lt_of_le hid h.fragments_le)).trans (h.fragments id hid)
  slot? key id hid := h'.slot? key id (h.slot? key id hid)
  loopCount_le := Nat.le_trans h.loopCount_le h'.loopCount_le
  captureCount_le := Nat.le_trans h.captureCount_le h'.captureCount_le
  groups_le := Nat.le_trans h.groups_le h'.groups_le
  booked hd := h'.booked (h.booked hd)

/-- What stays the same for a part stays the same for what the part is in. -/
theorem Grows.mono {base' start' : Nat} (h : Grows base start d d') (hbase : base' ≤ base)
    (hstart : start = start' ∨ base' ≤ start) : Grows base' start' d d' where
  size_le := h.size_le
  states id hid hne := h.states id (by omega) (by omega)
  fragments_le := h.fragments_le
  fragments := h.fragments
  slot? := h.slot?
  loopCount_le := h.loopCount_le
  captureCount_le := h.captureCount_le
  groups_le := h.groups_le
  booked := h.booked

/-- If nothing is said of the states then nothing need be known of them. -/
theorem Grows.weaken (h : Grows base start d d') : Grows 0 0 d d' :=
  h.mono (Nat.zero_le _) (.inr (Nat.zero_le _))

/-- Only states are added. -/
theorem grows_addState (h : base ≤ d.states.size) :
    Grows base start d { d with states := d.states.push {} } where
  size_le := by simp
  states id hid _ := by
    rw [Array.getElem?_push_lt (by omega)]; simp [show id < d.states.size by omega]
  fragments_le := Nat.le_refl _
  fragments _ _ := rfl
  slot? _ _ h := h
  loopCount_le := Nat.le_refl _
  captureCount_le := Nat.le_refl _
  groups_le := Nat.le_refl _
  booked h := ⟨h.injective, h.lt_slotCount, h.whole, h.exists_key, h.lastGroup_lt, h.captures,
    h.fragments⟩

/-- Only a state is changed. -/
theorem grows_update {id : Nat} (h : id = start ∨ base ≤ id) (f : State → State) :
    Grows base start d { d with states := d.states.modify id f } where
  size_le := by simp
  states id' hid hne := by rw [Array.getElem?_modify, if_neg (by omega)]
  fragments_le := Nat.le_refl _
  fragments _ _ := rfl
  slot? _ _ h := h
  loopCount_le := Nat.le_refl _
  captureCount_le := Nat.le_refl _
  groups_le := Nat.le_refl _
  booked h := ⟨h.injective, h.lt_slotCount, h.whole, h.exists_key, h.lastGroup_lt, h.captures,
    h.fragments⟩

/-- A step that leaves alone the states and the fragments. -/
theorem grows_of_same (hstates : d'.states = d.states) (hfragments : d'.fragments = d.fragments)
    (hslot? : ∀ key id, d.slot? key = some id → d'.slot? key = some id)
    (hloops : d.loopCount ≤ d'.loopCount) (hcaptures : d.captureCount ≤ d'.captureCount)
    (hgroups : d.groups.size ≤ d'.groups.size) (hbooked : d.Booked → d'.Booked) :
    Grows base start d d' where
  size_le := Nat.le_of_eq (by rw [hstates])
  states _ _ _ := by rw [hstates]
  fragments_le := Nat.le_of_eq (by rw [hfragments])
  fragments _ _ := by rw [hfragments]
  slot? := hslot?
  loopCount_le := hloops
  captureCount_le := hcaptures
  groups_le := hgroups
  booked := hbooked

/-- Only a region is noted. -/
theorem grows_regions (regions : List Region) : Grows base start d { d with regions } :=
  grows_of_same rfl rfl (fun _ _ h => h) (Nat.le_refl _) (Nat.le_refl _) (Nat.le_refl _) fun h =>
    ⟨h.injective, h.lt_slotCount, h.whole, h.exists_key, h.lastGroup_lt, h.captures, h.fragments⟩

/-- Only a loop is made. -/
theorem grows_addLoop : Grows base start d { d with loopCount := d.loopCount + 1 } :=
  grows_of_same rfl rfl (fun _ _ h => h) (Nat.le_succ _) (Nat.le_refl _) (Nat.le_refl _) fun h =>
    ⟨h.injective, h.lt_slotCount, h.whole, h.exists_key, h.lastGroup_lt, h.captures, h.fragments⟩

/-- Groups are numbered from an earlier number on. -/
theorem grows_lastGroup {lastGroup : Nat} (h : d.Booked → lastGroup < d.groups.size) :
    Grows base start d { d with lastGroup } :=
  grows_of_same rfl rfl (fun _ _ h => h) (Nat.le_refl _) (Nat.le_refl _) (Nat.le_refl _) fun hd =>
    ⟨hd.injective, hd.lt_slotCount, hd.whole, hd.exists_key, h hd, hd.captures, hd.fragments⟩

/-- A capture is counted that has a slot. -/
theorem grows_captureCount (h : d.Booked → 1 < d.slotCount) :
    Grows base start d { d with captureCount := d.captureCount + 1 } :=
  grows_of_same rfl rfl (fun _ _ h => h) (Nat.le_refl _) (Nat.le_succ _) (Nat.le_refl _) fun hd =>
    ⟨hd.injective, hd.lt_slotCount, hd.whole, hd.exists_key, hd.lastGroup_lt, fun _ => h hd,
      hd.fragments⟩

/-- A fragment is added. -/
theorem grows_fragment {f : Fragment} (hdfa : f.dfa = none)
    (hcaptures : d.Booked → f.captures → 1 < d.slotCount) :
    Grows base start d { d with fragments := d.fragments.push f } where
  size_le := Nat.le_refl _
  states _ _ _ := rfl
  fragments_le := by simp
  fragments id hid := by rw [Array.getElem?_push_lt hid]; simp [hid]
  slot? _ _ h := h
  loopCount_le := Nat.le_refl _
  captureCount_le := Nat.le_refl _
  groups_le := Nat.le_refl _
  booked hd := by
    refine ⟨hd.injective, hd.lt_slotCount, hd.whole, hd.exists_key, hd.lastGroup_lt,
      hd.captures, ?_⟩
    intro id f' hf'
    rw [Array.getElem?_push] at hf'
    split at hf'
    · obtain rfl := Option.some.inj hf'
      exact ⟨hcaptures hd, hdfa⟩
    · exact hd.fragments id f' hf'

/-- A new group gets a slot of its own. -/
theorem Booked.add_key (h : d.Booked) {key : GroupKey} (hnew : d.slot? key = none)
    (hslot? : ∀ key', d'.slot? key' = if key' = key then some d.slotCount else d.slot? key')
    (hcount : d'.slotCount = d.slotCount + 1) (hfragments : d'.fragments = d.fragments)
    (hlast : d'.lastGroup < d'.groups.size) : d'.Booked := by
  have hwhole : key ≠ .index 0 := by
    rintro rfl
    rw [h.whole] at hnew
    cases hnew
  have hmany := h.lt_slotCount _ _ h.whole
  refine ⟨?_, ?_, ?_, ?_, hlast, fun _ => by omega, ?_⟩
  · intro key₁ key₂ id h₁ h₂
    rw [hslot?] at h₁ h₂
    split at h₁ <;> split at h₂
    · simp_all
    · have := h.lt_slotCount _ _ h₂
      cases h₁
      omega
    · have := h.lt_slotCount _ _ h₁
      cases h₂
      omega
    · exact h.injective _ _ _ h₁ h₂
  · intro key' id h'
    rw [hslot?] at h'
    split at h'
    · cases h'
      omega
    · have := h.lt_slotCount _ _ h'
      omega
  · rw [hslot?, if_neg (Ne.symm hwhole), h.whole]
  · intro id hid
    by_cases hlast : id = d.slotCount
    · exact ⟨key, by rw [hslot?, if_pos rfl, hlast]⟩
    · obtain ⟨key', hkey'⟩ := h.exists_key id (by omega)
      refine ⟨key', ?_⟩
      rw [hslot?, if_neg, hkey']
      rintro rfl
      rw [hnew] at hkey'
      cases hkey'
  · intro id f hf
    obtain ⟨hcaptures, hdfa⟩ := h.fragments id f (by rwa [hfragments] at hf)
    exact ⟨fun hf => by have := hcaptures hf; omega, hdfa⟩

/-- What opening a group does to a draft. -/
structure Opens (key : GroupKey) (numbered slot : Nat) (d d' : Draft) : Prop where
  /-- The group has the slot. -/
  slot?_eq : d'.slot? key = some slot
  /-- There is a slot besides that of the whole match. -/
  one_lt_slotCount : 1 < d'.slotCount
  /-- The group may have been numbered. -/
  lastGroup_eq : d'.lastGroup = d.lastGroup + numbered
  /-- No state is made. -/
  states_eq : d'.states = d.states
  /-- No fragment is made. -/
  fragments_eq : d'.fragments = d.fragments
  /-- No loop is made. -/
  loopCount_eq : d'.loopCount = d.loopCount
  /-- No capture is counted. -/
  captureCount_eq : d'.captureCount = d.captureCount
  /-- Nothing is lost. -/
  grows : ∀ base start, Grows base start d d'

/-- The slot of a group other than the whole match is not slot 0. -/
theorem Booked.one_lt_slotCount (h : d.Booked) (key : GroupKey) {slot : Nat}
    (hkey : d.slot? key = some slot) (hne : key ≠ .index 0) : 1 < d.slotCount := by
  have hlt := h.lt_slotCount _ _ hkey
  have hslot : slot ≠ 0 := by
    rintro rfl
    exact hne (h.injective _ _ _ hkey h.whole)
  omega

/-- A group without a slot is opened with a new one. -/
theorem opens_of_new {key : GroupKey} {numbered : Nat} (h : d.Booked)
    (hnew : d.slot? key = none)
    (hslot? : ∀ key', d'.slot? key' = if key' = key then some d.slotCount else d.slot? key')
    (hcount : d'.slotCount = d.slotCount + 1) (hlast : d'.lastGroup = d.lastGroup + numbered)
    (hstates : d'.states = d.states) (hfragments : d'.fragments = d.fragments)
    (hloops : d'.loopCount = d.loopCount) (hcaptures : d'.captureCount = d.captureCount)
    (hgroups : d.groups.size ≤ d'.groups.size) (hlt : d'.lastGroup < d'.groups.size) :
    Opens key numbered d.slotCount d d' := by
  have hmany := h.lt_slotCount _ _ h.whole
  have hbooked := h.add_key hnew hslot? hcount hfragments hlt
  refine ⟨by rw [hslot?, if_pos rfl], by omega, hlast, hstates, hfragments, hloops, hcaptures,
    fun _ _ => grows_of_same hstates hfragments (fun key' id hkey => ?_)
      (Nat.le_of_eq hloops.symm) (Nat.le_of_eq hcaptures.symm) hgroups fun _ => hbooked⟩
  rw [hslot?, if_neg, hkey]
  rintro rfl
  rw [hnew] at hkey
  cases hkey

theorem opens_groupSlot_name {name : String} {slot : Nat} (h : d.Booked)
    (hrun : Build.groupSlot (some name) d = .ok (slot, d')) : Opens (.name name) 0 slot d d' := by
  unfold Build.groupSlot at hrun
  obtain ⟨_, _, hget, hrun⟩ := Build.bind_eq_ok.1 hrun
  obtain ⟨rfl, rfl⟩ := Build.get_eq_ok.1 hget
  cases hlookup : d.names.lookup name with
  | some slot' =>
    rw [hlookup] at hrun
    obtain ⟨rfl, rfl⟩ := Build.pure_eq_ok.1 hrun
    exact ⟨hlookup, h.one_lt_slotCount (.name name) hlookup (by simp), rfl, rfl, rfl, rfl, rfl,
      fun _ _ => .refl _ _ _⟩
  | none =>
    rw [hlookup] at hrun
    obtain ⟨_, _, hadd, hrun⟩ := Build.bind_eq_ok.1 hrun
    obtain ⟨rfl, rfl⟩ := Build.addSlot_eq_ok.1 hadd
    obtain ⟨_, _, hmodify, hrun⟩ := Build.bind_eq_ok.1 hrun
    obtain rfl := Build.modify_eq_ok.1 hmodify
    obtain ⟨rfl, rfl⟩ := Build.pure_eq_ok.1 hrun
    have hnew : d.slot? (.name name) = none := hlookup
    have hslot? (key : GroupKey) : Draft.slot?
        { d with slotCount := d.slotCount + 1, names := d.names ++ [(name, d.slotCount)] } key =
          if key = .name name then some d.slotCount else d.slot? key := by
      cases key with
      | index n => simp [slot?]
      | name s =>
        by_cases hs : s = name
        · subst hs
          simp [slot?, List.lookup_append, hlookup]
        · have hne : (s == name) = false := by simpa using hs
          simp [slot?, List.lookup_append, hs, List.lookup_cons, hne]
    exact opens_of_new h hnew hslot? rfl rfl rfl rfl rfl rfl (Nat.le_refl _) h.lastGroup_lt

theorem opens_groupSlot_index {slot : Nat} (h : d.Booked)
    (hrun : Build.groupSlot none d = .ok (slot, d')) :
    Opens (.index (d.lastGroup + 1)) 1 slot d d' := by
  unfold Build.groupSlot at hrun
  obtain ⟨_, _, hmodify, hrun⟩ := Build.bind_eq_ok.1 hrun
  obtain rfl := Build.modify_eq_ok.1 hmodify
  obtain ⟨_, _, hget, hrun⟩ := Build.bind_eq_ok.1 hrun
  obtain ⟨rfl, rfl⟩ := Build.get_eq_ok.1 hget
  have hlast := h.lastGroup_lt
  cases hlookup : d.groups[d.lastGroup + 1]? with
  | some slot' =>
    simp only [hlookup] at hrun
    obtain ⟨rfl, rfl⟩ := Build.pure_eq_ok.1 hrun
    refine ⟨hlookup, h.one_lt_slotCount (.index (d.lastGroup + 1)) hlookup (by simp), rfl, rfl,
      rfl, rfl, rfl, fun _ _ => grows_lastGroup fun _ => ?_⟩
    exact (Array.getElem?_eq_some_iff.1 hlookup).1
  | none =>
    simp only [hlookup] at hrun
    obtain ⟨_, _, hadd, hrun⟩ := Build.bind_eq_ok.1 hrun
    obtain ⟨rfl, rfl⟩ := Build.addSlot_eq_ok.1 hadd
    obtain ⟨_, _, hmodify, hrun⟩ := Build.bind_eq_ok.1 hrun
    obtain rfl := Build.modify_eq_ok.1 hmodify
    obtain ⟨rfl, rfl⟩ := Build.pure_eq_ok.1 hrun
    have hsize : d.groups.size = d.lastGroup + 1 := by
      have := Array.getElem?_eq_none_iff.1 hlookup
      omega
    have hnew : d.slot? (.index (d.lastGroup + 1)) = none := hlookup
    have hslot? (key : GroupKey) : Draft.slot?
        { d with lastGroup := d.lastGroup + 1, slotCount := d.slotCount + 1,
                 groups := d.groups.push d.slotCount } key =
          if key = .index (d.lastGroup + 1) then some d.slotCount else d.slot? key := by
      cases key with
      | name s => simp [slot?]
      | index n => simp [slot?, Array.getElem?_push, hsize]
    exact opens_of_new h hnew hslot? rfl rfl rfl rfl rfl rfl (by simp) (by simp [hsize])

end Draft

end RegexEngine.Automaton
