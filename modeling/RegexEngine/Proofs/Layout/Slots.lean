import RegexEngine.Proofs.Layout.Basic
import RegexEngine.Proofs.Meaning.Within

/-!
# Groups in slots

A meaning has groups by key, and a search has slots.

* `Groups.slots` is how groups are held in slots, where the slots belong to the given
  keys.  Opening and closing a group changes its slot.
* `Pattern.slot?_of_layout`: the groups of a pattern that lies in an automaton have
  slots.  So no other group is ever opened.
-/

namespace RegexEngine

/-- The slots belong to the given groups, in their order. -/
def Automaton.Keyed (a : Automaton) (keys : List GroupKey) : Prop :=
  ∀ key id, a.slot? key = some id ↔ keys[id]? = some key

/-- Only groups that have a slot have been opened. -/
def Automaton.Knows (a : Automaton) (groups : Groups) : Prop :=
  ∀ key, a.slot? key = none → groups key = none

/-- The slots that hold the groups. -/
def Groups.slots (keys : List GroupKey) (groups : Groups) : Slots :=
  (keys.map groups).toArray

section Slots

variable {a : Automaton} {keys : List GroupKey} {groups : Groups} {key : GroupKey} {id pos : Nat}

theorem Groups.size_slots (keys : List GroupKey) (groups : Groups) :
    (groups.slots keys).size = keys.length := by
  simp [slots]

theorem Groups.getElem?_slots (h : keys[id]? = some key) :
    (groups.slots keys)[id]? = some (groups key) := by
  simp [slots, h]

theorem lt_length_of_keyed (hkeyed : a.Keyed keys) (h : a.slot? key = some id) :
    id < keys.length := by
  have := (hkeyed key id).1 h
  exact (List.getElem?_eq_some_iff.1 this).1

/-- Which groups the slots belong to is told by the slots of the groups. -/
theorem Automaton.Keyed.eq {b : Automaton} {keys' : List GroupKey} (h : a.Keyed keys)
    (h' : b.Keyed keys') (hslot? : ∀ key, a.slot? key = b.slot? key) : keys = keys' := by
  apply List.ext_getElem?
  intro id
  apply Option.ext
  intro key
  rw [← h key id, ← h' key id, hslot?]

/-- Changing a slot is changing its group. -/
theorem Groups.slots_set (hkeyed : a.Keyed keys) (h : a.slot? key = some id) (slot : Option Slot) :
    (groups.slots keys).setIfInBounds id slot = (groups.set key slot).slots keys := by
  refine Array.ext_getElem? fun i => ?_
  by_cases hi : i = id
  · subst hi
    have hget := (hkeyed key i).1 h
    have hlt := lt_length_of_keyed hkeyed h
    rw [Groups.getElem?_slots hget, Groups.set, if_pos rfl]
    simp [slots, hlt]
  · rw [Array.getElem?_setIfInBounds_ne (Ne.symm hi)]
    cases hget : keys[i]? with
    | none => simp [slots, hget]
    | some key' =>
      have hne : key' ≠ key := by
        rintro rfl
        exact hi (Option.some.inj (((hkeyed _ _).2 hget).symm.trans h))
      rw [Groups.getElem?_slots hget, Groups.getElem?_slots hget, Groups.set, if_neg hne]

theorem Groups.slots_opened (hkeyed : a.Keyed keys) (h : a.slot? key = some id) :
    Slots.opened (groups.slots keys) id pos = (groups.opened key pos).slots keys :=
  slots_set hkeyed h _

theorem Groups.slots_closed (hkeyed : a.Keyed keys) (h : a.slot? key = some id) :
    Slots.closed (groups.slots keys) id pos = (groups.closed key pos).slots keys := by
  unfold Slots.closed closed
  rw [Groups.getElem?_slots ((hkeyed key id).1 h)]
  exact slots_set hkeyed h _

theorem Automaton.Knows.set (h : a.Knows groups) (hkey : a.slot? key = some id)
    (slot : Option Slot) : a.Knows (groups.set key slot) := by
  intro key' hkey'
  have hne : key' ≠ key := by
    rintro rfl
    rw [hkey'] at hkey
    cases hkey
  rw [Groups.set, if_neg hne]
  exact h key' hkey'

end Slots

/-! ## The groups of a pattern have slots -/

namespace Layout

/-- A layout is found only in automata with a property. -/
def Needs (P : Automaton → Prop) (layout : Layout) : Prop :=
  ∀ site rank lo hi start exit, layout site rank lo hi start exit → P site.automaton

/-- Alternatives are found only in automata with a property. -/
def Branches.Needs (P : Automaton → Prop) (branches : Branches) : Prop :=
  ∀ site starts rank lo hi exit, branches site starts rank lo hi exit → P site.automaton

variable {P : Automaton → Prop} {first second body : Layout}

theorem Needs.seq_left (h : first.Needs P) : (seq first second).Needs P := by
  rintro site rank lo hi start exit ⟨_, _, _, _, -, -, hfirst, -⟩
  exact h _ _ _ _ _ _ hfirst

theorem Needs.seq_right (h : second.Needs P) : (seq first second).Needs P := by
  rintro site rank lo hi start exit ⟨_, _, _, _, -, -, -, hsecond⟩
  exact h _ _ _ _ _ _ hsecond

theorem Needs.around (h : body.Needs P) (action : Nat → Nat → Action) :
    (around body action).Needs P := by
  rintro site rank lo hi start exit ⟨_, _, -, -, hisolated⟩
  obtain ⟨_, -, hbody⟩ := hisolated.body
  exact h (site.inner _ _) _ _ _ _ _ hbody

theorem Needs.capture (h : body.Needs P) (key : GroupKey) : (capture key body).Needs P := by
  rintro site rank lo hi start exit ⟨_, _, _, _, -, -, -, -, hbody, -⟩
  exact h _ _ _ _ _ _ hbody

theorem needs_capture (key : GroupKey) :
    (capture key body).Needs fun a => ∃ slot, a.slot? key = some slot := by
  rintro site rank lo hi start exit ⟨_, slot, _, _, -, -, hslot, -, -, -⟩
  exact ⟨slot, hslot⟩

theorem Needs.repeated (h : body.Needs P) {min : Nat} {max : Option Nat}
    (hmany : max ≠ some 0 ∨ min ≠ 0) (lazy : Bool) : (repeated body min max lazy).Needs P := by
  cases min with
  | succ min => exact (h.seq_left).seq_left
  | zero =>
    refine Needs.seq_right ?_
    match max with
    | none =>
      rintro site rank lo hi start exit ⟨_, _, _, -, -, -, -, -, -, -, hbody, -⟩
      exact h _ _ _ _ _ _ hbody
    | some 0 => simp at hmany
    | some (max + 1) =>
      rintro site rank lo hi start exit ⟨_, _, -, -, -, hseq⟩
      exact h.seq_left _ _ _ _ _ _ hseq

end Layout

namespace Pattern

open Layout

/-- The groups have slots. -/
def HaveSlots (keys : List GroupKey) (a : Automaton) : Prop :=
  ∀ key ∈ keys, ∃ slot, a.slot? key = some slot

theorem haveSlots_nil (layout : Layout) : layout.Needs (HaveSlots []) :=
  fun _ _ _ _ _ _ _ _ hkey => by cases hkey

theorem haveSlots_cons {key : GroupKey} {keys : List GroupKey} {layout : Layout}
    (h : layout.Needs fun a => ∃ slot, a.slot? key = some slot)
    (h' : layout.Needs (HaveSlots keys)) :
    layout.Needs (HaveSlots (key :: keys)) := by
  intro site rank lo hi start exit hlayout key' hkey'
  rcases List.mem_cons.1 hkey' with rfl | hkey'
  · exact h _ _ _ _ _ _ hlayout
  · exact h' _ _ _ _ _ _ hlayout key' hkey'

mutual

/-- The groups of a pattern that lies in an automaton have slots. -/
theorem slot?_of_layout (o : Options) (base : Nat) :
    (p : Pattern) → (layout o base p).Needs (HaveSlots (keys base p))
  | text cs => haveSlots_nil _
  | concat parts => slot?_of_layoutAll o base parts
  | alt branches => by
    rintro site rank lo hi start exit ⟨_, _, -, -, hbranches⟩
    exact slot?_of_layoutAny o base branches _ _ _ _ _ _ hbranches
  | repeated body min max mode => by
    have hbody := slot?_of_layout o base body
    unfold layout keys
    by_cases hmode : mode = .possessive
    · rw [if_pos hmode, if_neg fun hkeys => hkeys.2.2 hmode]
      exact hbody.around _
    · rw [if_neg hmode]
      split
      · exact haveSlots_nil _
      · rename_i hmany
        refine hbody.repeated ?_ _
        by_cases hmin : min = 0
        · exact .inl fun hmax => hmany ⟨hmax, hmin, hmode⟩
        · exact .inr hmin
  | oneOf set => haveSlots_nil _
  | assert assertion => haveSlots_nil _
  | withFlags flags body => slot?_of_layout (o.overlay flags) base body
  | lookAround direction negated body => (slot?_of_layout o base body).around _
  | atomic body => (slot?_of_layout o base body).around _
  | capture (some name) body =>
    haveSlots_cons (needs_capture _) ((slot?_of_layout o base body).capture _)
  | capture none body =>
    haveSlots_cons (needs_capture _) ((slot?_of_layout o (base + 1) body).capture _)
  | reference group => haveSlots_nil _

theorem slot?_of_layoutAll (o : Options) (base : Nat) :
    (parts : List Pattern) → (layoutAll o base parts).Needs (HaveSlots (keysAll base parts))
  | [] => haveSlots_nil _
  | part :: parts => by
    intro site rank lo hi start exit hlayout key hkey
    rcases List.mem_append.1 hkey with hkey | hkey
    · exact (slot?_of_layout o base part).seq_left _ _ _ _ _ _ hlayout key hkey
    · exact (slot?_of_layoutAll o (base + numbered part) parts).seq_right _ _ _ _ _ _ hlayout
        key hkey

theorem slot?_of_layoutAny (o : Options) (base : Nat) :
    (branches : List Pattern) →
    (layoutAny o base branches).Needs (HaveSlots (keysAll base branches))
  | [] => fun _ _ _ _ _ _ _ _ hkey => by cases hkey
  | branch :: branches => by
    rintro site starts rank lo hi exit ⟨_, _, _, _, _, -, -, -, -, hbranch, hbranches⟩ key hkey
    rcases List.mem_append.1 hkey with hkey | hkey
    · exact slot?_of_layout o base branch _ _ _ _ _ _ hbranch key hkey
    · exact slot?_of_layoutAny o (base + numbered branch) branches _ _ _ _ _ _ hbranches key hkey

end

/-- The endings of a pattern that lies in an automaton open no unknown group. -/
theorem onCourse_of_layout {o : Options} {base : Nat} {p : Pattern} {site : Site}
    {rank lo hi start exit : Nat} (h : layout o base p site rank lo hi start exit)
    (text : Subject) :
    Meaning.OnCourse text (.keeping (fun _ => True) site.automaton.Knows)
      (meaning text o base p) := by
  refine onCourse_meaning_of_set o base p fun key hkey groups slot hknows => ?_
  obtain ⟨id, hid⟩ := slot?_of_layout o base p _ _ _ _ _ _ h key hkey
  exact hknows.set hid slot

end Pattern

end RegexEngine
