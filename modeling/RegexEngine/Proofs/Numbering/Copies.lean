import RegexEngine.Proofs.Numbering.Preorder
import RegexEngine.Proofs.Promotion.Variant

/-!
# Every copy of a capture has one slot

Repetition copies what it repeats.  All copies of a capture open and close one slot, which is
that of the number or the name that the capture has in the pattern.

* `Pattern.Context.layout` is how a filled context lies in an automaton, with what lies wherever
  there is a copy of the hole.
* `Automaton.NumbersGroups` says how the groups of a pattern are numbered in an automaton.
* `Automaton.numbersGroups` is about the automata of a pattern.
-/

namespace RegexEngine

namespace Pattern

/-! ## Contexts in automata -/

/-- Patterns one after the other, and then something else. -/
def layoutBefore (o : Options) (base : Nat) (rest : Layout) : List Pattern → Layout
  | [] => rest
  | part :: parts => .seq (layout o base part) (layoutBefore o (base + numbered part) rest parts)

/-- Branches, and then other ones. -/
def branchesBefore (o : Options) (base : Nat) (rest : Layout.Branches) :
    List Pattern → Layout.Branches
  | [] => rest
  | branch :: branches =>
    .cons (layout o base branch) (branchesBefore o (base + numbered branch) rest branches)

theorem layoutAll_append (o : Options) (base : Nat) (parts parts' : List Pattern) :
    layoutAll o base (parts ++ parts') =
      layoutBefore o base (layoutAll o (base + numberedAll parts) parts') parts := by
  induction parts generalizing base with
  | nil => simp [layoutBefore, numberedAll]
  | cons part parts ih =>
    simp only [List.cons_append, layoutAll, layoutBefore, ih, numberedAll, Nat.add_assoc]

theorem layoutAny_append (o : Options) (base : Nat) (branches branches' : List Pattern) :
    layoutAny o base (branches ++ branches') =
      branchesBefore o base (layoutAny o (base + numberedAll branches) branches') branches := by
  induction branches generalizing base with
  | nil => simp [branchesBefore, numberedAll]
  | cons branch branches ih =>
    simp only [List.cons_append, layoutAny, branchesBefore, ih, numberedAll, Nat.add_assoc]

namespace Context

/-- How a context lies in an automaton that is filled with `q`, where each copy of `q` lies as
`copy` says. -/
def layout (q : Pattern) (copy : Layout) (o : Options) (base : Nat) : Context → Layout
  | hole => copy
  | concat before inner after =>
    layoutBefore o base
      (.seq (inner.layout q copy o (base + numberedAll before))
        (layoutAll o (base + numberedAll before + (inner.fill q).numbered) after)) before
  | alt before inner after =>
    .alt (branchesBefore o base
      (.cons (inner.layout q copy o (base + numberedAll before))
        (layoutAny o (base + numberedAll before + (inner.fill q).numbered) after)) before)
  | repeated inner min max mode =>
    if mode = .possessive then .around (inner.layout q copy o base) (.possessive · min max)
    else .repeated (inner.layout q copy o base) min max (mode == .lazy)
  | withFlags flags inner => inner.layout q copy (o.overlay flags) base
  | lookAround direction negated inner =>
    .around (inner.layout q copy o base) (.lookAround direction negated)
  | atomic inner => .around (inner.layout q copy o base) .atomic
  | capture (some name) inner => .capture (.name name) (inner.layout q copy o base)
  | capture none inner => .capture (.index (base + 1)) (inner.layout q copy o (base + 1))

/-- In a filled context each copy of the hole lies as what fills it, which has the options of the
hole and the numbers that come after those before the hole. -/
theorem layout_fill (C : Context) (q : Pattern) (o : Options) (base : Nat) :
    (C.fill q).layout o base = C.layout q (q.layout (C.options o) (base + C.numbered)) o base := by
  induction C generalizing o base with
  | hole => rfl
  | concat before inner after ih | alt before inner after ih =>
    simp only [fill, layout, options, numbered, Pattern.layout, layoutAll_append, layoutAny_append,
      layoutAll, layoutAny, ih, Nat.add_assoc]
  | repeated inner min max mode ih | lookAround direction negated inner ih | atomic inner ih =>
    simp only [fill, layout, options, numbered, Pattern.layout, ih]
  | withFlags flags inner ih => exact ih (o.overlay flags) base
  | capture name inner ih =>
    cases name <;>
      simp only [fill, layout, options, numbered, Pattern.layout, ih, Nat.add_assoc, Nat.add_comm 1]

/-- In a filled context each copy of a capture has the key that the capture has in the pattern. -/
theorem layout_fill_capture (C : Context) {name : Option String} {body : Pattern}
    (h : (C.fill (.capture name body)).keepsGroups) (o : Options) :
    (C.fill (.capture name body)).layout o 0 =
      C.layout (.capture name body) (.capture (C.key name)
        (body.layout (C.options o) ((C.before ++ [name]).count none))) o 0 := by
  rw [layout_fill, numbered_eq_count C h, Nat.zero_add, List.count_append]
  cases name with
  | none => rfl
  | some name => rfl

end Context

end Pattern

namespace Automaton

/-! ## Automata -/

/-- The groups of an automaton are the captures of a pattern, numbered in their order. -/
structure NumbersGroups (a : Automaton) (p : Pattern) : Prop where
  /-- There are as many numbers as captures without a name. -/
  groupCount_eq : a.groupCount = p.groups.count none
  /-- There are no other numbers.  Number 0 is the whole match. -/
  isSome_index : ∀ n, (a.slot? (.index n)).isSome ↔ n ≤ p.groups.count none
  /-- The names are those of the captures. -/
  isSome_name : ∀ s, (a.slot? (.name s)).isSome ↔ some s ∈ p.groups
  /-- No two groups share a slot. -/
  injective : ∀ key key' slot, a.slot? key = some slot → a.slot? key' = some slot → key = key'
  /-- A reference refers to the slot of its group, if there is such a group. -/
  reference : ∀ (id : Nat) (key : GroupKey) (slot : Option Nat) (ignoreCase : Bool) (next : Nat),
    a.states[id]?.map State.action = some (.reference key slot ignoreCase next) → slot = a.slot? key

variable {o : Options} {p : Pattern} {a : Automaton}

theorem slot?_table (a : Automaton) (key : GroupKey) : a.table.slot? key = a.slot? key := by
  cases key <;> rfl

/-- The number of numbered groups, which need not be the captures without a name. -/
theorem size_groups (h : compile o p = .ok a) : a.groups.size = p.numbered + 1 := by
  have he := exists_compile_eq_ok_iff.1 ⟨_, h⟩
  have hroom : 0 < ({} : GroupTable).groups.size := Nat.zero_lt_one
  have hsize := Pattern.size_enterAll_keys hroom p he
  rw [← table_compile h] at hsize
  have htable : a.groups.size = max 1 (0 + p.numbered + 1) := hsize
  omega

/-- The slots of references are filled in. -/
theorem slot_eq_of_reference (h : compile o p = .ok a) {id : Nat} {key : GroupKey}
    {slot : Option Nat} {ignoreCase : Bool} {next : Nat}
    (hstate : a.states[id]?.map State.action = some (.reference key slot ignoreCase next)) :
    slot = a.slot? key := by
  obtain ⟨accept, d, -, rfl⟩ := compile_eq_ok h
  rw [d.getElem?_whole, Option.map_map] at hstate
  obtain ⟨s, -, haction⟩ := Option.map_eq_some_iff.1 hstate
  have haction : (s.resolve d.slot?).action = .reference key slot ignoreCase next := haction
  rw [d.slot?_whole]
  unfold State.resolve at haction
  split at haction
  · cases haction
    rfl
  · rename_i hother
    exact absurd haction (hother _ _ _ _)

theorem numbersGroups_of_compile (h : compile o p = .ok a) (hp : p.keepsGroups) :
    a.NumbersGroups p where
  groupCount_eq := by
    rw [groupCount, size_groups h, Pattern.numbered_eq_count p hp, Nat.add_sub_cancel]
  isSome_index n := by
    rw [← slot?_table, GroupTable.isSome_slot?_index, ← Pattern.numbered_eq_count p hp]
    show n < a.groups.size ↔ _
    rw [size_groups h, Nat.lt_succ_iff]
  isSome_name s := by
    have he := exists_compile_eq_ok_iff.1 ⟨_, h⟩
    rw [← slot?_table, table_compile h, GroupTable.isSome_slot?_enterAll_name,
      Pattern.keys_eq_numberFrom 0 p hp he, Pattern.name_mem_numberFrom]
    simp [GroupTable.slot?]
  injective key key' slot hkey hkey' := by
    obtain ⟨ranges, keys, hlies⟩ := Pattern.exists_liesIn h
    have heq := ((hlies.keyed key slot).1 hkey).symm.trans ((hlies.keyed key' slot).1 hkey')
    exact Option.some.inj heq
  reference _ _ _ _ _ hstate := slot_eq_of_reference h hstate

/-! ## With deterministic automata -/

/-- One automaton has the states of another, but for the deterministic automata that captures
run, and the other states run deterministic automata. -/
structure Extends (a b : Automaton) : Prop where
  /-- The groups have the same slots. -/
  slot?_eq : b.slot? = a.slot?
  /-- There are as many numbers. -/
  groupCount_eq : b.groupCount = a.groupCount
  /-- No state is changed otherwise. -/
  states : ∀ id : Nat, id < a.states.size →
    b.states[id]?.map State.shape = a.states[id]?.map State.shape
  /-- No other states are added. -/
  added : ∀ id : Nat, a.states.size ≤ id → ∀ s, b.states[id]? = some s →
    ∃ dfa next, s.action = .dfa dfa next

theorem extends_promote (h : compile o p = .ok a) : a.Extends a.promote := by
  obtain ⟨c, hc⟩ := exists_chart h
  obtain ⟨b, hb, hpromote⟩ := exists_promoted h hc
  have hshape (id : Nat) : b.states[id]?.map State.shape = a.states[id]?.map State.shape :=
    hb.sameShape.map_eq (fun s => by cases s with | mk action => cases action <;> rfl) id
  have hslot? (b' : Automaton) (hgroups : b'.groups = b.groups) (hnames : b'.names = b.names) :
      b'.slot? = a.slot? := by
    funext key
    cases key <;> simp only [slot?, hgroups, hnames, hb.groups_eq, hb.names_eq]
  have hcount (b' : Automaton) (hgroups : b'.groups = b.groups) : b'.groupCount = a.groupCount := by
    rw [groupCount, hgroups, hb.groups_eq, groupCount]
  rw [hpromote]
  unfold promoteWhole
  split
  · refine ⟨hslot? _ rfl rfl, hcount _ rfl, fun id hid => ?_, fun id hid s hs => ?_⟩
    · rw [← hshape, Array.getElem?_push_lt (by rw [hb.size_eq]; exact hid),
        ← Array.getElem?_eq_getElem]
    · rw [Array.getElem?_push] at hs
      split at hs
      · exact ⟨_, _, by rw [← Option.some.inj hs]⟩
      · have := (Array.getElem?_eq_some_iff.1 hs).1
        have := hb.size_eq
        omega
  · refine ⟨hslot? _ rfl rfl, hcount _ rfl, fun id _ => hshape id, fun id hid s hs => ?_⟩
    have := (Array.getElem?_eq_some_iff.1 hs).1
    have := hb.size_eq
    omega

theorem NumbersGroups.extends {b : Automaton} (h : a.NumbersGroups p) (hb : a.Extends b) :
    b.NumbersGroups p where
  groupCount_eq := hb.groupCount_eq.trans h.groupCount_eq
  isSome_index := hb.slot?_eq ▸ h.isSome_index
  isSome_name := hb.slot?_eq ▸ h.isSome_name
  injective := hb.slot?_eq ▸ h.injective
  reference id key slot ignoreCase next hstate := by
    rw [hb.slot?_eq]
    obtain ⟨s, hs, haction⟩ := Option.map_eq_some_iff.1 hstate
    by_cases hid : id < a.states.size
    · have hshape := hb.states id hid
      rw [hs, Option.map_some] at hshape
      obtain ⟨s', hs', heq⟩ := Option.map_eq_some_iff.1 hshape.symm
      refine h.reference id key slot ignoreCase next ?_
      rw [hs', Option.map_some]
      have haction' : s'.action.shape = .reference key slot ignoreCase next := by
        have := congrArg State.action heq
        rw [State.shape, State.shape, haction] at this
        exact this
      cases hs'a : s'.action <;> rw [hs'a] at haction' <;> cases haction'
      rfl
    · obtain ⟨_, _, hdfa⟩ := hb.added id (Nat.not_lt.1 hid) s hs
      rw [hdfa] at haction
      cases haction

/-- The groups of a pattern are numbered by its captures, with deterministic automata or
without, if no capture stands in what is repeated no times at all.  However often repetition
copies a capture, each copy opens and closes the slot of the number or the name that the capture
has in the pattern, by its place among the captures. -/
theorem numbersGroups (h : compile o p = .ok a) (hp : p.keepsGroups) :
    (∃ b, ofPattern o p = .ok b ∧ a.Extends b ∧ b.NumbersGroups p) ∧ a.NumbersGroups p ∧
    ∀ C name body, p = Pattern.Context.fill C (.capture name body) →
      p.groups = C.before ++ name :: (body.groups ++ C.after) ∧ ∃ ranges rank,
      C.layout (.capture name body) (.capture (C.key name)
        (body.layout (C.options o) ((C.before ++ [name]).count none))) o 0
        (wholeSite a ranges) rank 0 a.loopCount a.start a.accept := by
  have hnumbers := numbersGroups_of_compile h hp
  have hextends := extends_promote h
  refine ⟨⟨a.promote, by rw [ofPattern, h]; rfl, hextends, hnumbers.extends hextends⟩, hnumbers, ?_⟩
  rintro C name body rfl
  obtain ⟨ranges, keys, hlies⟩ := Pattern.exists_liesIn h
  obtain ⟨rank, -, hlayout⟩ := hlies.layout
  rw [C.layout_fill_capture hp] at hlayout
  refine ⟨?_, ranges, rank, hlayout⟩
  rw [C.groups_fill, Pattern.groups, List.append_assoc, List.cons_append]

/-- A group without a name and one with a name, both twice, and then another group without a
name, which is matched once more. -/
def copiedGroups : Pattern :=
  .concat [.repeated (.concat [.capture none (.text ['a']), .capture (some "n") (.text ['b'])]) 2
    (some 2) .greedy, .capture none (.text ['c']), .reference (.index 2)]

theorem numbersGroups_copiedGroups :
    ∃ a, compile {} copiedGroups = .ok a ∧ copiedGroups.keepsGroups ∧
      (∃ b, ofPattern {} copiedGroups = .ok b ∧ a.Extends b ∧ b.NumbersGroups copiedGroups) ∧
      a.groupCount = 2 ∧
      ∃ ranges rank,
        (Pattern.Context.concat [] (.repeated (.concat [] .hole [.capture (some "n") (.text ['b'])])
          2 (some 2) .greedy) [.capture none (.text ['c']), .reference (.index 2)]).layout
        (.capture none (.text ['a'])) (.capture (.index 1) (.text false ['a'])) {} 0
        (wholeSite a ranges) rank 0 a.loopCount a.start a.accept := by
  obtain ⟨a, ha⟩ := exists_compile_eq_ok_iff.2 (show copiedGroups.error? = none from rfl)
  have hkeeps : copiedGroups.keepsGroups := by decide +kernel
  obtain ⟨hpromoted, hnumbers, hcopies⟩ := numbersGroups ha hkeeps
  exact ⟨a, ha, hkeeps, hpromoted, hnumbers.groupCount_eq, (hcopies (.concat [] (.repeated
    (.concat [] .hole [.capture (some "n") (.text ['b'])]) 2 (some 2) .greedy)
    [.capture none (.text ['c']), .reference (.index 2)]) none (.text ['a']) rfl).2⟩

/-- A group that is repeated no times at all, before another one. -/
def skippedGroup : Pattern :=
  .concat [.repeated (.capture none (.text ['a'])) 0 (some 0) .greedy, .capture none (.text ['b'])]

/-- The first group has no number, so that the number of the second group is 1. -/
theorem not_numbersGroups_skippedGroup :
    ∃ a, compile {} skippedGroup = .ok a ∧ skippedGroup.groups.count none = 2 ∧ a.groupCount = 1 ∧
      a.slot? (.index 2) = none ∧ ¬a.NumbersGroups skippedGroup := by
  have hcompile : (compile {} skippedGroup).toOption.map
    (fun a => (a.groupCount, a.slot? (.index 2))) =
      some (1, none) := by decide +kernel
  cases ha : compile {} skippedGroup with
  | error fault => simp [ha, Except.toOption] at hcompile
  | ok a =>
    obtain ⟨hcount, hslot⟩ : a.groupCount = 1 ∧ a.slot? (.index 2) = none := by
      simpa [ha, Except.toOption] using hcompile
    refine ⟨a, rfl, rfl, hcount, hslot, fun hnumbers => ?_⟩
    have hgroups : a.groupCount = 2 := hnumbers.groupCount_eq
    omega

end Automaton

end RegexEngine
