import RegexEngine.Proofs.Equivalence
import RegexEngine.Proofs.Meaning.Spans

/-!
# Where a match lies

What a match reports are pieces of the subject, unless a lookahead opens a group that it lies in.
Then the inner group is opened ahead of where the outer one is closed, which leaves offsets in the
wrong order, and reading them is a fault.  There is no other fault, and what groups with a number
report is never out of order.

* `Automaton.isSpan_of_mem_spans` is about the groups with a number in any pattern.
* `Automaton.matchAt_sound` is about the answer of a search, and when it may have none.
* `Automaton.matchAt_nestedName` is a fault in a pattern with such a group.
-/

namespace RegexEngine

/-- All offsets that a match reports are those of pieces of the subject. -/
structure Match.Sound (text : Subject) (m : Match) : Prop where
  /-- The whole match and the groups that have a number. -/
  spans : ∀ start stop, some (start, stop) ∈ m.spans → text.IsSpan start stop
  /-- The groups that have a name. -/
  names : ∀ name start stop, (name, some (start, stop)) ∈ m.names → text.IsSpan start stop

namespace Automaton

variable {o : Options} {p : Pattern} {a b : Automaton} {text : Subject} {pos : Nat}

/-- A search ends as the first ending of the pattern says, with deterministic automata or
without. -/
theorem exists_keys_ofResult_run (h : compile o p = .ok a) (text : Subject)
    (hpos : text.isBoundary pos) :
    ∃ keys, a.Keyed keys ∧ keys.length = a.slotCount ∧
      Verdict.ofResult (a.promote.run text a.promote.entry pos (.fresh a.promote)) =
        match (p.meaning text o 0 text.size pos .fresh).head? with
        | none => .failure
        | some (.error fault) => .error fault
        | some (.ok (stop, groups)) => .success stop (groups.slots keys) := by
  obtain ⟨ranges, keys, hlies⟩ := Pattern.exists_liesIn h
  refine ⟨keys, hlies.keyed, hlies.length_keys, ?_⟩
  rw [ofResult_run_promote h text hpos, Pattern.ofResult_run hlies hpos]
  exact Pattern.judge_eq_head? keys text.size _

/-- Where a search succeeds there is an ending of the pattern that the slots show. -/
theorem exists_ending_of_run (h : compile o p = .ok a) (hpos : text.isBoundary pos) {stop : Nat}
    {r : Registers}
    (hrun : a.promote.run text a.promote.entry pos (.fresh a.promote) = .ok (some stop, r)) :
    ∃ keys groups, a.Keyed keys ∧ .ok (stop, groups) ∈ p.meaning text o 0 text.size pos .fresh ∧
      r.slots = groups.slots keys := by
  obtain ⟨keys, hkeyed, -, hresult⟩ := exists_keys_ofResult_run h text hpos
  rw [hrun] at hresult
  rcases hhead : (p.meaning text o 0 text.size pos .fresh).head? with
    _ | fault | ⟨stop', groups⟩ <;> rw [hhead] at hresult
  · cases hresult
  · cases hresult
  · obtain ⟨rfl, hslots⟩ : stop = stop' ∧ r.slots = groups.slots keys := by
      simpa [Verdict.ofResult] using hresult
    exact ⟨keys, groups, hkeyed, List.mem_of_mem_head? hhead, hslots⟩

/-- Where a search has a fault the pattern has it. -/
theorem mem_meaning_of_run_eq_error (h : compile o p = .ok a) (hpos : text.isBoundary pos)
    {fault : Fault}
    (hrun : a.promote.run text a.promote.entry pos (.fresh a.promote) = .error fault) :
    .error fault ∈ p.meaning text o 0 text.size pos .fresh := by
  obtain ⟨keys, -, -, hresult⟩ := exists_keys_ofResult_run h text hpos
  rw [hrun] at hresult
  rcases hhead : (p.meaning text o 0 text.size pos .fresh).head? with
    _ | fault' | ⟨stop, groups⟩ <;> rw [hhead] at hresult <;> cases hresult
  exact List.mem_of_mem_head? hhead

end Automaton

namespace Verdict

variable {result : Except Fault (Option Nat × Registers)}

theorem of_ofResult_eq_error {fault : Fault} (h : ofResult result = .error fault) :
    result = .error fault := by
  match result, h with
  | .error _, h => cases h; rfl
  | .ok (none, _), h => cases h
  | .ok (some _, _), h => cases h

end Verdict

/-- The offsets of a slot are those of a group that has been closed. -/
theorem Registers.span?_eq_some {r : Registers} {id start stop : Nat}
    (h : r.span? id = some (start, stop)) :
    r.slots[id]? = some (some ⟨start, some stop⟩) := by
  obtain ⟨⟨start', stop'⟩, hslot, hspan⟩ := Option.bind_eq_some_iff.1 h
  obtain ⟨stop, rfl, heq⟩ := Option.map_eq_some_iff.1 hspan
  cases heq
  exact Option.join_eq_some_iff.1 hslot

/-- What a slot holds is recorded of a group. -/
theorem Groups.exists_key {keys : List GroupKey} {groups : Groups} {id : Nat} {slot : Slot}
    (h : (groups.slots keys)[id]? = some (some slot)) :
    ∃ key, keys[id]? = some key ∧ groups key = some slot := by
  have hlt : id < keys.length := by
    rw [← Groups.size_slots keys groups]
    exact (Array.getElem?_eq_some_iff.1 h).1
  rw [Groups.getElem?_slots (List.getElem?_eq_getElem hlt)] at h
  exact ⟨keys[id], List.getElem?_eq_getElem hlt, Option.some.inj h⟩

namespace Automaton

variable {o : Options} {p : Pattern} {a b : Automaton} {text : Subject} {pos : Nat}

/-- Slots that record pieces of the subject make a sound match. -/
theorem sound_toMatch {start stop : Nat} {r : Registers} (hspan : text.IsSpan start stop)
    (hslots : ∀ (id : Nat) (slot : Slot), r.slots[id]? = some (some slot) → slot.Records text) :
    (a.toMatch start stop r).Sound text := by
  have hspan? {id start stop : Nat} (h : r.span? id = some (start, stop)) :
      text.IsSpan start stop := by
    obtain ⟨stop', hstop, hspan⟩ := hslots id _ (Registers.span?_eq_some h)
    cases hstop
    exact hspan
  refine ⟨fun start' stop' hmem => ?_, fun name start' stop' hmem => ?_⟩
  · rcases List.mem_cons.1 hmem with heq | hmem
    · cases heq
      exact hspan
    · obtain ⟨id, -, hid⟩ := List.mem_map.1 hmem
      exact hspan? hid
  · obtain ⟨⟨name', id⟩, -, heq⟩ := List.mem_map.1 hmem
    exact hspan? (congrArg Prod.snd heq)

/-- At the end of a search each slot is unset or closed, whatever lies inside what. -/
theorem isSome_stop_of_run (h : compile o p = .ok a) (hpos : text.isBoundary pos) {stop : Nat}
    {r : Registers}
    (hrun : a.promote.run text a.promote.entry pos (.fresh a.promote) = .ok (some stop, r))
    {id : Nat} {slot : Slot} (hslot : r.slots[id]? = some (some slot)) : slot.stop.isSome := by
  obtain ⟨keys, groups, -, hmem, hslots⟩ := exists_ending_of_run h hpos hrun
  obtain ⟨key, -, hkey⟩ := Groups.exists_key (hslots ▸ hslot)
  obtain ⟨-, -, -, hclosed⟩ := Pattern.closed_meaning o 0 p key none text.size pos .fresh
    (Subject.isBoundary_size text) hpos (Subject.le_size_of_isBoundary hpos) (.inl rfl) _ hmem
  rcases hclosed with hnone | ⟨slot', hslot', hclosed⟩
  · rw [hkey] at hnone
    cases hnone
  · obtain rfl := Option.some.inj (hkey.symm.trans hslot')
    exact hclosed

/-- A slot records a piece of the subject, if its groups are not opened by a lookahead inside
themselves. -/
theorem records_of_run (h : compile o p = .ok a) (hpos : text.isBoundary pos) {stop : Nat}
    {r : Registers}
    (hrun : a.promote.run text a.promote.entry pos (.fresh a.promote) = .ok (some stop, r))
    {id : Nat} {slot : Slot} (hslot : r.slots[id]? = some (some slot))
    (hapart : ∀ key, a.slot? key = some id → p.Apart 0 key) : slot.Records text := by
  obtain ⟨keys, groups, hkeyed, hmem, hslots⟩ := exists_ending_of_run h hpos hrun
  obtain ⟨key, hkey, hrecorded⟩ := Groups.exists_key (hslots ▸ hslot)
  obtain ⟨-, -, -, hrecords⟩ := Pattern.records_meaning (hapart key ((hkeyed key id).2 hkey)) none
    text.size pos .fresh (Subject.isBoundary_size text) hpos (Subject.le_size_of_isBoundary hpos)
    (.inl rfl) _ hmem
  rcases hrecords with hnone | ⟨slot', hslot', hrecords⟩
  · rw [hrecorded] at hnone
    cases hnone
  · obtain rfl := Option.some.inj (hrecorded.symm.trans hslot')
    exact hrecords

/-- A search ends at a boundary behind where it has begun. -/
theorem isSpan_of_run (h : compile o p = .ok a) (hpos : text.isBoundary pos) {stop : Nat}
    {r : Registers}
    (hrun : a.promote.run text a.promote.entry pos (.fresh a.promote) = .ok (some stop, r)) :
    text.IsSpan pos stop := by
  obtain ⟨-, groups, -, hmem, -⟩ := exists_ending_of_run h hpos hrun
  obtain ⟨hstop, hle, -, -⟩ := Pattern.placed_meaning o 0 p text.size pos .fresh
    (Subject.isBoundary_size text) hpos (Subject.le_size_of_isBoundary hpos) _ hmem
  exact ⟨hle, hpos, hstop⟩

/-- The whole match and the groups with a number are pieces of the subject, whatever lies inside
what. -/
theorem isSpan_of_mem_spans (h : compile o p = .ok a) (hpos : text.isBoundary pos) {stop : Nat}
    {r : Registers}
    (hrun : a.promote.run text a.promote.entry pos (.fresh a.promote) = .ok (some stop, r))
    {start' stop' : Nat} (hspan : some (start', stop') ∈ (a.promote.toMatch pos stop r).spans) :
    text.IsSpan start' stop' := by
  rcases List.mem_cons.1 hspan with heq | hspan
  · cases heq
    exact isSpan_of_run h hpos hrun
  · obtain ⟨id, hid, hspan⟩ := List.mem_map.1 hspan
    obtain ⟨n, hn⟩ := Array.mem_iff_getElem?.1 (Array.mem_toList_iff.1 (List.mem_of_mem_tail hid))
    rw [(groups_promote_and_names_promote h).1] at hn
    have hindex : a.slot? (.index n) = some id := hn
    obtain ⟨keys, groups, hkeyed, -, -⟩ := exists_ending_of_run h hpos hrun
    -- a slot has one key, and the key of this one is a number
    have hapart (key : GroupKey) (hkey : a.slot? key = some id) : p.Apart 0 key := by
      obtain rfl : key = .index n :=
        Option.some.inj (((hkeyed _ _).1 hkey).symm.trans ((hkeyed _ _).1 hindex))
      exact Pattern.apart_index 0 p n
    obtain ⟨stop₂, hstop, hspan'⟩ :=
      records_of_run h hpos hrun (Registers.span?_eq_some hspan) hapart
    cases hstop
    exact hspan'

/-- The only faults are pieces of the subject whose ends are not in order, and they take a group
that is opened by a lookahead inside itself. -/
theorem reversed_of_run (h : compile o p = .ok a) (hpos : text.isBoundary pos) {fault : Fault}
    (hrun : a.promote.run text a.promote.entry pos (.fresh a.promote) = .error fault) :
    Pattern.Reversed text fault ∧ p.isApart = false := by
  have hmem := mem_meaning_of_run_eq_error h hpos hrun
  have hsize := Subject.isBoundary_size text
  have hle := Subject.le_size_of_isBoundary hpos
  have hfresh : Pattern.Placed text .fresh := fun _ _ hslot => by cases hslot
  refine ⟨Pattern.placed_meaning o 0 p text.size pos .fresh hsize hpos hle _ hmem hfresh, ?_⟩
  by_contra hapart
  have hreadable : Pattern.Readable text .fresh := fun _ _ _ hslot => by cases hslot
  exact Pattern.readable_meaning (Pattern.apart_of_isApart (by simpa using hapart)) text.size pos
    .fresh hsize hpos hle hreadable _ hmem

/-- A search has an answer, or it has read a piece of the subject whose ends are not in order.  The
latter takes a group that is opened by a lookahead inside itself.  At the end each slot is unset or
closed, and the match and its groups with a number are pieces of the subject.  Without such a group
all slots record pieces of the subject, and all that the match reports are. -/
theorem matchAt_sound (h : compile o p = .ok a) (hpos : text.isBoundary pos) :
    ∃ b, ofPattern o p = .ok b ∧
      ((∃ result r, b.run text b.entry pos (.fresh b) = .ok (result, r) ∧
          b.matchAt text pos = .ok (result.map fun stop => b.toMatch pos stop r) ∧
          ∀ stop, result = some stop →
            (b.toMatch pos stop r).whole = (pos, stop) ∧
            (∀ (id : Nat) (slot : Slot), r.slots[id]? = some (some slot) → slot.stop.isSome) ∧
            (∀ start' stop', some (start', stop') ∈ (b.toMatch pos stop r).spans →
              text.IsSpan start' stop') ∧
            (p.isApart →
              (∀ (id : Nat) (slot : Slot), r.slots[id]? = some (some slot) → slot.Records text) ∧
                (b.toMatch pos stop r).Sound text)) ∨
        p.isApart = false ∧ ∃ fault, b.matchAt text pos = .error fault ∧
          Pattern.Reversed text fault) := by
  refine ⟨a.promote, ofPattern_eq_promote h, ?_⟩
  rw [matchAt_eq hpos]
  cases hrun : a.promote.run text a.promote.entry pos (.fresh a.promote) with
  | error fault =>
    obtain ⟨hreversed, hapart⟩ := reversed_of_run h hpos hrun
    exact .inr ⟨hapart, fault, rfl, hreversed⟩
  | ok answer =>
    obtain ⟨result, r⟩ := answer
    refine .inl ⟨result, r, rfl, rfl, ?_⟩
    rintro stop rfl
    refine ⟨rfl, fun id slot => isSome_stop_of_run h hpos hrun, fun start' stop' =>
      isSpan_of_mem_spans h hpos hrun, fun hapart => ?_⟩
    have hrecords (id : Nat) (slot : Slot) (hslot : r.slots[id]? = some (some slot)) :
        slot.Records text :=
      records_of_run h hpos hrun hslot fun key _ => Pattern.apart_of_isApart hapart key
    exact ⟨hrecords, sound_toMatch (isSpan_of_run h hpos hrun) hrecords⟩

/-- A group with a name, and then the text of another group that has no name. -/
def groupsApart : Pattern :=
  .concat [.capture (some "n") (.text ['a']), .capture none (.text ['b']), .reference (.index 1)]

theorem matchAt_sound_groupsApart :
    ∃ a, compile {} groupsApart = .ok a ∧ groupsApart.isApart ∧
      (Subject.ofList ['a', 'b', 'b']).isBoundary 0 ∧
      ∃ b, ofPattern {} groupsApart = .ok b ∧
        ∃ result r, b.run (.ofList ['a', 'b', 'b']) b.entry 0 (.fresh b) = .ok (result, r) ∧
          b.matchAt (.ofList ['a', 'b', 'b']) 0 = .ok (result.map fun stop => b.toMatch 0 stop r) ∧
          ∀ stop, result = some stop → (b.toMatch 0 stop r).whole = (0, stop) ∧
            (b.toMatch 0 stop r).Sound (.ofList ['a', 'b', 'b']) := by
  have hcompile : (compile {} groupsApart).toOption.isSome := by decide +kernel
  obtain ⟨a, ha⟩ : ∃ a, compile {} groupsApart = .ok a := by
    cases h : compile {} groupsApart with
    | error fault => simp [h, Except.toOption] at hcompile
    | ok a => exact ⟨a, rfl⟩
  have hapart : groupsApart.isApart := by decide
  have hpos : (Subject.ofList ['a', 'b', 'b']).isBoundary 0 := by decide
  obtain ⟨b, hb, hanswer | ⟨hfalse, -⟩⟩ := matchAt_sound ha hpos
  · obtain ⟨result, r, hrun, hmatch, hsound⟩ := hanswer
    refine ⟨a, ha, hapart, by decide, b, hb, result, r, hrun, hmatch, fun stop hstop => ?_⟩
    obtain ⟨hwhole, -, -, hall⟩ := hsound stop hstop
    exact ⟨hwhole, (hall hapart).2⟩
  · rw [hapart] at hfalse
    cases hfalse

/-- A group with a group of the same name ahead of its end, and then its text once more. -/
def nestedName : Pattern :=
  .concat [.capture (some "n") (.concat [.text ['a'],
    .lookAhead (.concat [.text ['b'], .capture (some "n") (.text ['c'])])]), .reference (.name "n")]

theorem head?_meaning_nestedName :
    (nestedName.meaning (.ofList ['a', 'b', 'c']) {} 0 3 0 .fresh).head? =
      some (.error (.badSlice 2 1)) := by
  have hhead : ((nestedName.meaning (.ofList ['a', 'b', 'c']) {} 0 3 0 .fresh).head?.map
      (Except.map fun _ => ())) = some (.error (.badSlice 2 1)) := by
    decide +kernel
  match h : (nestedName.meaning (.ofList ['a', 'b', 'c']) {} 0 3 0 .fresh).head?, hhead with
  | some (.error fault), hhead =>
    obtain rfl := Except.error.inj (Option.some.inj hhead)
    rfl

theorem exists_compile_nestedName : ∃ a, compile {} nestedName = .ok a := by
  have hcompile : (compile {} nestedName).toOption.isSome := by decide +kernel
  cases h : compile {} nestedName with
  | error fault => simp [h, Except.toOption] at hcompile
  | ok a => exact ⟨a, rfl⟩

/-- The inner group is opened behind the end of the outer one, so that its text cannot be read. -/
theorem matchAt_nestedName :
    ∃ b, ofPattern {} nestedName = .ok b ∧ b.matchAt (.ofList ['a', 'b', 'c']) 0 =
      .error (.badSlice 2 1) := by
  obtain ⟨a, ha⟩ := exists_compile_nestedName
  have hpos : (Subject.ofList ['a', 'b', 'c']).isBoundary 0 := by decide
  obtain ⟨keys, -, -, hresult⟩ := exists_keys_ofResult_run ha (.ofList ['a', 'b', 'c']) hpos
  have hsize : (Subject.ofList ['a', 'b', 'c']).size = 3 := rfl
  rw [hsize, head?_meaning_nestedName] at hresult
  refine ⟨a.promote, ofPattern_eq_promote ha, ?_⟩
  rw [matchAt_eq hpos, Verdict.of_ofResult_eq_error hresult]
  rfl

end Automaton

end RegexEngine
