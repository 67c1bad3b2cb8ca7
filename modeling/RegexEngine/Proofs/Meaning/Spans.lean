import RegexEngine.Proofs.Meaning.Within

/-!
# What is recorded of a group

An ending of a pattern records a group as it was before, or it records a piece of the
subject.  For a group with another one of the same name in it this may go wrong: if a lookahead lies
between them, the inner one is opened ahead of where the outer one is closed.

* `Slot.Records` says that a slot records a piece of a subject.
* `Pattern.recorded_meaning` says what an ending of a pattern records of a group.
* `Pattern.Apart` says that a group is not opened by a lookahead inside itself.
* `Pattern.records_meaning` is about groups that are not, and `Pattern.closed_meaning` is about
  all.
* `Pattern.readable_meaning` says when there is no fault, and `Pattern.placed_meaning` says which
  one there may be.
-/

namespace RegexEngine

/-- The offsets of a piece of a subject. -/
structure Subject.IsSpan (text : Subject) (start stop : Nat) : Prop where
  /-- They are in order. -/
  le : start ≤ stop
  /-- A character starts at the first one, or the text ends there. -/
  start : text.isBoundary start
  /-- A character starts at the second one, or the text ends there. -/
  stop : text.isBoundary stop

theorem Subject.IsSpan.stop_le {text : Subject} {start stop : Nat} (h : text.IsSpan start stop) :
    stop ≤ text.size :=
  Subject.le_size_of_isBoundary h.stop

/-- A piece of a subject can be cut out. -/
theorem Subject.IsSpan.exists_slice {text : Subject} {start stop : Nat}
    (h : text.IsSpan start stop) :
    ∃ cs, text.slice start stop = .ok cs := by
  unfold Subject.slice
  rw [if_pos (by simp [h.le, h.start, h.stop])]
  exact ⟨_, rfl⟩

/-- A slot is closed, and it records a piece of a subject. -/
def Slot.Records (text : Subject) (slot : Slot) : Prop :=
  ∃ stop, slot.stop = some stop ∧ text.IsSpan slot.start stop

namespace Groups

variable {groups : Groups} {key key' : GroupKey}

theorem opened_self (groups : Groups) (key : GroupKey) (pos : Nat) :
    groups.opened key pos key = some { start := pos } := by
  rw [opened, set, if_pos rfl]

theorem opened_of_ne (hne : key' ≠ key) (pos : Nat) : groups.opened key pos key' = groups key' := by
  rw [opened, set, if_neg hne]

theorem closed_self (groups : Groups) (key : GroupKey) (stop : Nat) :
    groups.closed key stop key = (groups key).map fun s => { s with stop := some stop } := by
  rw [closed, set, if_pos rfl]

theorem closed_of_ne (hne : key' ≠ key) (stop : Nat) :
    groups.closed key stop key' = groups key' := by
  rw [closed, set, if_neg hne]

end Groups

namespace Pattern

variable {text : Subject} {o : Options} {base : Nat} {p : Pattern} {key : GroupKey}

/-! ## Groups inside each other -/

/-- No lookahead of a pattern opens a group. -/
def NotAhead (base : Nat) (p : Pattern) (key : GroupKey) : Prop :=
  ∀ base' body, (base', body) ∈ lookaheads base p → key ∉ keys base' body

/-- A group is not opened by a lookahead inside itself. -/
def Apart (base : Nat) (p : Pattern) (key : GroupKey) : Prop :=
  ∀ base' body, (key, base', body) ∈ captures base p → NotAhead base' body key

/-- No group is opened by a lookahead inside itself. -/
def isApart (p : Pattern) : Bool :=
  (captures 0 p).all fun (key, base, body) =>
    (lookaheads base body).all fun (base, body) => !(keys base body).contains key

theorem apart_of_isApart (h : p.isApart) (key : GroupKey) : p.Apart 0 key := by
  intro base body hmem base' body' hmem' hkey
  have hall := List.all_eq_true.1 (List.all_eq_true.1 h _ hmem) _ hmem'
  simp [hkey] at hall

mutual

/-- What the lookaheads of a pattern open the pattern opens. -/
theorem keys_subset_of_mem_lookaheads (base : Nat) {base' : Nat} {body : Pattern} : (p : Pattern) →
    (base', body) ∈ lookaheads base p → keys base' body ⊆ keys base p
  | text _, h | oneOf _, h | assert _, h | reference _, h => by cases h
  | concat parts, h => keysAll_subset_of_mem_lookaheadsAll base parts h
  | alt branches, h => keysAll_subset_of_mem_lookaheadsAll base branches h
  | repeated body min max mode, h => by
    rw [lookaheads] at h
    split at h
    · cases h
    · rename_i hmany
      rw [keys, if_neg hmany]
      exact keys_subset_of_mem_lookaheads base body h
  | lookAround .ahead false body, h => by
    rcases List.mem_cons.1 h with heq | h
    · cases heq
      exact fun _ => id
    · exact keys_subset_of_mem_lookaheads base body h
  | lookAround .ahead true body, h | lookAround .behind _ body, h | withFlags _ body, h
  | atomic body, h => keys_subset_of_mem_lookaheads base body h
  | capture none body, h =>
    List.subset_cons_of_subset _ (keys_subset_of_mem_lookaheads (base + 1) body h)
  | capture (some name) body, h =>
    List.subset_cons_of_subset _ (keys_subset_of_mem_lookaheads base body h)

theorem keysAll_subset_of_mem_lookaheadsAll (base : Nat) {base' : Nat} {body : Pattern} :
    (parts : List Pattern) → (base', body) ∈ lookaheadsAll base parts →
      keys base' body ⊆ keysAll base parts
  | [], h => by cases h
  | part :: parts, h => by
    rcases List.mem_append.1 h with h | h
    · exact List.subset_append_of_subset_left _ (keys_subset_of_mem_lookaheads base part h)
    · exact List.subset_append_of_subset_right _
        (keysAll_subset_of_mem_lookaheadsAll (base + numbered part) parts h)

end

mutual

/-- The number of a group is greater than the number of groups before. -/
theorem lt_of_index_mem_captures (base : Nat) {n base' : Nat} {body : Pattern} : (p : Pattern) →
    (.index n, base', body) ∈ captures base p → base < n ∧ base' = n
  | text _, h | oneOf _, h | assert _, h | reference _, h => by cases h
  | concat parts, h => lt_of_index_mem_capturesAll base parts h
  | alt branches, h => lt_of_index_mem_capturesAll base branches h
  | repeated body min max mode, h => by
    unfold captures at h
    split at h
    · cases h
    · exact lt_of_index_mem_captures base body h
  | withFlags _ body, h | lookAround _ _ body, h | atomic body, h =>
    lt_of_index_mem_captures base body h
  | capture none body, h => by
    rcases List.mem_cons.1 h with heq | h
    · cases heq
      exact ⟨Nat.lt_succ_self base, rfl⟩
    · have := lt_of_index_mem_captures (base + 1) body h
      exact ⟨by omega, this.2⟩
  | capture (some name) body, h => by
    rcases List.mem_cons.1 h with heq | h
    · cases heq
    · exact lt_of_index_mem_captures base body h

theorem lt_of_index_mem_capturesAll (base : Nat) {n base' : Nat} {body : Pattern} :
    (parts : List Pattern) → (.index n, base', body) ∈ capturesAll base parts → base < n ∧ base' = n
  | [], h => by cases h
  | part :: parts, h => by
    rcases List.mem_append.1 h with h | h
    · exact lt_of_index_mem_captures base part h
    · have := lt_of_index_mem_capturesAll (base + numbered part) parts h
      exact ⟨by omega, this.2⟩

end

/-- A group with a number does not lie inside itself. -/
theorem apart_index (base : Nat) (p : Pattern) (n : Nat) : p.Apart base (.index n) := by
  intro base' body hmem base'' body' hmem' hkey
  obtain ⟨-, rfl⟩ := lt_of_index_mem_captures base p hmem
  have hkey' := keys_subset_of_mem_lookaheads base' body hmem' hkey
  rw [keys_eq_map_captures] at hkey'
  obtain ⟨⟨key, base₁, body₁⟩, hmem₁, heq⟩ := List.mem_map.1 hkey'
  cases heq
  exact absurd (lt_of_index_mem_captures _ body hmem₁).1 (Nat.lt_irrefl _)

/-! ## What a pattern records -/

end Pattern

/-- A group is left as it was, or it has been opened at a boundary at the latest where the position
is now. -/
def Groups.Course.starting (text : Subject) (key : GroupKey) : Groups.Course where
  faults _ _ := True
  leads groups stop groups' := groups' key = groups key ∨
    ∃ slot, groups' key = some slot ∧ text.isBoundary slot.start ∧ slot.start ≤ stop
  refl _ _ := .inl rfl
  trans := by
    rintro groups groups' groups'' stop stop' h hle (heq | h')
    · rw [heq]
      exact h.imp_right fun ⟨slot, hslot, hstart, hle'⟩ =>
        ⟨slot, hslot, hstart, Nat.le_trans hle' hle⟩
    · exact .inr h'
  faults_of_leads _ _ := trivial

namespace Pattern

variable {text : Subject} {o : Options} {base : Nat} {p : Pattern} {key : GroupKey}

/-- A pattern opens a group nowhere ahead of where it ends, if none of its lookaheads opens it. -/
theorem starting_meaning (o : Options) (h : NotAhead base p key) :
    Meaning.OnCourse text (.starting text key) (meaning text o base p) := by
  refine onCourse_meaning o base p
    ⟨fun _ key => Meaning.onCourse_reference _ key fun _ _ _ _ _ _ => trivial, ?_, ?_⟩
  · intro key' base' body _ o hbody
    refine hbody.capture (fun _ _ _ _ _ => trivial)
      fun groups pos stop groups' hpos _ hle hleads => ?_
    by_cases heq : key = key'
    · subst heq
      refine .inr ?_
      rw [Groups.closed_self]
      rcases hleads with hkept | ⟨slot, hslot, hstart, hle'⟩
      · rw [hkept, Groups.opened_self]
        exact ⟨_, rfl, hpos, hle⟩
      · rw [hslot]
        exact ⟨_, rfl, hstart, hle'⟩
    · have hbefore : groups.opened key' pos key = groups key := Groups.opened_of_ne heq pos
      have hafter : groups'.closed key' stop key = groups' key := Groups.closed_of_ne heq stop
      exact hleads.imp (fun hkept => hafter.trans (hkept.trans hbefore))
        fun ⟨slot, hslot, hplace⟩ => ⟨slot, hafter.trans hslot, hplace⟩
  · intro base' body hmem o hbody
    refine hbody.lookAhead false fun _ pos groups stop groups' hpos hending => .inl ?_
    -- the body does not open the group, so that the group is left as it was
    have hkept : Meaning.Within text True (fun groups' => groups' key = groups key)
        (meaning text o base' body) := by
      refine within_meaning o base' body fun key' hkey' groups' slot hgroups' => ?_
      have hne : key ≠ key' := fun heq => h base' body hmem (heq ▸ hkey')
      rw [Groups.set, if_neg hne]
      exact hgroups'
    exact (hkept text.size pos groups (Subject.isBoundary_size text) hpos
      (Subject.le_size_of_isBoundary hpos) rfl _ hending).2.2.2

/-- An ending of a capture is an ending of its body, where its group has been closed. -/
theorem exists_ending_of_capture {body : Meaning} {limit pos : Nat} {groups : Groups} {e : Ending}
    (he : e ∈ Meaning.capture key body limit pos groups) :
    (∃ fault, e = .error fault ∧ .error fault ∈ body limit pos (groups.opened key pos)) ∨
      ∃ stop groups', e = .ok (stop, groups'.closed key stop) ∧
        .ok (stop, groups') ∈ body limit pos (groups.opened key pos) := by
  rcases Ending.mem_andThen.1 he with ⟨fault, hmem, rfl⟩ | ⟨stop, groups', hmem, he⟩
  · exact .inl ⟨fault, rfl, hmem⟩
  · exact .inr ⟨stop, groups', List.mem_singleton.1 he, hmem⟩

/-- An ending of a capture records a piece of the subject, if no lookahead of the body opens the
group. -/
theorem records_capture (hkey : NotAhead base p key) {limit pos : Nat} {groups groups' : Groups}
    (hlimit : text.isBoundary limit) (hpos : text.isBoundary pos) (hle : pos ≤ limit) {stop : Nat}
    (hmem : .ok (stop, groups') ∈ meaning text o base p limit pos (groups.opened key pos)) :
    ∃ slot, groups'.closed key stop key = some slot ∧ slot.Records text := by
  obtain ⟨hstop, hle', -, hstarting⟩ := starting_meaning o hkey limit pos _ hlimit hpos hle _ hmem
  rw [Groups.closed_self]
  rcases hstarting with hkept | ⟨slot, hslot, hstart, hle''⟩
  · rw [hkept, Groups.opened_self]
    exact ⟨_, rfl, stop, rfl, hle', hpos, hstop⟩
  · rw [hslot]
    exact ⟨_, rfl, stop, rfl, hle'', hstart, hstop⟩

/-- A group that has been opened stays so, closed or not. -/
theorem opened_meaning (o : Options) (base : Nat) (p : Pattern) (key : GroupKey) :
    Meaning.Within text True (fun groups => (groups key).isSome) (meaning text o base p) := by
  apply Meaning.OnCourse.within
  refine onCourse_meaning_keeping o base p
    (fun _ key => Meaning.onCourse_reference _ key fun _ _ _ _ _ _ _ => trivial) ?_
  intro key' base' body _ o hbody
  refine hbody.capture (fun _ _ _ _ _ _ => trivial)
    fun groups pos stop groups' _ _ _ hleads hgroups => ?_
  show (groups'.closed key' stop key).isSome
  by_cases heq : key = key'
  · subst heq
    have hopened : (groups.opened key pos key).isSome := by
      rw [Groups.opened_self]
      rfl
    rw [Groups.closed_self, Option.isSome_map]
    exact hleads hopened
  · have hopened : (groups.opened key' pos key).isSome := by rwa [Groups.opened_of_ne heq]
    rw [Groups.closed_of_ne heq]
    exact hleads hopened

/-- An ending of a pattern records a group as it was before, or as an ending of its body leaves it
when the group is closed. -/
theorem recorded_meaning {P : Slot → Prop} (o : Options) (base : Nat) (p : Pattern) (key : GroupKey)
    (old : Option Slot)
    (hcapture : ∀ base' body, (key, base', body) ∈ captures base p →
      ∀ o limit pos (groups : Groups) stop
      groups', text.isBoundary limit → text.isBoundary pos → pos ≤ limit → (groups' key).isSome →
        .ok (stop, groups') ∈ meaning text o base' body limit pos (groups.opened key pos) →
          ∃ slot, groups'.closed key stop key = some slot ∧ P slot) :
    Meaning.Within text True (fun groups => groups key = old ∨
      ∃ slot, groups key = some slot ∧ P slot) (meaning text o base p) := by
  apply Meaning.OnCourse.within
  refine onCourse_meaning_keeping o base p
    (fun _ key => Meaning.onCourse_reference _ key fun _ _ _ _ _ _ _ => trivial) ?_
  intro key' base' body hmem o hbody
  by_cases heq : key' = key
  · subst heq
    intro limit pos groups hlimit hpos hle e he
    rcases exists_ending_of_capture he with ⟨fault, rfl, -⟩ | ⟨stop, groups', rfl, hending⟩
    · exact fun _ => trivial
    · have hopened : (groups.opened key' pos key').isSome := by
        rw [Groups.opened_self]
        rfl
      obtain ⟨hstop, hle', hlimit', hsome⟩ :=
        opened_meaning o base' body key' limit pos _ hlimit hpos hle hopened _ hending
      exact ⟨hstop, hle', hlimit', fun _ => .inr
        (hcapture base' body hmem o limit pos groups stop groups' hlimit hpos hle hsome hending)⟩
  · refine hbody.capture_keeping fun groups slot hgroups => ?_
    rw [Groups.set, if_neg (Ne.symm heq)]
    exact hgroups

/-- An ending of a pattern records a group as it was before, or a piece of the subject, if the
group is not opened by a lookahead inside itself. -/
theorem records_meaning (h : p.Apart base key) (old : Option Slot) :
    Meaning.Within text True (fun groups => groups key = old ∨ ∃ slot, groups key = some slot ∧
      slot.Records text) (meaning text o base p) :=
  recorded_meaning o base p key old fun base' body hmem _ _ _ _ _ _ hlimit hpos hle _ hending =>
    records_capture (h base' body hmem) hlimit hpos hle hending

/-- An ending of a pattern records a group as it was before, or the group is closed. -/
theorem closed_meaning (o : Options) (base : Nat) (p : Pattern) (key : GroupKey)
    (old : Option Slot) :
    Meaning.Within text True
      (fun groups => groups key = old ∨ ∃ slot, groups key = some slot ∧ slot.stop.isSome)
      (meaning text o base p) := by
  refine recorded_meaning o base p key old fun _ _ _ _ _ _ _ stop groups' _ _ _ hsome _ => ?_
  obtain ⟨slot, hslot⟩ := Option.isSome_iff_exists.1 hsome
  refine ⟨{ slot with stop := some stop }, ?_, rfl⟩
  rw [Groups.closed_self, hslot, Option.map_some]

/-- A group that has been closed can be read. -/
def Readable (text : Subject) (groups : Groups) : Prop :=
  ∀ key slot stop, groups key = some slot → slot.stop = some stop → text.IsSpan slot.start stop

/-- A group with a span has been closed. -/
theorem exists_slot_of_span {groups : Groups} {start stop : Nat}
    (h : (groups key).bind Slot.span = some (start, stop)) :
    ∃ slot, groups key = some slot ∧ slot.start = start ∧ slot.stop = some stop := by
  obtain ⟨slot, hslot, hspan⟩ := Option.bind_eq_some_iff.1 h
  obtain ⟨stop', hstop, heq⟩ := Option.map_eq_some_iff.1 hspan
  cases heq
  exact ⟨slot, hslot, rfl, hstop⟩

/-- The group that is opened has not been closed. -/
theorem Readable.opened {groups : Groups} (h : Readable text groups) (key : GroupKey) (pos : Nat) :
    Readable text (groups.opened key pos) := by
  intro key' slot stop hslot hstop
  by_cases heq : key' = key
  · subst heq
    rw [Groups.opened_self] at hslot
    cases hslot
    cases hstop
  · rw [Groups.opened_of_ne heq] at hslot
    exact h key' slot stop hslot hstop

/-- Where each group that has been closed can be read there is no fault, if no group is opened by a
lookahead inside itself. -/
theorem readable_meaning (h : ∀ key, p.Apart base key) :
    Meaning.Within text False (Readable text) (meaning text o base p) := by
  apply Meaning.OnCourse.within
  refine onCourse_meaning_keeping o base p (fun _ key => Meaning.onCourse_reference _ key ?_) ?_
  · intro groups start stop fault hspan hfault hgroups
    obtain ⟨slot, hslot, rfl, hstop⟩ := exists_slot_of_span hspan
    obtain ⟨cs, hcs⟩ := (hgroups key slot stop hslot hstop).exists_slice
    rw [hfault] at hcs
    cases hcs
  · intro key base' body hcapture o hbody limit pos groups hlimit hpos hle e he
    rcases exists_ending_of_capture he with ⟨fault, rfl, hmem⟩ | ⟨stop, groups', rfl, hmem⟩
    · exact fun hgroups => hbody limit pos _ hlimit hpos hle _ hmem (hgroups.opened key pos)
    · obtain ⟨hstop, hle', hlimit', hleads⟩ := hbody limit pos _ hlimit hpos hle _ hmem
      refine ⟨hstop, hle', hlimit', fun hgroups key' slot stop' hslot hstop' => ?_⟩
      by_cases heq : key' = key
      · subst heq
        obtain ⟨slot', hslot', stop₂, hstop₂, hspan⟩ :=
          records_capture (h key' base' body hcapture) hlimit hpos hle hmem
        obtain rfl := Option.some.inj (hslot.symm.trans hslot')
        obtain rfl := Option.some.inj (hstop'.symm.trans hstop₂)
        exact hspan
      · rw [Groups.closed_of_ne heq] at hslot
        exact hleads (hgroups.opened key pos) key' slot stop' hslot hstop'

/-! ## Which fault there may be -/

/-- All that is recorded of groups are boundaries. -/
def Placed (text : Subject) (groups : Groups) : Prop :=
  ∀ key slot, groups key = some slot →
    text.isBoundary slot.start ∧ ∀ stop, slot.stop = some stop → text.isBoundary stop

/-- A fault of which the cause is a piece of the subject whose ends are not in order. -/
def Reversed (text : Subject) (fault : Fault) : Prop :=
  ∃ start stop, fault = .badSlice start stop ∧ stop < start ∧ text.isBoundary start ∧
    text.isBoundary stop

theorem reversed_of_slice {start stop : Nat} {fault : Fault} (hstart : text.isBoundary start)
    (hstop : text.isBoundary stop) (h : text.slice start stop = .error fault) :
    Reversed text fault := by
  rcases Nat.lt_or_ge stop start with hlt | hle
  · have hnot : ¬start ≤ stop := by omega
    rw [Subject.slice, if_neg (by simp [hnot])] at h
    cases h
    exact ⟨start, stop, rfl, hlt, hstart, hstop⟩
  · obtain ⟨cs, hcs⟩ := Subject.IsSpan.exists_slice ⟨hle, hstart, hstop⟩
    rw [h] at hcs
    cases hcs

/-- The only faults are pieces of the subject whose ends are boundaries but not in order. -/
theorem placed_meaning (o : Options) (base : Nat) (p : Pattern) :
    Meaning.OnCourse text (.keeping (Reversed text) (Placed text)) (meaning text o base p) := by
  refine onCourse_meaning_keeping o base p (fun _ key => Meaning.onCourse_reference _ key ?_) ?_
  · intro groups start stop fault hspan hfault hgroups
    obtain ⟨slot, hslot, rfl, hstop⟩ := exists_slot_of_span hspan
    obtain ⟨hstart, hplaced⟩ := hgroups key slot hslot
    exact reversed_of_slice hstart (hplaced stop hstop) hfault
  · intro key base' body _ o hbody
    have hopened {groups : Groups} {pos : Nat} (hpos : text.isBoundary pos)
        (hgroups : Placed text groups) : Placed text (groups.opened key pos) := by
      intro key' slot hslot
      by_cases heq : key' = key
      · subst heq
        rw [Groups.opened_self] at hslot
        cases hslot
        exact ⟨hpos, nofun⟩
      · rw [Groups.opened_of_ne heq] at hslot
        exact hgroups key' slot hslot
    refine hbody.capture (fun groups pos fault hpos hfault hgroups => hfault (hopened hpos hgroups))
      fun groups pos stop groups' hpos hstop _ hleads hgroups key' slot hslot => ?_
    have hplaced := hleads (hopened hpos hgroups)
    by_cases heq : key' = key
    · subst heq
      rw [Groups.closed_self] at hslot
      obtain ⟨slot', hslot', rfl⟩ := Option.map_eq_some_iff.1 hslot
      refine ⟨(hplaced key' slot' hslot').1, ?_⟩
      rintro _ ⟨⟩
      exact hstop
    · rw [Groups.closed_of_ne heq] at hslot
      exact hplaced key' slot hslot

end Pattern

end RegexEngine
