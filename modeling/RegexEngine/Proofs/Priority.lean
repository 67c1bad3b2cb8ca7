import RegexEngine.Match
import RegexEngine.Proofs.Layout.Compile
import RegexEngine.Proofs.Layout.Simulation
import RegexEngine.Proofs.Search.Fragments

/-!
# A search finds the preferred match

The automaton of a pattern is followed by preference, with choices and slots on a
stack.  What is found is the first ending of the pattern, and the slots hold what the
groups hold then.

* `Automaton.setting` is the setting in which the automaton of a pattern runs, where
  fragments give the endings of the patterns that lie in them.
* `Pattern.ran_search` is about a variant of the automaton.
* `Pattern.run_compile` is about the automaton itself.
-/

namespace RegexEngine

/-! ## Settings -/

/-- A fragment gives the endings of a pattern that lies in it. -/
def Automaton.verdicts (a : Automaton) (ranges : Nat → Nat × Nat) (keys : List GroupKey)
    (text : Subject) (window : Window) (id pos : Nat) (slots : Slots) (v : Verdict) : Prop :=
  ∃ (site : Site) (o : Options) (base : Nat) (p : Pattern) (f : Automaton.Fragment) (lo hi : Nat)
    (groups : Groups),
    (site.automaton = a ∧ site.owns = (a.wholeSite ranges).owns ∧
      site.insides = (a.wholeSite ranges).insides) ∧
    (p.layout o base).Isolated site id f lo hi ∧ a.Knows groups ∧ slots = groups.slots keys ∧
    v = Ending.judge (window.verdict keys) (p.meaning text o base window.limit pos groups)

/-- The setting of a run of a part of an automaton. -/
def Automaton.setting (a : Automaton) (ranges : Nat → Nat × Nat) (keys : List GroupKey)
    (text : Subject) (own : Nat → Prop) (tracked : Bool) (nested : Nat) (window : Window) :
    Setting :=
  { a.wholeSite ranges with own, tracked, nested, text, window
                            verdicts := a.verdicts ranges keys text }

/-- The setting of a run of a whole automaton. -/
def Automaton.whole (a : Automaton) (ranges : Nat → Nat × Nat) (keys : List GroupKey)
    (text : Subject) : Setting :=
  a.setting ranges keys text (fun _ => True) (decide (1 < a.slotCount)) a.fragments.size
    ⟨text.size, none⟩

namespace Pattern

variable {o : Options} {p : Pattern} {a b : Automaton} {ranges : Nat → Nat × Nat}
  {keys : List GroupKey} {text : Subject}

theorem hosts_setting (hkeyed : a.Keyed keys) {own : Nat → Prop} {tracked : Bool} {nested : Nat}
    {window : Window} (hlimit : text.isBoundary window.limit) :
    (a.setting ranges keys text own tracked nested window).Hosts keys where
  keyed := hkeyed
  limit := hlimit
  inside _ := trivial
  verdicts o base p _ f lo hi hisolated _ _ groups hknows :=
    ⟨(a.setting ranges keys text own tracked nested window).toSite, o, base, p, f, lo, hi, groups,
      ⟨rfl, rfl, rfl⟩, hisolated, hknows, rfl, rfl⟩

/-- A part from `start` to an accepting state yields the first of its endings. -/
theorem yields_part {t : Setting} (h : t.Hosts keys) {base rank lo hi start exit pos : Nat}
    {groups : Groups} (hlayout : p.layout o base t.toSite rank lo hi start exit)
    (haccept : t.automaton.states[exit]? = some { accepting := true }) (hallows : t.Allows pos)
    (hknows : t.automaton.Knows groups) :
    Yields t (t.allowance .none pos + (1 + rank)) .none start pos (groups.slots keys)
      (Ending.judge (t.window.verdict keys)
        (p.meaning t.text o base t.window.limit pos groups)) := by
  refine simulates h o base p rank lo hi start exit hlayout 1 .none pos groups _ hallows hknows
    (fun _ _ hopen => by cases hopen) fun stop groups hallows' _ _ => ?_
  exact Yields.of_accepting (h.inside _) hallows' haccept

/-- A fragment yields its verdicts. -/
theorem yields_fragment (hkeyed : a.Keyed keys) {own : Nat → Prop} {tracked : Bool} {nested : Nat}
    {window window' : Window} {id pos : Nat} {f : Automaton.Fragment} {slots : Slots} {v : Verdict}
    (hf : a.fragments[id]? = some f) (hlimit : text.isBoundary window.limit)
    (hpos : text.isBoundary pos) (hle : pos ≤ window.limit)
    (hv : a.verdicts ranges keys text window id pos slots v) :
    let t := (a.setting ranges keys text own tracked nested window').inner id f window
    Yields t (t.allowance .none pos + (1 + a.states.size)) .none f.start pos slots v := by
  obtain ⟨site, o, base, p, f', lo, hi, groups, ⟨rfl, howns, hinsides⟩, hisolated, hknows, rfl,
    rfl⟩ := hv
  obtain rfl : f' = f := Option.some.inj (hisolated.fragment.symm.trans hf)
  obtain ⟨rank, hrank, hbody⟩ := hisolated.body
  intro t
  have hsite : site.inner id f' = t.toSite := by
    obtain ⟨automaton, owns, own', tracked', nested', insides, inside⟩ := site
    cases howns
    cases hinsides
    rfl
  rw [hsite] at hbody
  exact (yields_part (t := t) (hosts_setting hkeyed hlimit) hbody hisolated.accept ⟨hpos, hle⟩
    hknows).mono (by omega)

/-- No state and no fragment of an automaton has been replaced in itself. -/
theorem grounded_whole (h : p.LiesIn o a ranges keys) (text : Subject) :
    Grounded (a.whole ranges keys text) a fun _ _ _ => False where
  isVariant :=
    { fragments := fun id f hf =>
      ⟨none, by rw [← (h.fragments id f hf).2]; exact hf, fun _ h => by cases h⟩
      states := fun _ _ hs => .inl hs
      slotCount_eq := rfl
      loopCount_eq := rfl }
  yields id f window pos slots v hf hwindow hpos hle hv := by
    refine (yields_fragment h.keyed hf hwindow.limit hpos hle hv).mono ?_
    rw [Nat.add_comm 1]
    exact allowance_le_budget (t := (a.whole ranges keys text).inner id f window) rfl
      (Nat.le_refl _) pos
  tracked id f hf hcaptures := (h.fragments id f hf).1 hcaptures
  captures _ _ _ _ _ _ _ _ h := h.elim
  fragments _ _ _ _ h := h.elim

/-- A search in a variant of an automaton gives the first ending of its pattern. -/
theorem ran_variant (h : p.LiesIn o a ranges keys) {replaced : Dfa → Nat → Nat → Prop}
    (hgrounded : Grounded (a.whole ranges keys text) b replaced)
    (hcaptures : ∀ dfa body close, replaced dfa body close →
      CaptureReplaced (a.whole ranges keys text) dfa body close)
    {pos : Nat} (hpos : text.isBoundary pos) {r : Registers}
    (hslots : r.slots = Groups.fresh.slots keys) (hloops : r.loops.size = a.loopCount) :
    Ran (fun _ => True) (decide (1 < a.slotCount)) r
      (Ending.judge ((Window.mk text.size none).verdict keys)
        (p.meaning text o 0 text.size pos .fresh))
      (Trial.search ⟨b, text⟩ (Trial.runFragment ⟨b, text⟩ b.fragments.size)
        ⟨text.size, none⟩ a.start pos r) := by
  obtain ⟨rank, hrank, hlayout⟩ := h.layout
  have hsound : Sound (a.whole ranges keys text) b replaced
      (Trial.runFragment ⟨b, text⟩ b.fragments.size) :=
    { isVariant := hgrounded.isVariant
      captures := hcaptures
      fragments :=
        (realizes_runFragment hgrounded b.fragments.size).mono hgrounded.isVariant.fragments_le
      limit := Subject.isBoundary_size text
      tracked := of_decide_eq_true }
  have hknows : (a.whole ranges keys text).automaton.Knows .fresh := fun _ _ => rfl
  have hyields := yields_part (t := a.whole ranges keys text)
    (hosts_setting h.keyed (Subject.isBoundary_size text)) hlayout h.accept
    ⟨hpos, Subject.le_size_of_isBoundary hpos⟩ hknows
  refine ran_search hsound (hyields.mono ?_) hslots hloops
  have hrank' : rank < (a.whole ranges keys text).automaton.states.size := hrank
  have hbudget := allowance_le_budget (t := a.whole ranges keys text) (b := b)
    hgrounded.isVariant.loopCount_eq hgrounded.isVariant.states_le pos
  exact Nat.le_trans (by omega) hbudget

end Pattern

/-! ## The automaton of a pattern -/

/-- The slots hold what is recorded of the groups. -/
structure Automaton.Records (a : Automaton) (slots : Slots) (groups : Groups) : Prop where
  /-- There are as many slots as the automaton needs. -/
  size_eq : slots.size = a.slotCount
  /-- Each slot belongs to a group. -/
  exists_key : ∀ id, id < a.slotCount → ∃ key, a.slot? key = some id
  /-- The slot of a group holds what is recorded of it. -/
  slots : ∀ key id, a.slot? key = some id → slots[id]? = some (groups key)

/-- The result of a search is an ending, or that there is none. -/
def Automaton.Gives (a : Automaton) (result : Except Fault (Option Nat × Registers)) :
    Option Ending → Prop
  | none => ∃ r, result = .ok (none, r)
  | some (.error fault) => result = .error fault
  | some (.ok (stop, groups)) => ∃ r, result = .ok (some stop, r) ∧ a.Records r.slots groups

namespace Pattern

variable {o : Options} {p : Pattern} {a : Automaton} {text : Subject} {pos : Nat}

theorem records_slots {ranges : Nat → Nat × Nat} {keys : List GroupKey}
    (h : p.LiesIn o a ranges keys) (groups : Groups) : a.Records (groups.slots keys) groups where
  size_eq := by rw [Groups.size_slots, h.length_keys]
  exists_key id hid := by
    have hlt : id < keys.length := by rw [h.length_keys]; exact hid
    exact ⟨keys[id], (h.keyed _ _).2 (List.getElem?_eq_getElem hlt)⟩
  slots key id hkey := Groups.getElem?_slots ((h.keyed key id).1 hkey)

/-- The slots of a search that has just begun hold no group. -/
theorem fresh_slots {keys : List GroupKey} (hlength : keys.length = a.slotCount) :
    (Registers.fresh a).slots = Groups.fresh.slots keys := by
  refine Array.ext (by simp [Registers.fresh, Groups.slots, hlength]) fun i hi hi' => ?_
  simp [Registers.fresh, Groups.slots, Groups.fresh]

/-- The first ending is a verdict of its own. -/
theorem judge_eq_head? (keys : List GroupKey) (limit : Nat) (endings : List Ending) :
    Ending.judge ((Window.mk limit none).verdict keys) endings =
      match endings.head? with
      | none => .failure
      | some (.error fault) => .error fault
      | some (.ok (stop, groups)) => .success stop (groups.slots keys) := by
  match endings with
  | [] => rfl
  | .error fault :: _ => rfl
  | .ok (stop, groups) :: _ => rfl

/-- A search in an automaton in which a pattern lies gives the first ending of the
pattern. -/
theorem gives_run {ranges : Nat → Nat × Nat} {keys : List GroupKey} (h : p.LiesIn o a ranges keys)
    (text : Subject) (hpos : text.isBoundary pos) :
    a.Gives (a.run text a.entry pos (.fresh a))
      (p.meaning text o 0 text.size pos .fresh).head? := by
  have hran := ran_variant h (grounded_whole h text) (fun _ _ _ h => h.elim) hpos
    (fresh_slots h.length_keys) (by simp [Registers.fresh])
  rw [judge_eq_head?, ← h.entry] at hran
  match hhead : (p.meaning text o 0 text.size pos .fresh).head?, hran with
  | none, hran => exact ⟨_, hran.choose_spec.1⟩
  | some (.error fault), hran => exact hran
  | some (.ok (stop, groups)), hran =>
    obtain ⟨r, hrun, hslots, -⟩ := hran
    refine ⟨r, hrun, ?_⟩
    rw [hslots]
    exact records_slots h groups

/-- A search in the automaton of a pattern finds the first ending of the pattern, and
then the slots hold what its groups hold. -/
theorem run_compile (h : Automaton.compile o p = .ok a) (text : Subject)
    (hpos : text.isBoundary pos) :
    a.Gives (a.run text a.entry pos (.fresh a))
      (p.meaning text o 0 text.size pos .fresh).head? := by
  obtain ⟨ranges, keys, hlies⟩ := exists_liesIn h
  exact gives_run hlies text hpos

/-- A group that is one of two texts, and then its text once more in any case. -/
def choiceThenReference : Pattern :=
  .concat [.capture none (.alt [.text ['a'], .text ['a', 'b']]),
    .withFlags { ignoreCase := some true } (.reference (.index 1))]

/-- The second branch is taken, since after the first one the group is not matched once
more.  Its text is found in the other case. -/
theorem run_compile_choiceThenReference :
    ∃ a, Automaton.compile {} choiceThenReference = .ok a ∧
      (Subject.ofList ['a', 'b', 'A', 'B']).isBoundary 0 ∧
      ∃ r, a.run (.ofList ['a', 'b', 'A', 'B']) a.entry 0 (.fresh a) = .ok (some 4, r) ∧
        r.slots[1]? = some (some ⟨0, some 2⟩) := by
  have hcompile : (Automaton.compile {} choiceThenReference).toOption.bind
      (·.slot? (.index 1)) = some 1 := by decide +kernel
  obtain ⟨a, ha⟩ : ∃ a, Automaton.compile {} choiceThenReference = .ok a := by
    cases h : Automaton.compile {} choiceThenReference with
    | error fault => simp [h, Except.toOption] at hcompile
    | ok a => exact ⟨a, rfl⟩
  have hslot : a.slot? (.index 1) = some 1 := by simpa [ha, Except.toOption] using hcompile
  have hpos : (Subject.ofList ['a', 'b', 'A', 'B']).isBoundary 0 := by decide
  have hrun := run_compile ha _ hpos
  have hhead :
    ((choiceThenReference.meaning (.ofList ['a', 'b', 'A', 'B']) {} 0 4 0 .fresh).head?.map
      fun e => e.toOption.map fun e =>
          (e.1, e.2 (.index 1))) = some (some (4, some ⟨0, some 2⟩)) := by
    decide +kernel
  match h : (choiceThenReference.meaning (.ofList ['a', 'b', 'A', 'B']) {} 0 4 0 .fresh).head?,
      hhead with
  | some (.ok (stop, groups)), hhead =>
    obtain ⟨rfl, hgroup⟩ : stop = 4 ∧ groups (.index 1) = some ⟨0, some 2⟩ := by
      simpa [Except.toOption] using hhead
    rw [show (Subject.ofList ['a', 'b', 'A', 'B']).size = 4 from rfl, h] at hrun
    obtain ⟨r, hrun, hrecords⟩ := hrun
    exact ⟨a, ha, hpos, r, hrun, hgroup ▸ hrecords.slots _ _ hslot⟩

end Pattern

end RegexEngine
