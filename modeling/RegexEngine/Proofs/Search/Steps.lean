import RegexEngine.Proofs.Search.Verdict

/-!
# What a step of a search does

A search keeps its state in registers.  The facts here say that its steps do what
`Steps` says, and what they leave alone.

* Monadic steps.  Each of them is computed on given registers.
* Texts.  Consuming a text is consuming its characters one after the other.
* Fragments.  `Realizes` says that a runner gives the verdicts of a setting; it
  carries over to lookarounds and possessive repetition.
* `stepped_of_steps` puts the facts together.
-/

namespace RegexEngine

/-! ## Monadic steps -/

namespace Search

variable {α β : Type} {r : Registers}

theorem bind_run (x : Search α) (f : α → Search β) :
    (x >>= f) r = match x r with
      | .error fault => .error fault
      | .ok (a, r') => f a r' := by
  show Except.bind (x r) (fun p => f p.1 p.2) = _
  cases x r <;> rfl

theorem bind_run_ok {x : Search α} {f : α → Search β} {a : α} {r' : Registers}
    (h : x r = .ok (a, r')) : (x >>= f) r = f a r' := by
  rw [bind_run, h]

theorem bind_run_error {x : Search α} {f : α → Search β} {fault : Fault}
    (h : x r = .error fault) : (x >>= f) r = .error fault := by
  rw [bind_run, h]

theorem pure_run (a : α) : (pure a : Search α) r = .ok (a, r) := rfl

theorem get_run : (get : Search Registers) r = .ok (r, r) := rfl

theorem lift_run (x : Except Fault α) : (liftM x : Search α) r = x.map (·, r) := by
  cases x <;> rfl

theorem slot_run {id : Nat} (h : id < r.slots.size) :
    slot id r = .ok (r.slots[id]?.join, r) := by
  have hget := Array.getElem?_eq_getElem h
  rw [slot, bind_run_ok get_run, hget]
  rfl

theorem setSlot_run {id : Nat} (h : id < r.slots.size) (s : Option Slot) :
    setSlot id s r = .ok ((), { r with slots := r.slots.setIfInBounds id s }) := by
  show (if id < r.slots.size then set { r with slots := r.slots.setIfInBounds id s }
    else throw .missingRegister : Search Unit) r = _
  rw [if_pos h]
  rfl

theorem iteration_run {id : Nat} {start : Option Nat} (h : r.loops[id]? = some start) :
    iteration id r = .ok (start, r) := by
  rw [iteration, bind_run_ok get_run, h]
  rfl

theorem setIteration_run {id : Nat} (h : id < r.loops.size) (start : Option Nat) :
    setIteration id start r = .ok ((), { r with loops := r.loops.setIfInBounds id start }) := by
  show (if id < r.loops.size then set { r with loops := r.loops.setIfInBounds id start }
    else throw .missingRegister : Search Unit) r = _
  rw [if_pos h]
  rfl

theorem restore_run (slots : Slots) : restore slots r = .ok ((), { r with slots }) := rfl

end Search

/-! ## Texts -/

namespace Setting

variable {t : Setting} {b : Automaton} {r : Registers}

/-- A search on the subject of a setting. -/
abbrev trial (t : Setting) (b : Automaton) : Trial := ⟨b, t.text⟩

theorem checkBoundary_run {text : Subject} {pos : Nat} (h : text.isBoundary pos) :
    (liftM (text.checkBoundary pos) : Search Unit) r = .ok ((), r) := by
  rw [Search.lift_run, Subject.checkBoundary, if_pos h]
  rfl

theorem nextChar_run {pos : Nat} (h : t.text.isBoundary pos) :
    (t.trial b).nextChar t.window.limit pos r = .ok (t.next? pos, r) := by
  unfold Trial.nextChar next?
  split
  · rfl
  · rw [Search.bind_run_ok (checkBoundary_run h)]
    rfl

theorem charAt?_of_next? {pos : Nat} {c : Char} (h : t.next? pos = some c) :
    pos < t.window.limit ∧ t.text.charAt? pos = some c := by
  unfold next? at h
  split at h
  · cases h
  · exact ⟨by omega, h⟩

/-- Behind the next character a run may go on. -/
theorem allows_of_next? (hlimit : t.text.isBoundary t.window.limit) {pos : Nat} {c : Char}
    (h : t.next? pos = some c) : t.Allows (pos + c.utf8Size) := by
  obtain ⟨hlt, hc⟩ := charAt?_of_next? h
  exact ⟨Subject.isBoundary_add hc, Subject.add_le_of_lt hc hlimit hlt⟩

theorem spelled_cons (p : Char → Bool) (ps : List (Char → Bool)) (pos : Nat) :
    t.spelled (p :: ps) pos = (t.next? pos).bind fun c =>
      if p c then t.spelled ps (pos + c.utf8Size) else none := rfl

theorem spelled_cons_eq_bind (p : Char → Bool) (ps : List (Char → Bool)) (pos : Nat) :
    t.spelled (p :: ps) pos = (t.spelled [p] pos).bind (t.spelled ps) := by
  rw [spelled_cons, spelled_cons]
  cases t.next? pos with
  | none => rfl
  | some c =>
    simp only [Option.bind_some]
    split <;> rfl

theorem spelled_cons_eq_some_iff {p : Char → Bool} {ps : List (Char → Bool)} {pos stop : Nat} :
    t.spelled (p :: ps) pos = some stop ↔
      ∃ c, t.next? pos = some c ∧ p c ∧ t.spelled ps (pos + c.utf8Size) = some stop := by
  rw [spelled_cons, Option.bind_eq_some_iff]
  simp

/-- Behind a text that is spelled a run may go on. -/
theorem allows_of_spelled (hlimit : t.text.isBoundary t.window.limit) {ps : List (Char → Bool)}
    {pos stop : Nat} (hpos : t.Allows pos) (h : t.spelled ps pos = some stop) :
    t.Allows stop ∧ pos ≤ stop := by
  induction ps generalizing pos with
  | nil =>
    cases h
    exact ⟨hpos, Nat.le_refl _⟩
  | cons p ps ih =>
    obtain ⟨c, hc, _, hrest⟩ := spelled_cons_eq_some_iff.1 h
    obtain ⟨hallows, hle⟩ := ih (allows_of_next? hlimit hc) hrest
    exact ⟨hallows, by omega⟩

theorem literalFolded_run (hlimit : t.text.isBoundary t.window.limit) {chars : List Char}
    {pos : Nat} (h : t.Allows pos) :
    (t.trial b).literalFolded t.window.limit chars pos r =
      .ok (t.spelled (chars.map Trial.sameFolded) pos, r) := by
  induction chars generalizing pos with
  | nil => rfl
  | cons c chars ih =>
    rw [Trial.literalFolded, Search.bind_run_ok (nextChar_run h.boundary), List.map_cons,
      spelled_cons]
    cases hnext : t.next? pos with
    | none => rfl
    | some d =>
      simp only [Option.bind_some]
      split
      · exact ih (allows_of_next? hlimit hnext)
      · rfl

/-- A text is spelled if it fits and the subject goes on with it. -/
theorem spelled_eq (hlimit : t.text.isBoundary t.window.limit) (chars : List Char) {pos : Nat}
    (h : t.Allows pos) :
    t.spelled (chars.map fun expected c => c == expected) pos =
      if pos + byteLength chars ≤ t.window.limit ∧ (t.trial b).startsWith pos chars then
        some (pos + byteLength chars) else none := by
  induction chars generalizing pos with
  | nil =>
    have := h.le_limit
    simp [spelled, byteLength, Trial.startsWith, this]
  | cons c chars ih =>
    rw [List.map_cons, spelled_cons]
    cases hnext : t.next? pos with
    | none =>
      rw [Option.bind_none, if_neg]
      rintro ⟨hle, hstarts⟩
      have := c.utf8Size_pos
      simp only [byteLength] at hle
      unfold next? at hnext
      rw [if_neg (by omega)] at hnext
      simp [Trial.startsWith, hnext] at hstarts
    | some d =>
      rw [Option.bind_some]
      obtain ⟨_, hd⟩ := charAt?_of_next? hnext
      by_cases hdc : d = c
      · subst hdc
        rw [if_pos (by simp), ih (allows_of_next? hlimit hnext)]
        simp [Trial.startsWith, byteLength, hd, Nat.add_assoc]
      · rw [if_neg (by simpa using hdc), if_neg]
        rintro ⟨_, hstarts⟩
        simp [Trial.startsWith, hd, hdc] at hstarts

theorem literal_run (hlimit : t.text.isBoundary t.window.limit) {chars : List Char} {pos : Nat}
    (h : t.Allows pos) :
    (t.trial b).literal t.window.limit chars pos r =
      .ok (t.spelled (chars.map fun expected c => c == expected) pos, r) := by
  have hsize := Subject.le_size_of_isBoundary h.boundary
  rw [spelled_eq (b := b) hlimit chars h]
  have hfault : ¬(decide (t.text.size < pos) && decide (sizeLimit ≤ pos + byteLength chars)) := by
    simp only [Bool.and_eq_true, decide_eq_true_eq]
    omega
  unfold Trial.literal
  dsimp only
  rw [if_neg hfault]
  split
  · rw [if_neg (by omega)]
    rfl
  · rw [Search.bind_run_ok (checkBoundary_run h.boundary), Search.pure_run]
    split
    · rw [if_pos ⟨by omega, by assumption⟩]
    · rename_i hstarts
      rw [if_neg fun hboth => hstarts hboth.2]

theorem reference_run (hlimit : t.text.isBoundary t.window.limit) {slot : Option Nat}
    {ignoreCase : Bool} {pos : Nat} (h : t.Allows pos)
    (hslot : ∀ id, slot = some id → id < r.slots.size) :
    (t.trial b).reference t.window.limit slot ignoreCase pos r =
      (t.reread slot ignoreCase pos r.slots).map (·, r) := by
  unfold Trial.reference reread
  cases slot with
  | none => rfl
  | some id =>
    dsimp only [Option.bind_some]
    rw [Search.bind_run_ok (Search.slot_run (hslot id rfl))]
    cases hspan : r.slots[id]?.join.bind Slot.span with
    | none => rfl
    | some span =>
      obtain ⟨start, stop⟩ := span
      dsimp only
      cases hslice : t.text.slice start stop with
      | error fault => exact Search.bind_run_error (by rw [Search.lift_run]; rfl)
      | ok chars =>
        rw [Search.bind_run_ok (by rw [Search.lift_run]; rfl)]
        cases ignoreCase with
        | true =>
          rw [if_pos rfl, literalFolded_run hlimit h]
          rfl
        | false =>
          rw [if_neg (by simp), literal_run hlimit h]
          rfl

end Setting

/-! ## What is left alone -/

/-- What a run leaves alone: the loops that are not its own, and the slots if it has
no groups. -/
structure Registers.Kept (own : Nat → Prop) (tracked : Bool) (r r' : Registers) : Prop where
  /-- No slot is added. -/
  slots_size : r'.slots.size = r.slots.size
  /-- No loop is added. -/
  loops_size : r'.loops.size = r.loops.size
  /-- Other loops are left alone. -/
  loops : ∀ loop, ¬own loop → r'.loops[loop]? = r.loops[loop]?
  /-- Without groups the slots are left alone. -/
  slots : tracked = false → r'.slots = r.slots

namespace Registers.Kept

variable {own own' : Nat → Prop} {tracked tracked' : Bool} {r r' r'' : Registers}

theorem refl (own : Nat → Prop) (tracked : Bool) (r : Registers) : Kept own tracked r r :=
  ⟨rfl, rfl, fun _ _ => rfl, fun _ => rfl⟩

theorem trans (h : Kept own tracked r r') (h' : Kept own tracked r' r'') :
    Kept own tracked r r'' :=
  ⟨h'.slots_size.trans h.slots_size, h'.loops_size.trans h.loops_size,
    fun loop hloop => (h'.loops loop hloop).trans (h.loops loop hloop),
    fun htracked => (h'.slots htracked).trans (h.slots htracked)⟩

theorem mono (h : Kept own tracked r r') (hown : ∀ loop, own loop → own' loop)
    (htracked : tracked → tracked') : Kept own' tracked' r r' :=
  ⟨h.slots_size, h.loops_size, fun loop hloop => h.loops loop fun howns => hloop (hown loop howns),
    fun hfalse => h.slots (by cases tracked <;> simp_all)⟩

/-- Changing slots is fine where there are groups. -/
theorem setSlots {slots : Slots} (hsize : slots.size = r.slots.size) (htracked : tracked) :
    Kept own tracked r { r with slots } :=
  ⟨hsize, rfl, fun _ _ => rfl, fun hfalse => by simp [htracked] at hfalse⟩

/-- Putting back the slots is fine. -/
theorem putBack (h : Kept own tracked r r') (undo : Bool) :
    Kept own tracked r (if undo then { r' with slots := r.slots } else r') := by
  split
  · exact ⟨rfl, h.loops_size, h.loops, fun _ => rfl⟩
  · exact h

/-- A loop of the run may change. -/
theorem setLoop {loop : Nat} {start : Option Nat} (hloop : own loop) :
    Kept own tracked r { r with loops := r.loops.setIfInBounds loop start } := by
  refine ⟨rfl, by simp, fun loop' hother => ?_, fun _ => rfl⟩
  have hne : loop ≠ loop' := fun heq => hother (heq ▸ hloop)
  simp [Array.getElem?_setIfInBounds_ne hne]

/-- A loop that has changed is left alone if its record is put back in the end. -/
theorem putBackLoop {loop : Nat} {start start' : Option Nat} (hget : r.loops[loop]? = some start)
    (h : Kept own tracked { r with loops := r.loops.setIfInBounds loop start' } r') :
    Kept own tracked r { r' with loops := r'.loops.setIfInBounds loop start } := by
  have hsize : r'.loops.size = r.loops.size := by simpa using h.loops_size
  have hlt : loop < r'.loops.size := hsize ▸ (Array.getElem?_eq_some_iff.1 hget).1
  refine ⟨h.slots_size, by simpa using hsize, fun loop' hother => ?_, h.slots⟩
  by_cases hloop : loop' = loop
  · subst hloop
    rw [Array.getElem?_setIfInBounds_self_of_lt hlt, hget]
  · have hkept := h.loops loop' hother
    simp only [Array.getElem?_setIfInBounds_ne (Ne.symm hloop)] at hkept ⊢
    exact hkept

end Registers.Kept

/-- The registers hold where the open iterations began. -/
def Registers.Agrees (its : Iterations) (r : Registers) : Prop :=
  ∀ loop start, its loop = some start → r.loops[loop]? = some (some start)

/-- Only loops of the run itself are open. -/
def Setting.Guards (t : Setting) (its : Iterations) : Prop :=
  ∀ loop start, its loop = some start → t.guarded loop

theorem Registers.Agrees.kept {t : Setting} {its : Iterations} {tracked : Bool} {r r' : Registers}
    (h : r.Agrees its) (hguards : t.Guards its) (hkept : Kept t.scratch tracked r r') :
    r'.Agrees its := by
  intro loop start hopen
  rw [hkept.loops loop fun hscratch => hscratch.2 (hguards loop start hopen)]
  exact h loop start hopen

/-- Where an iteration is opened, the registers have to hold where it began. -/
theorem Registers.Agrees.set {its : Iterations} {r : Registers} (h : r.Agrees its) {loop pos : Nat}
    (hlt : loop < r.loops.size) :
    Registers.Agrees (its.set loop (some pos))
      { r with loops := r.loops.setIfInBounds loop (some pos) } := by
  intro loop' start hopen
  by_cases hloop : loop' = loop
  · subst hloop
    rw [Iterations.set_self] at hopen
    obtain rfl := Option.some.inj hopen
    simp [hlt]
  · rw [Iterations.set_ne hloop] at hopen
    rw [Array.getElem?_setIfInBounds_ne (Ne.symm hloop)]
    exact h loop' start hopen

theorem Setting.Guards.set {t : Setting} {its : Iterations} (h : t.Guards its) {loop : Nat}
    (hguarded : t.guarded loop) (start : Option Nat) : t.Guards (its.set loop start) := by
  intro loop' start' hopen
  by_cases hloop : loop' = loop
  · exact hloop ▸ hguarded
  · rw [Iterations.set_ne hloop] at hopen
    exact h loop' start' hopen

/-! ## Fragments -/

/-- A run gives a verdict and leaves alone what it has to. -/
def Ran (own : Nat → Prop) (tracked : Bool) (r : Registers) :
    Verdict → Except Fault (Option Nat × Registers) → Prop
  | .error fault, result => result = .error fault
  | .ok none, result => ∃ r', result = .ok (none, r') ∧ r.Kept own tracked r'
  | .ok (some (stop, slots)), result =>
    ∃ r', result = .ok (some stop, r') ∧ r'.slots = slots ∧ r.Kept own tracked r'

/-- A runner gives the verdicts of a setting for fragments below a bound. -/
def Realizes (t : Setting) (run : FragmentRunner) (bound : Nat) : Prop :=
  ∀ id f window pos slots v, id < bound → t.automaton.fragments[id]? = some f →
    window.Sensible t.text → t.text.isBoundary pos → pos ≤ window.limit →
    t.verdicts window id pos slots v → ∀ r : Registers, r.slots = slots →
      r.loops.size = t.automaton.loopCount → Ran (t.owns id) f.captures r v (run window id pos r)

namespace Trial

variable {r : Registers}

theorem undoing_run_error {α : Type} {captures : Bool} {undo : α → Bool} {step : Search α}
    {fault : Fault} (h : step r = .error fault) :
    undoing captures undo step r = .error fault := by
  unfold undoing
  rw [Search.bind_run_ok Search.get_run, Search.bind_run_error h]

theorem undoing_run_ok {α : Type} {captures : Bool} {undo : α → Bool} {step : Search α} {a : α}
    {r' : Registers} (h : step r = .ok (a, r')) :
    undoing captures undo step r =
      .ok (a, if captures && undo a then { r' with slots := r.slots } else r') := by
  unfold undoing
  rw [Search.bind_run_ok Search.get_run, Search.bind_run_ok h]
  split
  · exact Search.bind_run_ok (Search.restore_run _)
  · rfl

/-- A run gives a verdict, and one that fails has its slots put back. -/
def Undone (own : Nat → Prop) (captures : Bool) (r : Registers) :
    Verdict → Except Fault (Option Nat × Registers) → Prop
  | .error fault, result => result = .error fault
  | .ok none, result =>
    ∃ r', result = .ok (none, r') ∧ r'.slots = r.slots ∧ r.Kept own captures r'
  | .ok (some (stop, slots)), result =>
    ∃ r', result = .ok (some stop, r') ∧ r'.slots = slots ∧ r.Kept own captures r'

theorem undone_of_ran {own : Nat → Prop} {captures : Bool} {v : Verdict}
    {step : Search (Option Nat)} (h : Ran own captures r v (step r)) :
    Undone own captures r v (undoing captures (·.isNone) step r) := by
  match v, h with
  | .error fault, h => exact undoing_run_error h
  | .ok none, ⟨r', hrun, hkept⟩ =>
    refine ⟨_, undoing_run_ok hrun, ?_⟩
    cases captures with
    | true => exact ⟨rfl, ⟨rfl, hkept.loops_size, hkept.loops, fun _ => rfl⟩⟩
    | false => exact ⟨hkept.slots rfl, hkept⟩
  | .ok (some (stop, slots)), ⟨r', hrun, hslots, hkept⟩ =>
    refine ⟨_, undoing_run_ok hrun, ?_⟩
    simp [hslots, hkept]

/-- Looking at one side of a position finds a verdict. -/
def Found (own : Nat → Prop) (captures : Bool) (r : Registers) :
    Verdict → Except Fault (Bool × Registers) → Prop
  | .error fault, result => result = .error fault
  | .ok none, result => ∃ r', result = .ok (false, r') ∧ r.Kept own captures r'
  | .ok (some (_, slots)), result =>
    ∃ r', result = .ok (true, r') ∧ r'.slots = slots ∧ r.Kept own captures r'

theorem Found.of_kept {own : Nat → Prop} {captures : Bool} {r r' : Registers} {v : Verdict}
    {result : Except Fault (Bool × Registers)} (hkept : r.Kept own captures r')
    (h : Found own captures r' v result) : Found own captures r v result := by
  match v, h with
  | .error fault, h => exact h
  | .ok none, ⟨r'', hresult, hkept'⟩ => exact ⟨r'', hresult, hkept.trans hkept'⟩
  | .ok (some (_, slots)), ⟨r'', hresult, hslots, hkept'⟩ =>
    exact ⟨r'', hresult, hslots, hkept.trans hkept'⟩

section Fragments

variable {t : Setting} {b : Automaton} {run : FragmentRunner} {id : Nat}
  {f : Automaton.Fragment}

/-- Behind a position the starts are tried one after the other. -/
theorem found_endsAt (hrealizes : Realizes t run t.nested) (hrun : t.MayRun id f) {pos : Nat}
    (hpos : t.text.isBoundary pos) {slots : Slots} {verdicts : Nat → Verdict} {starts : List Nat}
    (hstarts : ∀ start ∈ starts, t.text.isBoundary start ∧ start ≤ pos ∧
      t.verdicts ⟨pos, some pos⟩ id start slots (verdicts start))
    (hslots : r.slots = slots) (hloops : r.loops.size = t.automaton.loopCount) :
    Found (t.owns id) f.captures r (firstOf (starts.map verdicts))
      (endsAt run f.captures id pos starts r) := by
  induction starts generalizing r with
  | nil => exact ⟨r, rfl, .refl _ _ _⟩
  | cons start starts ih =>
    obtain ⟨hboundary, hle, hverdict⟩ := hstarts start (by simp)
    have hsensible : Window.Sensible ⟨pos, some pos⟩ t.text := ⟨hpos, fun _ h => by cases h; rfl⟩
    have hran := undone_of_ran (hrealizes id f _ start slots _ hrun.nested hrun.fragment hsensible
      hboundary hle hverdict r hslots hloops)
    rw [List.map_cons, firstOf_cons]
    unfold endsAt
    generalize verdicts start = v at hran ⊢
    match v, hran with
    | .error fault, hran => exact Search.bind_run_error hran
    | .ok none, ⟨r', hresult, hslots', hkept⟩ =>
      rw [Search.bind_run_ok hresult, Verdict.failure_orElse]
      exact .of_kept hkept (ih (fun start h => hstarts start (by simp [h])) (hslots'.trans hslots)
        (hkept.loops_size.trans hloops))
    | .ok (some (stop, slots')), ⟨r', hresult, hslots', hkept⟩ =>
      rw [Search.bind_run_ok hresult]
      exact ⟨r', rfl, hslots', hkept⟩

theorem found_ahead (hrealizes : Realizes t run t.nested) (hrun : t.MayRun id f) {pos : Nat}
    (hpos : t.text.isBoundary pos) {slots : Slots} {v : Verdict}
    (hverdict : t.verdicts ⟨t.text.size, none⟩ id pos slots v) (hslots : r.slots = slots)
    (hloops : r.loops.size = t.automaton.loopCount) :
    Found (t.owns id) f.captures r v ((t.trial b).looksAround run .ahead f.captures id pos r) := by
  have hsensible : Window.Sensible ⟨t.text.size, none⟩ t.text :=
    ⟨Subject.isBoundary_size _, fun _ h => by cases h⟩
  have hran := hrealizes id f _ pos slots _ hrun.nested hrun.fragment hsensible hpos
    (Subject.le_size_of_isBoundary hpos) hverdict r hslots hloops
  unfold looksAround
  dsimp only
  match v, hran with
  | .error fault, hran => exact Search.bind_run_error hran
  | .ok none, ⟨r', hresult, hkept⟩ => exact ⟨r', Search.bind_run_ok hresult, hkept⟩
  | .ok (some (stop, slots')), ⟨r', hresult, hslots', hkept⟩ =>
    exact ⟨r', Search.bind_run_ok hresult, hslots', hkept⟩

theorem found_behind (hrealizes : Realizes t run t.nested) (hrun : t.MayRun id f) {pos : Nat}
    (hpos : t.text.isBoundary pos) {slots : Slots} {verdicts : Nat → Verdict}
    (hverdicts : ∀ start ∈ t.text.boundariesDownFrom pos,
      t.verdicts ⟨pos, some pos⟩ id start slots (verdicts start)) (hslots : r.slots = slots)
    (hloops : r.loops.size = t.automaton.loopCount) :
    Found (t.owns id) f.captures r (firstOf ((t.text.boundariesDownFrom pos).map verdicts))
      ((t.trial b).looksAround run .behind f.captures id pos r) := by
  unfold looksAround
  dsimp only
  rw [Search.bind_run_ok (Setting.checkBoundary_run hpos)]
  refine found_endsAt hrealizes hrun hpos (fun start hstart => ?_) hslots hloops
  obtain ⟨hboundary, hle⟩ := Subject.mem_boundariesDownFrom hstart
  exact ⟨hboundary, hle, hverdicts start hstart⟩

/-- Possessive repetition ends with so many matches. -/
def Exhausted (own : Nat → Prop) (captures : Bool) (r : Registers) :
    Except Fault (Nat × Nat × Slots) → Except Fault ((Nat × Nat) × Registers) → Prop
  | .error fault, result => result = .error fault
  | .ok (count, stop, slots), result =>
    ∃ r', result = .ok ((count, stop), r') ∧ r'.slots = slots ∧ r.Kept own captures r'

/-- Possessive repetition runs the fragment as `Exhausts` says. -/
theorem exhausted_exhaust (hrealizes : Realizes t run t.nested) (hrun : t.MayRun id f)
    (hlimit : t.text.isBoundary t.window.limit) {max : Option Nat} {count pos : Nat} {slots : Slots}
    {result : Except Fault (Nat × Nat × Slots)} (h : Exhausts t id max count pos slots result)
    (hpos : t.Allows pos) (hslots : r.slots = slots)
    (hloops : r.loops.size = t.automaton.loopCount) :
    Exhausted (t.owns id) f.captures r result
      ((t.trial b).exhaust run t.window.limit f.captures id max count pos r) := by
  have hsensible : Window.Sensible ⟨t.window.limit, none⟩ t.text := ⟨hlimit, fun _ h => by cases h⟩
  have hran {pos : Nat} {slots : Slots} {v : Verdict} (hpos : t.Allows pos)
      (hverdict : t.verdicts ⟨t.window.limit, none⟩ id pos slots v) {r : Registers}
      (hslots : r.slots = slots) (hloops : r.loops.size = t.automaton.loopCount) :=
    undone_of_ran (hrealizes id f _ pos slots v hrun.nested hrun.fragment hsensible hpos.boundary
      hpos.le_limit hverdict r hslots hloops)
  induction h generalizing r with
  | maximum hmax =>
    rw [exhaust, if_pos hmax]
    exact ⟨r, rfl, hslots, .refl _ _ _⟩
  | failure hmax hverdict =>
    obtain ⟨r', hresult, hslots', hkept⟩ := hran hpos hverdict hslots hloops
    rw [exhaust, if_neg hmax, Search.bind_run_ok hresult]
    exact ⟨r', rfl, hslots'.trans hslots, hkept⟩
  | fault hmax hverdict =>
    have hresult := hran hpos hverdict hslots hloops
    rw [exhaust, if_neg hmax, Search.bind_run_error hresult]
    rfl
  | empty hmax hverdict hstop =>
    obtain ⟨r', hresult, hslots', hkept⟩ := hran hpos hverdict hslots hloops
    rw [exhaust, if_neg hmax, Search.bind_run_ok hresult]
    dsimp only
    rw [dif_neg hstop]
    exact ⟨r', rfl, hslots', hkept⟩
  | @more count pos slots stop slots' result hmax hverdict hstop hallows _ ih =>
    obtain ⟨r', hresult, hslots', hkept⟩ := hran hpos hverdict hslots hloops
    have hrest := ih hallows hslots' (hkept.loops_size.trans hloops)
    rw [exhaust, if_neg hmax, Search.bind_run_ok hresult]
    dsimp only
    rw [dif_pos hstop]
    match result, hrest with
    | .error fault, hrest => exact hrest
    | .ok (count', stop', slots''), ⟨r'', hresult', hslots'', hkept'⟩ =>
      exact ⟨r'', hresult', hslots'', hkept.trans hkept'⟩

/-- A step leads where it should, and leaves alone what it has to. -/
def Stepped (t : Setting) (r : Registers) :
    Landing → Except Fault (Option (Nat × Nat) × Registers) → Prop
  | .error fault, result => result = .error fault
  | .ok none, result => ∃ r', result = .ok (none, r') ∧ r.Kept t.scratch t.tracked r'
  | .ok (some (next, pos, slots)), result =>
    ∃ r', result = .ok (some (next, pos), r') ∧ r'.slots = slots ∧ r.Kept t.scratch t.tracked r'

/-- Running a fragment keeps what the run around it has to keep. -/
theorem kept_of_fragment (hrun : t.MayRun id f) {r' : Registers}
    (h : r.Kept (t.owns id) f.captures r') : r.Kept t.scratch t.tracked r' :=
  h.mono (fun loop howns => ⟨hrun.own loop howns, fun hguarded => hguarded.2 id hrun.nested howns⟩)
    hrun.tracked

theorem fragment_run {g : Automaton.Fragment} (h : b.fragments[id]? = some g) :
    (t.trial b).fragment id r = .ok (g, r) := by
  have hget : (t.trial b).automaton.fragments[id]? = some g := h
  rw [Trial.fragment, hget]
  rfl

/-- The slots are put back unless the fragment matched as it should. -/
theorem stepped_of_found (hrun : t.MayRun id f) {negated : Bool} {next pos : Nat} {v : Verdict}
    {look : Search Bool} (h : Found (t.owns id) f.captures r v (look r)) :
    Stepped t r (v.looking negated next pos r.slots)
      ((do
        let found ← undoing f.captures (fun found => !found || negated) look
        return if found != negated then some (next, pos) else none : Search _) r) := by
  match v, h with
  | .error fault, h => exact Search.bind_run_error (undoing_run_error h)
  | .ok none, ⟨r', hresult, hkept⟩ =>
    rw [Search.bind_run_ok (undoing_run_ok hresult)]
    have hkept' := kept_of_fragment hrun (hkept.putBack (f.captures && (!false || negated)))
    cases negated with
    | false => exact ⟨_, rfl, hkept'⟩
    | true =>
      refine ⟨_, rfl, ?_, hkept'⟩
      cases hcaptures : f.captures with
      | true => rfl
      | false => exact hkept.slots hcaptures
  | .ok (some (_, slots)), ⟨r', hresult, hslots, hkept⟩ =>
    rw [Search.bind_run_ok (undoing_run_ok hresult)]
    cases negated with
    | false =>
      refine ⟨r', ?_, hslots, kept_of_fragment hrun hkept⟩
      simp [Search.pure_run]
    | true =>
      exact ⟨_, rfl, kept_of_fragment hrun (hkept.putBack (f.captures && (!true || true)))⟩

/-- Following a transition that consumes a character. -/
theorem stepped_of_oneOf {set : CharSet} {target pos : Nat} (hpos : t.Allows pos) :
    Stepped t r (.ok ((t.spelled [set.test] pos).map (target, ·, r.slots)))
      ((t.trial b).follow t.window.limit ⟨.oneOf set, target⟩ pos r) := by
  unfold follow
  dsimp only
  rw [Search.bind_run_ok (Setting.nextChar_run hpos.boundary), Setting.spelled_cons]
  cases t.next? pos with
  | none => exact ⟨r, rfl, .refl _ _ _⟩
  | some c =>
    simp only [Option.bind_some]
    split
    · exact ⟨r, by simp [*, Search.pure_run], rfl, .refl _ _ _⟩
    · exact ⟨r, by simp [*, Search.pure_run], .refl _ _ _⟩

/-- Following a transition that asserts something. -/
theorem stepped_of_look {look : Look} {target pos : Nat} (hpos : t.Allows pos) :
    Stepped t r (.ok (if look.holdsAt t.text pos then some (target, pos, r.slots) else none))
      ((t.trial b).follow t.window.limit ⟨.look look, target⟩ pos r) := by
  unfold follow
  dsimp only
  rw [Search.bind_run_ok (Setting.checkBoundary_run hpos.boundary)]
  split
  · exact ⟨r, by simp [*, Search.pure_run], rfl, .refl _ _ _⟩
  · exact ⟨r, by simp [*, Search.pure_run], .refl _ _ _⟩

/-- Where the match of a fragment ends a step goes on. -/
theorem stepped_of_ran (hrun : t.MayRun id f) {v : Verdict} {next : Nat} {x : Search (Option Nat)}
    (h : Ran (t.owns id) f.captures r v (x r)) :
    Stepped t r (v.landing next)
      ((do return (← x).map (next, ·) : Search (Option (Nat × Nat))) r) := by
  rcases v with fault | _ | ⟨stop, slots⟩
  · exact Search.bind_run_error h
  · obtain ⟨r', hresult, hkept⟩ := h
    exact ⟨r', Search.bind_run_ok hresult, kept_of_fragment hrun hkept⟩
  · obtain ⟨r', hresult, hslots, hkept⟩ := h
    exact ⟨r', Search.bind_run_ok hresult, hslots, kept_of_fragment hrun hkept⟩

/-- Where possessive repetition ends a step goes on, if there are matches enough. -/
theorem stepped_of_exhausted (hrun : t.MayRun id f) {min next : Nat}
    {result : Except Fault (Nat × Nat × Slots)} {x : Search (Nat × Nat)}
    (h : Exhausted (t.owns id) f.captures r result (x r)) :
    Stepped t r (result.map fun found => if min ≤ found.1 then some (next, found.2) else none)
      ((do
        let found ← x
        return if min ≤ found.1 then some (next, found.2) else none :
          Search (Option (Nat × Nat))) r) := by
  rcases result with fault | ⟨count, stop, slots⟩
  · exact Search.bind_run_error h
  · obtain ⟨r', hresult, hslots, hkept⟩ := h
    have hkept' := kept_of_fragment hrun hkept
    rw [Search.bind_run_ok hresult]
    dsimp only [Except.map]
    split
    · exact ⟨r', rfl, hslots, hkept'⟩
    · exact ⟨r', rfl, hkept'⟩

/-- A step does what `Steps` says, unless it consumes a text at once. -/
theorem stepped_of_steps
    (hfragments : ∀ (id : Nat) (f : Automaton.Fragment), t.automaton.fragments[id]? = some f →
      ∃ dfa, b.fragments[id]? = some { f with dfa })
    (hrealizes : Realizes t run t.nested) (hlimit : t.text.isBoundary t.window.limit)
    (hloops : r.loops.size = t.automaton.loopCount) {s : Automaton.State} {pos : Nat}
    {landing : Landing} (h : Steps t s pos r.slots landing)
    (htext : ∀ chars next, s.action ≠ .text chars next) (hpos : t.Allows pos) :
    Stepped t r landing ((t.trial b).step run t.window.limit s pos r) := by
  have hnone (haction : s.action.isPlain) : s.action = .none := by
    cases h : s.action with
    | none => rfl
    | text chars next => exact absurd h (htext chars next)
    | _ => simp [h, Action.isPlain] at haction
  cases h with
  | @char set target haction htransition =>
    unfold step
    rw [hnone haction, htransition]
    exact stepped_of_oneOf hpos
  | @look look target haction htransition =>
    unfold step
    rw [hnone haction, htransition]
    exact stepped_of_look hpos
  | @capture slot body close haction hslot htracked =>
    unfold step
    rw [haction]
    dsimp only
    rw [Search.bind_run_ok (Search.setSlot_run hslot _)]
    exact ⟨_, rfl, rfl, .setSlots (by simp) htracked⟩
  | @captureClose slot next haction hslot htracked =>
    unfold step
    rw [haction]
    dsimp only
    rw [Search.bind_run_ok (Search.slot_run hslot), Search.bind_run_ok (Search.setSlot_run hslot _)]
    exact ⟨_, rfl, rfl, .setSlots (by simp) htracked⟩
  | @reference group slot ignoreCase next haction hslot =>
    unfold step
    rw [haction]
    dsimp only
    rw [Search.bind_run, Setting.reference_run hlimit hpos hslot]
    match t.reread slot ignoreCase pos r.slots with
    | .error fault => rfl
    | .ok none => exact ⟨r, rfl, .refl _ _ _⟩
    | .ok (some stop) => exact ⟨r, rfl, rfl, .refl _ _ _⟩
  | @lookAhead negated id next f verdict haction hrun hverdict =>
    obtain ⟨dfa, hfragment⟩ := hfragments id f hrun.fragment
    unfold step
    rw [haction]
    dsimp only
    rw [Search.bind_run_ok (fragment_run hfragment)]
    exact stepped_of_found hrun (found_ahead hrealizes hrun hpos.boundary hverdict rfl hloops)
  | @lookBehind negated id next f verdicts haction hrun hverdicts =>
    obtain ⟨dfa, hfragment⟩ := hfragments id f hrun.fragment
    unfold step
    rw [haction]
    dsimp only
    rw [Search.bind_run_ok (fragment_run hfragment)]
    exact stepped_of_found hrun (found_behind hrealizes hrun hpos.boundary hverdicts rfl hloops)
  | @atomic id next f verdict haction hrun hverdict =>
    have hsensible : Window.Sensible ⟨t.window.limit, none⟩ t.text :=
      ⟨hlimit, fun _ h => by cases h⟩
    have hran := hrealizes id f _ pos _ _ hrun.nested hrun.fragment hsensible hpos.boundary
      hpos.le_limit hverdict r rfl hloops
    unfold step
    rw [haction]
    exact stepped_of_ran hrun hran
  | @possessive id min max next f result haction hrun hexhausts =>
    obtain ⟨dfa, hfragment⟩ := hfragments id f hrun.fragment
    unfold step
    rw [haction]
    dsimp only
    rw [Search.bind_run_ok (fragment_run hfragment)]
    exact stepped_of_exhausted hrun
      (exhausted_exhaust hrealizes hrun hlimit hexhausts hpos rfl hloops)

end Fragments

end Trial

end RegexEngine
