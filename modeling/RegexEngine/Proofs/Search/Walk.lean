import RegexEngine.Proofs.CharSet.Membership
import RegexEngine.Proofs.Search.Steps

/-!
# A search delivers the verdict

A search works on a stack.  From a state that yields a verdict it finds the match
of the verdict, or it comes back to what lies below on the stack, with the
registers as they have to be.

* `Variant` is an automaton of which some captures run on deterministic automata.
* `Delivers` is what a search does with the work on top of a stack.
* `deliversAll` is the induction over the bound of a verdict.
-/

namespace RegexEngine

/-! ## Variants -/

/-- Running a deterministic automaton over the body of a capture gives the same
verdict as trying the ways through the body. -/
def CaptureReplaced (t : Setting) (dfa : Dfa) (body close : Nat) : Prop :=
  ∀ n its pos slots v (closes : Nat → Verdict), t.Allows pos →
    t.automaton.Encloses its pos body close → Yields t n its body pos slots v →
    (∀ stop, t.Allows stop → pos ≤ stop → Yields t n its close stop slots (closes stop)) →
    ∃ result, dfa.runBounded t.text pos t.window.limit = .ok result ∧
      (∀ stop, result = some stop → t.Allows stop ∧ pos ≤ stop) ∧
      v = match result with
        | none => .failure
        | some stop => closes stop

/-- The automaton `b` is `a`, but some captures and fragments run on deterministic
automata. -/
structure Variant (a b : Automaton) (replaced : Dfa → Nat → Nat → Prop) : Prop where
  /-- The fragments are the same otherwise. -/
  fragments : ∀ (id : Nat) (f : Automaton.Fragment), a.fragments[id]? = some f →
    ∃ dfa, b.fragments[id]? = some { f with dfa } ∧
      ∀ id', dfa = some id' → ∃ d, b.dfas[id']? = some d ∧ replaced d f.start f.accept
  /-- The states are the same otherwise. -/
  states : ∀ (id : Nat) (s : Automaton.State), a.states[id]? = some s → b.states[id]? = some s ∨
    ∃ slot body close id' dfa, s.action = .capture slot body close none ∧
      b.states[id]? = some { s with action := .capture slot body close (some id') } ∧
      b.dfas[id']? = some dfa ∧ replaced dfa body close
  /-- There are as many slots. -/
  slotCount_eq : b.slotCount = a.slotCount
  /-- There are as many loops. -/
  loopCount_eq : b.loopCount = a.loopCount

theorem Variant.exists_fragment {a b : Automaton} {replaced : Dfa → Nat → Nat → Prop}
    (h : Variant a b replaced) (id : Nat) (f : Automaton.Fragment)
    (hf : a.fragments[id]? = some f) : ∃ dfa, b.fragments[id]? = some { f with dfa } :=
  (h.fragments id f hf).imp fun _ hdfa => hdfa.1

/-- A variant has as many fragments, and maybe more. -/
theorem Variant.fragments_le {a b : Automaton} {replaced : Dfa → Nat → Nat → Prop}
    (h : Variant a b replaced) : a.fragments.size ≤ b.fragments.size := by
  by_contra hlt
  have hlt' : b.fragments.size < a.fragments.size := Nat.lt_of_not_le hlt
  obtain ⟨dfa, hdfa, -⟩ := h.fragments _ _ (Array.getElem?_eq_getElem hlt')
  simp at hdfa

/-- A variant has as many states, and maybe more. -/
theorem Variant.states_le {a b : Automaton} {replaced : Dfa → Nat → Nat → Prop}
    (h : Variant a b replaced) : a.states.size ≤ b.states.size := by
  by_contra hlt
  have hlt' : b.states.size < a.states.size := Nat.lt_of_not_le hlt
  rcases h.states _ _ (Array.getElem?_eq_getElem hlt') with hs | ⟨_, _, _, _, _, -, hs, -⟩
  all_goals simp at hs

/-! ## Stacks -/

/-- What a search does with the work on top of a stack: it ends with the match of
the verdict, or it goes on with `rest` and has closed the iterations that it opened. -/
def Delivers (t : Setting) (r : Registers)
    (rest : Registers → Except Fault (Option Nat × Registers)) :
    Verdict → Except Fault (Option Nat × Registers) → Prop
  | .error fault, result => result = .error fault
  | .ok none, result => ∃ r', result = rest r' ∧ r.Kept t.scratch t.tracked r'
  | .ok (some (stop, slots)), result =>
    ∃ r', result = .ok (some stop, r') ∧ r'.slots = slots ∧ r.Kept t.own t.tracked r'

theorem kept_own {t : Setting} {r r' : Registers} (h : r.Kept t.scratch t.tracked r') :
    r.Kept t.own t.tracked r' :=
  h.mono (fun _ hscratch => hscratch.1) id

theorem Delivers.of_kept {t : Setting} {r r' : Registers}
    {rest : Registers → Except Fault (Option Nat × Registers)} {v : Verdict}
    {result : Except Fault (Option Nat × Registers)} (hkept : r.Kept t.scratch t.tracked r')
    (h : Delivers t r' rest v result) : Delivers t r rest v result := by
  match v, h with
  | .error fault, h => exact h
  | .ok none, ⟨r'', hresult, hkept'⟩ => exact ⟨r'', hresult, hkept.trans hkept'⟩
  | .ok (some (stop, slots)), ⟨r'', hresult, hslots, hkept'⟩ =>
    exact ⟨r'', hresult, hslots, (kept_own hkept).trans hkept'⟩

/-- If the first verdict is no match the second one is delivered by the rest. -/
theorem Delivers.orElse {t : Setting} {r : Registers}
    {rest rest' : Registers → Except Fault (Option Nat × Registers)} {v v' : Verdict}
    {result : Except Fault (Option Nat × Registers)} (h : Delivers t r rest v result)
    (hrest : ∀ r', r.Kept t.scratch t.tracked r' → Delivers t r' rest' v' (rest r')) :
    Delivers t r rest' (v.orElse v') result := by
  match v, h with
  | .error fault, h => exact h
  | .ok none, ⟨r', hresult, hkept⟩ =>
    rw [hresult]
    exact .of_kept hkept (hrest r' hkept)
  | .ok (some (stop, slots)), h => exact h

namespace Trial

variable {run : FragmentRunner} {window : Window}

/-- Goes on after a piece of work. -/
def resume (t : Trial) (run : FragmentRunner) (window : Window) (stack : List Frame) :
    Except Fault (Outcome × Registers) → Except Fault (Option Nat × Registers)
  | .error fault => .error fault
  | .ok (.found stop, r) => .ok (some stop, r)
  | .ok (.more frames, r) => t.walk run window (frames ++ stack) r

theorem walk_cons (t : Trial) (frame : Frame) (stack : List Frame) (r : Registers) :
    t.walk run window (frame :: stack) r =
      t.resume run window stack (t.handle run window frame r) := by
  rw [walk]
  split <;> simp_all [resume]

/-- Goes on where a step leads, if it leads anywhere. -/
def advance (t : Trial) (run : FragmentRunner) (window : Window) (budget : Nat) :
    Option (Nat × Nat) → Search Outcome
  | none => return .more []
  | some (next, pos) => t.chase run window budget next pos

theorem state_run {t : Trial} {id : Nat} {s : Automaton.State} {r : Registers}
    (h : t.automaton.states[id]? = some s) : t.state id r = .ok (s, r) := by
  rw [state, h]
  rfl

/-- Running a deterministic automaton that there is. -/
theorem runDfa_run {t : Trial} {id pos limit : Nat} {dfa : Dfa} {result : Option Nat}
    (hdfa : t.automaton.dfas[id]? = some dfa)
    (hresult : dfa.runBounded t.text pos limit = .ok result) (r : Registers) :
    t.runDfa id pos limit r = .ok (result, r) := by
  rw [runDfa, hdfa]
  dsimp only
  rw [Search.lift_run, hresult]
  rfl

theorem walk_step (t : Trial) {budget id pos : Nat} {stack : List Frame} {r : Registers}
    {s : Automaton.State} (hstate : t.automaton.states[id]? = some s) :
    t.walk run window (.step budget id pos :: stack) r =
      t.resume run window stack
        ((t.step run window.limit s pos >>= t.advance run window budget) r) := by
  rw [walk_cons]
  unfold handle
  dsimp only
  rw [Search.bind_run_ok (state_run hstate), Search.bind_run, Search.bind_run]
  cases t.step run window.limit s pos r with
  | error fault => rfl
  | ok p =>
    obtain ⟨next, r'⟩ := p
    cases next with
    | none => rfl
    | some next => exact walk_cons t _ stack r'

/-- Opening an iteration notes what has to be put back. -/
theorem handle_enter (t : Trial) {budget loop id pos : Nat} {start : Option Nat} {r : Registers}
    (h : r.loops[loop]? = some start) :
    t.handle run window (.enter budget loop id pos) r =
      .ok (.more [.visit budget id pos, .restoreLoop loop start],
        { r with loops := r.loops.setIfInBounds loop (some pos) }) := by
  unfold handle
  dsimp only
  rw [Search.bind_run_ok (Search.iteration_run h),
    Search.bind_run_ok (Search.setIteration_run (Array.getElem?_eq_some_iff.1 h).1 _)]
  rfl

theorem handle_restoreLoop (t : Trial) {loop : Nat} {start : Option Nat} {r : Registers}
    (h : loop < r.loops.size) :
    t.handle run window (.restoreLoop loop start) r =
      .ok (.more [], { r with loops := r.loops.setIfInBounds loop start }) := by
  unfold handle
  dsimp only
  rw [Search.bind_run_ok (Search.setIteration_run h _)]
  rfl

theorem isIdle_run {its : Iterations} {s : Automaton.State} {pos : Nat} {r : Registers}
    (hagrees : r.Agrees its)
    (h : ∀ loop, s.loopBack = some loop → ∃ start, its loop = some start ∧ start ≠ pos) :
    isIdle s pos r = .ok (false, r) := by
  unfold isIdle
  cases hback : s.loopBack with
  | none => rfl
  | some loop =>
    obtain ⟨start, hopen, hne⟩ := h loop hback
    dsimp only
    rw [Search.bind_run_ok (Search.iteration_run (hagrees loop start hopen))]
    simp [Search.pure_run, hne]

theorem isIdle_run_of_open {its : Iterations} {s : Automaton.State} {pos loop : Nat} {r : Registers}
    (hagrees : r.Agrees its) (hback : s.loopBack = some loop) (hopen : its loop = some pos) :
    isIdle s pos r = .ok (true, r) := by
  unfold isIdle
  rw [hback]
  dsimp only
  rw [Search.bind_run_ok (Search.iteration_run (hagrees loop pos hopen))]
  simp [Search.pure_run]

/-- Where no iteration is idle a state goes on by its only way, or by a choice. -/
theorem chase_run {t : Trial} {budget id pos : Nat} {s : Automaton.State} {r : Registers}
    (hstate : t.automaton.states[id]? = some s) (hidle : isIdle s pos r = .ok (false, r)) :
    t.chase run window (budget + 1) id pos r =
      match s.ways (window.mayEnd pos) with
      | [way] =>
        match way with
        | .step => (t.step run window.limit s pos >>= t.advance run window budget) r
        | .accept => .ok (.found pos, r)
        | .epsilon next _ => t.chase run window budget next pos r
      | ways => t.choice budget id pos ways r := by
  rw [chase, Search.bind_run_ok (state_run hstate), Search.bind_run_ok hidle]
  simp only [Bool.false_eq_true, if_false]
  cases s.ways (window.mayEnd pos) with
  | nil => rfl
  | cons way others =>
    cases others with
    | cons other others => rfl
    | nil =>
      cases way with
      | step =>
        dsimp only
        rw [Search.bind_run, Search.bind_run]
        rcases t.step run window.limit s pos r with _ | ⟨_ | _, _⟩ <;> rfl
      | accept => rfl
      | epsilon next loop => rfl

/-! ## Choices -/

/-- The frames of a choice deliver the first verdict of the ways. -/
theorem delivers_choiceFrames {t : Setting} {b : Automaton} {its : Iterations} {slots : Slots}
    (hguards : t.Guards its) {undo : List Frame}
    (hundo : undo = [.restoreSlots slots] ∨ undo = [] ∧ t.tracked = false)
    {ways : List Way} {frame : Way → Frame} {verdicts : Way → Verdict} {stack : List Frame}
    (hways : ∀ way ∈ ways, ∀ (r : Registers) (stack : List Frame), r.slots = slots → r.Agrees its →
      r.loops.size = t.automaton.loopCount →
      Delivers t r ((t.trial b).walk run t.window stack) (verdicts way)
        ((t.trial b).walk run t.window (frame way :: stack) r))
    {r : Registers} (hslots : r.slots = slots) (hagrees : r.Agrees its)
    (hloops : r.loops.size = t.automaton.loopCount) :
    Delivers t r ((t.trial b).walk run t.window stack) (firstOf (ways.map verdicts))
      ((t.trial b).walk run t.window (choiceFrames undo (ways.map frame) ++ stack) r) := by
  have others (ways' : List Way) (hsub : ∀ way ∈ ways', way ∈ ways) (r : Registers)
      (hsize : r.slots.size = slots.size) (hkept : t.tracked = false → r.slots = slots)
      (hagrees : r.Agrees its) (hloops : r.loops.size = t.automaton.loopCount) :
      Delivers t r ((t.trial b).walk run t.window stack) (firstOf (ways'.map verdicts))
        ((t.trial b).walk run t.window
          ((ways'.map frame).flatMap (fun frame => undo ++ [frame]) ++ stack) r) := by
    induction ways' generalizing r with
    | nil => exact ⟨r, rfl, .refl _ _ _⟩
    | cons way ways' ih =>
      have hrest (r' : Registers) (hr' : r'.slots = slots) (hagrees : r'.Agrees its)
          (hloops : r'.loops.size = t.automaton.loopCount) :
          Delivers t r' ((t.trial b).walk run t.window stack)
            (firstOf ((way :: ways').map verdicts))
            ((t.trial b).walk run t.window (frame way ::
              ((ways'.map frame).flatMap (fun frame => undo ++ [frame]) ++ stack)) r') := by
        refine (hways way (hsub way (by simp)) r' _ hr' hagrees hloops).orElse ?_
        intro r'' hkept'
        refine ih (fun way h => hsub way (by simp [h])) r'' ?_ ?_ (hagrees.kept hguards hkept') ?_
        · rw [hkept'.slots_size, hr']
        · exact fun hfalse => (hkept'.slots hfalse).trans hr'
        · rw [hkept'.loops_size, hloops]
      rcases hundo with rfl | ⟨rfl, htracked⟩
      · have hback : (t.trial b).walk run t.window
            (((way :: ways').map frame).flatMap (fun frame => [.restoreSlots slots] ++ [frame]) ++
              stack) r =
            (t.trial b).walk run t.window (frame way ::
              ((ways'.map frame).flatMap (fun frame => [.restoreSlots slots] ++ [frame]) ++ stack))
              { r with slots } := by
          simp only [List.map_cons, List.flatMap_cons, List.cons_append, List.nil_append]
          rw [walk_cons]
          rfl
        rw [hback]
        refine .of_kept ?_ (hrest { r with slots } rfl hagrees hloops)
        exact ⟨hsize.symm, rfl, fun _ _ => rfl, fun hfalse => (hkept hfalse).symm⟩
      · exact hrest r (hkept htracked) hagrees hloops
  cases ways with
  | nil => exact ⟨r, rfl, .refl _ _ _⟩
  | cons way ways =>
    refine (hways way (by simp) r _ hslots hagrees hloops).orElse ?_
    intro r' hkept
    refine others ways (fun way h => by simp [h]) r' ?_ ?_ (hagrees.kept hguards hkept) ?_
    · rw [hkept.slots_size, hslots]
    · exact fun hfalse => (hkept.slots hfalse).trans hslots
    · rw [hkept.loops_size, hloops]

end Trial

/-! ## Texts -/

section Texts

variable {t : Setting} {n : Nat} {its : Iterations} {pos : Nat} {slots : Slots} {v : Verdict}

theorem test_ofChar_eq (c : Char) : (CharSet.ofChar c).test = fun d => d == c := by
  funext d
  rw [CharSet.test_ofChar]
  rfl

/-- A step by a transition for one character. -/
theorem Steps.of_char {s : Automaton.State} {c : Char} {mid : Nat} {landing : Landing}
    (haction : s.action.isPlain) (htransition : s.transition = some ⟨.oneOf (.ofChar c), mid⟩)
    (h : Steps t s pos slots landing) :
    landing = .ok ((t.spelled [fun d => d == c] pos).map (mid, ·, slots)) := by
  cases h with
  | char _ htransition' =>
    cases htransition.symm.trans htransition'
    rw [test_ofChar_eq]
  | look _ htransition' => cases htransition.symm.trans htransition'
  | capture haction' => simp [haction', Action.isPlain] at haction
  | captureClose haction' => simp [haction', Action.isPlain] at haction
  | reference haction' => simp [haction', Action.isPlain] at haction
  | lookAhead haction' => simp [haction', Action.isPlain] at haction
  | lookBehind haction' => simp [haction', Action.isPlain] at haction
  | atomic haction' => simp [haction', Action.isPlain] at haction
  | possessive haction' => simp [haction', Action.isPlain] at haction

/-- What is yielded by a state that only reads one character. -/
theorem Yields.of_char {id mid : Nat} {c : Char}
    (hstate : t.automaton.states[id]? = some { transition := some ⟨.oneOf (.ofChar c), mid⟩ })
    (h : Yields t n its id pos slots v) :
    match t.spelled [fun d => d == c] pos with
    | some stop => Yields t n its mid stop slots v
    | none => v = .failure := by
  cases h with
  | idle hstate' hback =>
    obtain rfl := Option.some.inj (hstate.symm.trans hstate')
    cases hback
  | @ways n _ _ s _ _ landing verdicts closes _ _ hstate' _ _ hstep hstuck _ hland =>
    obtain rfl := Option.some.inj (hstate.symm.trans hstate')
    have hways : Automaton.State.ways { transition := some ⟨.oneOf (.ofChar c), mid⟩ }
        (t.window.mayEnd pos) = [.step] := by
      simp [Automaton.State.ways, Automaton.State.epsilonWays]
    rw [hways] at hstep hland ⊢
    have hlanding := (hstep (by simp)).of_char rfl rfl
    simp only [List.map_cons, List.map_nil, firstOf_cons, firstOf_nil, Verdict.orElse_failure]
    cases hspelled : t.spelled [fun d => d == c] pos with
    | none => exact hstuck (by rw [hlanding, hspelled]; rfl)
    | some stop =>
      exact (hland mid stop slots (by simp) (by rw [hlanding, hspelled]; rfl)).mono (Nat.le_succ _)

/-- A chain yields what is yielded behind its text, if the subject goes on with it. -/
theorem Yields.of_chain {chars : List Char} {id next : Nat}
    (hchain : t.automaton.Chain chars id next) (h : Yields t n its id pos slots v) :
    match t.spelled (chars.map fun expected c => c == expected) pos with
    | some stop => Yields t n its next stop slots v
    | none => v = .failure := by
  induction chars generalizing id pos with
  | nil =>
    obtain rfl : id = next := hchain
    exact h
  | cons c chars ih =>
    obtain ⟨mid, hstate, hrest⟩ := hchain
    have hchar := h.of_char hstate
    rw [List.map_cons, Setting.spelled_cons_eq_bind]
    cases hspelled : t.spelled [fun d => d == c] pos with
    | none =>
      rw [hspelled] at hchar
      exact hchar
    | some stop =>
      rw [hspelled] at hchar
      exact ih hrest hchar

end Texts

/-! ## The whole walk -/

section Chase

variable {t : Setting} {b : Automaton} {run : FragmentRunner} {its : Iterations} {r : Registers}

/-- From a state that yields a verdict a search delivers it. -/
def DeliversAll (t : Setting) (b : Automaton) (run : FragmentRunner) (n : Nat) : Prop :=
  ∀ its id pos slots v, Yields t n its id pos slots v → t.Guards its → ∀ budget, n ≤ budget →
    ∀ (r : Registers) (stack : List Frame), r.slots = slots → r.Agrees its →
      r.loops.size = t.automaton.loopCount →
      Delivers t r ((t.trial b).walk run t.window stack) v
        ((t.trial b).resume run t.window stack ((t.trial b).chase run t.window budget id pos r))

/-- After a step the search delivers what is yielded where the step leads. -/
theorem delivers_of_stepped {n budget : Nat} (ih : DeliversAll t b run n) (hle : n ≤ budget)
    (hguards : t.Guards its) {step : Search (Option (Nat × Nat))} {landing : Landing} {v : Verdict}
    {stack : List Frame} (hstepped : Trial.Stepped t r landing (step r)) (hagrees : r.Agrees its)
    (hloops : r.loops.size = t.automaton.loopCount)
    (hstuck : landing = .ok none → v = .failure)
    (hfault : ∀ fault, landing = .error fault → v = .error fault)
    (hland : ∀ next pos slots, landing = .ok (some (next, pos, slots)) →
      Yields t n its next pos slots v) :
    Delivers t r ((t.trial b).walk run t.window stack) v
      ((t.trial b).resume run t.window stack
        ((step >>= (t.trial b).advance run t.window budget) r)) := by
  match landing, hstepped with
  | .error fault, hstepped =>
    rw [hfault fault rfl, Search.bind_run_error hstepped]
    rfl
  | .ok none, ⟨r', hresult, hkept⟩ =>
    rw [hstuck rfl, Search.bind_run_ok hresult]
    exact ⟨r', rfl, hkept⟩
  | .ok (some (next, pos, slots)), ⟨r', hresult, hslots, hkept⟩ =>
    rw [Search.bind_run_ok hresult]
    refine .of_kept hkept (ih its next pos slots v (hland _ _ _ rfl) hguards budget hle r' stack
      hslots (hagrees.kept hguards hkept) ?_)
    rw [hkept.loops_size, hloops]

/-- An iteration that is opened for a way is closed after it. -/
theorem delivers_enter {n budget loop next pos : Nat} {v : Verdict} {stack : List Frame}
    (ih : DeliversAll t b run n) (hle : n ≤ budget) (hguards : t.Guards its)
    (hguarded : t.guarded loop) (hlt : loop < t.automaton.loopCount)
    (hyields : Yields t n (its.set loop (some pos)) next pos r.slots v) (hagrees : r.Agrees its)
    (hloops : r.loops.size = t.automaton.loopCount) :
    Delivers t r ((t.trial b).walk run t.window stack) v
      ((t.trial b).walk run t.window (.enter budget loop next pos :: stack) r) := by
  have hsize : loop < r.loops.size := by omega
  have hget := Array.getElem?_eq_getElem hsize
  have hwalk : (t.trial b).walk run t.window (.enter budget loop next pos :: stack) r =
      (t.trial b).resume run t.window (.restoreLoop loop r.loops[loop] :: stack)
        ((t.trial b).chase run t.window budget next pos
          { r with loops := r.loops.setIfInBounds loop (some pos) }) := by
    rw [Trial.walk_cons, Trial.handle_enter _ hget]
    exact Trial.walk_cons _ _ _ _
  rw [hwalk]
  have hdelivers := ih _ next pos _ v hyields (hguards.set hguarded _) budget hle
    { r with loops := r.loops.setIfInBounds loop (some pos) }
    (.restoreLoop loop r.loops[loop] :: stack) rfl (hagrees.set hsize) (by simpa using hloops)
  match v, hdelivers with
  | .error fault, hdelivers => exact hdelivers
  | .ok none, ⟨r', hresult, hkept⟩ =>
    -- The record of the loop itself is put back; the others were never touched.
    have hsize' : loop < r'.loops.size := by
      rw [hkept.loops_size]
      simpa using hsize
    refine ⟨{ r' with loops := r'.loops.setIfInBounds loop r.loops[loop] }, ?_,
      hkept.putBackLoop hget⟩
    rw [hresult, Trial.walk_cons, Trial.handle_restoreLoop _ hsize']
    rfl
  | .ok (some (stop, slots)), ⟨r', hresult, hslots, hkept⟩ =>
    have hopen : r.Kept t.own t.tracked { r with loops := r.loops.setIfInBounds loop (some pos) } :=
      .setLoop hguarded.1
    exact ⟨r', hresult, hslots, hopen.trans hkept⟩

/-- Consuming a text at once leads to where its chain of characters leads. -/
theorem delivers_text {n budget : Nat} (ih : DeliversAll t b run n) (hle : n ≤ budget)
    (hguards : t.Guards its) (hlimit : t.text.isBoundary t.window.limit) {s : Automaton.State}
    {chars : List Char} {next pos : Nat} {landing : Landing} {v : Verdict} {stack : List Frame}
    (hallows : t.Allows pos)
    (htext : t.automaton.ReadsText s chars next) (hsteps : Steps t s pos r.slots landing)
    (hstuck : landing = .ok none → v = .failure)
    (hland : ∀ next pos slots, landing = .ok (some (next, pos, slots)) →
      Yields t n its next pos slots v) (hagrees : r.Agrees its)
    (hloops : r.loops.size = t.automaton.loopCount) :
    Delivers t r ((t.trial b).walk run t.window stack) v
      ((t.trial b).resume run t.window stack
        (((t.trial b).step run t.window.limit s pos >>= (t.trial b).advance run t.window budget)
          r)) := by
  obtain ⟨c, rest, mid, rfl, hchain, rfl⟩ := htext
  have hlanding := hsteps.of_char rfl rfl
  have hspell : match t.spelled ((c :: rest).map fun expected c => c == expected) pos with
      | some stop => Yields t n its next stop r.slots v
      | none => v = .failure := by
    rw [List.map_cons, Setting.spelled_cons_eq_bind]
    cases hspelled : t.spelled [fun d => d == c] pos with
    | none => exact hstuck (by rw [hlanding, hspelled]; rfl)
    | some stop => exact (hland mid stop r.slots (by rw [hlanding, hspelled]; rfl)).of_chain hchain
  have hstepped : Trial.Stepped t r
      (.ok ((t.spelled ((c :: rest).map fun expected c => c == expected) pos).map
        (next, ·, r.slots)))
      ((t.trial b).step run t.window.limit
        { action := .text (c :: rest) next, transition := some ⟨.oneOf (.ofChar c), mid⟩ }
        pos r) := by
    unfold Trial.step
    dsimp only
    rw [Search.bind_run_ok (Setting.literal_run hlimit hallows)]
    cases t.spelled ((c :: rest).map fun expected c => c == expected) pos with
    | none => exact ⟨r, rfl, .refl _ _ _⟩
    | some stop => exact ⟨r, rfl, rfl, .refl _ _ _⟩
  generalize t.spelled ((c :: rest).map fun expected c => c == expected) pos = spelled
    at hspell hstepped
  refine delivers_of_stepped ih hle hguards hstepped hagrees hloops (fun h => ?_)
    (fun fault h => by cases h) fun next' pos' slots' h => ?_
  · cases spelled with
    | none => exact hspell
    | some stop => cases h
  · cases spelled with
    | none => cases h
    | some stop =>
      cases h
      exact hspell

/-- A deterministic automaton over the body of a capture leads to where the body
leads. -/
theorem delivers_capture {n budget : Nat} (ih : DeliversAll t b run n) (hle : n ≤ budget)
    (hguards : t.Guards its)
    {slot body close id' pos : Nat} {dfa : Dfa} {s : Automaton.State} {closes : Nat → Verdict}
    {v : Verdict} {stack : List Frame} (hallows : t.Allows pos)
    (haction : s.action = .capture slot body close (some id')) (hdfa : b.dfas[id']? = some dfa)
    (hreplaced : CaptureReplaced t dfa body close) (hslot : slot < r.slots.size)
    (htracked : t.tracked) (hencloses : t.automaton.Encloses its pos body close)
    (hbody : Yields t n its body pos (Slots.opened r.slots slot pos) v)
    (hclose : ∀ stop, t.Allows stop → pos ≤ stop →
      Yields t n its close stop (Slots.opened r.slots slot pos) (closes stop))
    (hagrees : r.Agrees its) (hloops : r.loops.size = t.automaton.loopCount) :
    Delivers t r ((t.trial b).walk run t.window stack) v
      ((t.trial b).resume run t.window stack
        (((t.trial b).step run t.window.limit s pos >>= (t.trial b).advance run t.window budget)
          r)) := by
  obtain ⟨result, hresult, hstop, hv⟩ :=
    hreplaced n its pos _ v closes hallows hencloses hbody hclose
  have hkept : r.Kept t.scratch t.tracked { r with slots := Slots.opened r.slots slot pos } :=
    .setSlots (by simp [Slots.opened]) htracked
  have hstepped : Trial.Stepped t r
      (.ok (result.map (close, ·, Slots.opened r.slots slot pos)))
      ((t.trial b).step run t.window.limit s pos r) := by
    have hrun : (t.trial b).runDfa id' pos t.window.limit
        { r with slots := Slots.opened r.slots slot pos } =
        .ok (result, { r with slots := Slots.opened r.slots slot pos }) :=
      Trial.runDfa_run hdfa hresult _
    unfold Trial.step
    rw [haction]
    dsimp only
    rw [Search.bind_run_ok (Search.setSlot_run hslot _)]
    refine Eq.mpr (congrArg _ (Search.bind_run_ok hrun)) ?_
    cases result with
    | none => exact ⟨_, rfl, hkept⟩
    | some stop => exact ⟨_, rfl, rfl, hkept⟩
  refine delivers_of_stepped ih hle hguards hstepped hagrees hloops (fun h => ?_)
    (fun fault h => ?_)
    fun next' pos' slots' h => ?_
  · cases result with
    | none => exact hv
    | some stop => cases h
  · cases h
  · cases result with
    | none => cases h
    | some stop =>
      cases h
      obtain ⟨hallows', hle'⟩ := hstop _ rfl
      exact hv ▸ hclose _ hallows' hle'

/-- The state of a variant does the same, but for the body of a capture. -/
def Variant.Matches (b : Automaton) (replaced : Dfa → Nat → Nat → Prop) (s s' : Automaton.State) :
    Prop :=
  s' = s ∨ ∃ slot body close id' dfa, s.action = .capture slot body close none ∧
    s' = { s with action := .capture slot body close (some id') } ∧
    b.dfas[id']? = some dfa ∧ replaced dfa body close

theorem Variant.exists_matches {a : Automaton} {replaced : Dfa → Nat → Nat → Prop}
    (h : Variant a b replaced) {id : Nat} {s : Automaton.State} (hstate : a.states[id]? = some s) :
    ∃ s', b.states[id]? = some s' ∧ Matches b replaced s s' := by
  rcases h.states id s hstate with hsame | ⟨slot, body, close, id', dfa, haction, hs', hdfa, hrep⟩
  · exact ⟨s, hsame, .inl rfl⟩
  · exact ⟨_, hs', .inr ⟨slot, body, close, id', dfa, haction, rfl, hdfa, hrep⟩⟩

theorem Variant.Matches.ways_eq {replaced : Dfa → Nat → Nat → Prop} {s s' : Automaton.State}
    (h : Matches b replaced s s') (mayEnd : Bool) : s'.ways mayEnd = s.ways mayEnd := by
  rcases h with rfl | ⟨slot, body, close, id', dfa, haction, rfl, -, -⟩
  · rfl
  · simp [Automaton.State.ways, Automaton.State.epsilonWays, haction]

theorem Variant.Matches.loopBack_eq {replaced : Dfa → Nat → Nat → Prop} {s s' : Automaton.State}
    (h : Matches b replaced s s') : s'.loopBack = s.loopBack := by
  rcases h with rfl | ⟨slot, body, close, id', dfa, haction, rfl, -, -⟩ <;> rfl

theorem Registers.Agrees.passing (h : r.Agrees its) (s : Automaton.State) :
    r.Agrees (its.passing s) :=
  fun loop start hopen => h loop start (Iterations.of_passing hopen)

theorem Setting.Guards.passing (h : t.Guards its) (s : Automaton.State) :
    t.Guards (its.passing s) :=
  fun loop start hopen => h loop start (Iterations.of_passing hopen)

variable {replaced : Dfa → Nat → Nat → Prop}

/-- What the search relies on: the fragments give their verdicts, the captures that run
on deterministic automata give theirs, and slots are kept where there are groups. -/
structure Sound (t : Setting) (b : Automaton) (replaced : Dfa → Nat → Nat → Prop)
    (run : FragmentRunner) : Prop where
  /-- The automaton that is followed is a variant. -/
  isVariant : Variant t.automaton b replaced
  /-- Captures give their verdicts. -/
  captures : ∀ dfa body close, replaced dfa body close → CaptureReplaced t dfa body close
  /-- Fragments give their verdicts. -/
  fragments : Realizes t run t.nested
  /-- The limit is a boundary. -/
  limit : t.text.isBoundary t.window.limit
  /-- Slots are put back if there are groups. -/
  tracked : t.tracked → 1 < t.automaton.slotCount

/-- The action or the transition of a state delivers its verdict. -/
theorem delivers_step {n budget : Nat} (ih : DeliversAll t b run n) (hle : n ≤ budget)
    (hsound : Sound t b replaced run) (hguards : t.Guards its) {s s' : Automaton.State}
    (hmatches : Variant.Matches b replaced s s') {pos : Nat} {landing : Landing} {v : Verdict}
    {closes : Nat → Verdict} {stack : List Frame} (hallows : t.Allows pos)
    (hsteps : Steps t s pos r.slots landing) (hstuck : landing = .ok none → v = .failure)
    (hfault : ∀ fault, landing = .error fault → v = .error fault)
    (hland : ∀ next pos slots, landing = .ok (some (next, pos, slots)) →
      Yields t n its next pos slots v)
    (htext : ∀ chars next, s.action = .text chars next → t.automaton.ReadsText s chars next)
    (hcapture : ∀ slot body close, s.action = .capture slot body close none →
      t.automaton.Encloses its pos body close)
    (hclose : ∀ slot body close, s.action = .capture slot body close none →
      ∀ stop, t.Allows stop → pos ≤ stop →
        Yields t n its close stop (Slots.opened r.slots slot pos) (closes stop))
    (hagrees : r.Agrees its) (hloops : r.loops.size = t.automaton.loopCount) :
    Delivers t r ((t.trial b).walk run t.window stack) v
      ((t.trial b).resume run t.window stack
        (((t.trial b).step run t.window.limit s' pos >>= (t.trial b).advance run t.window budget)
          r)) := by
  rcases hmatches with rfl | ⟨slot, body, close, id', dfa, haction, rfl, hdfa, hrep⟩
  · by_cases hreads : ∃ chars next, s'.action = .text chars next
    · obtain ⟨chars, next, haction⟩ := hreads
      exact delivers_text ih hle hguards hsound.limit hallows (htext chars next haction) hsteps
        hstuck hland hagrees hloops
    · have hno : ∀ chars next, s'.action ≠ .text chars next :=
        fun chars next h => hreads ⟨chars, next, h⟩
      exact delivers_of_stepped ih hle hguards
        (Trial.stepped_of_steps hsound.isVariant.exists_fragment hsound.fragments
          hsound.limit hloops hsteps hno hallows)
        hagrees hloops hstuck hfault hland
  · cases hsteps with
    | @capture slot' body' close' haction' hslot htracked =>
      cases haction.symm.trans haction'
      exact delivers_capture ih hle hguards hallows rfl hdfa (hsound.captures _ _ _ hrep) hslot
        htracked (hcapture _ _ _ haction) (hland _ _ _ rfl) (hclose _ _ _ haction) hagrees hloops
    | char hplain => simp [haction, Action.isPlain] at hplain
    | look hplain => simp [haction, Action.isPlain] at hplain
    | captureClose haction' => cases haction.symm.trans haction'
    | reference haction' => cases haction.symm.trans haction'
    | lookAhead haction' => cases haction.symm.trans haction'
    | lookBehind haction' => cases haction.symm.trans haction'
    | atomic haction' => cases haction.symm.trans haction'
    | possessive haction' => cases haction.symm.trans haction'

/-- The only way out of a state starts no iteration, since the head of a loop has two. -/
theorem not_enter_of_single {s : Automaton.State} {mayEnd : Bool} {next loop : Nat}
    (h : s.ways mayEnd = [.epsilon next (some loop)]) : s.epsilons.length ≤ 1 := by
  have hlength : s.epsilonWays.length = s.epsilons.length := List.length_map _
  have hle : s.epsilonWays.length ≤ (s.ways mayEnd).length := by
    unfold Automaton.State.ways
    cases s.lazy with
    | true => simp
    | false =>
      simp
      omega
  rw [h, hlength] at hle
  exact hle

/-- Slots are put back before the next way is tried, unless there are none to put back. -/
theorem delivers_choice (hsound : Sound t b replaced run) (hguards : t.Guards its) {ways : List Way}
    {verdicts : Way → Verdict} {budget id pos : Nat} {slots : Slots} (stack : List Frame)
    (hframes : ∀ way ∈ ways, ∀ (r : Registers) (stack : List Frame),
      r.slots = slots → r.Agrees its → r.loops.size = t.automaton.loopCount →
        Delivers t r ((t.trial b).walk run t.window stack) (verdicts way)
          ((t.trial b).walk run t.window (way.frame budget id pos :: stack) r))
    (hslots : r.slots = slots) (hagrees : r.Agrees its)
    (hloops : r.loops.size = t.automaton.loopCount) :
    Delivers t r ((t.trial b).walk run t.window stack) (firstOf (ways.map verdicts))
      ((t.trial b).resume run t.window stack ((t.trial b).choice budget id pos ways r)) := by
  have hundo : (if 1 < b.slotCount then [Frame.restoreSlots r.slots] else []) =
        [.restoreSlots slots] ∨
      (if 1 < b.slotCount then [Frame.restoreSlots r.slots] else []) = [] ∧ t.tracked = false := by
    rw [hsound.isVariant.slotCount_eq, hslots]
    by_cases hcount : 1 < t.automaton.slotCount
    · exact .inl (if_pos hcount)
    · refine .inr ⟨if_neg hcount, ?_⟩
      cases htracked : t.tracked with
      | false => rfl
      | true => exact absurd (hsound.tracked htracked) hcount
  unfold Trial.choice
  rw [Search.bind_run_ok Search.get_run]
  exact Trial.delivers_choiceFrames hguards hundo hframes hslots hagrees hloops

/-- From a state that yields a verdict a search delivers it. -/
theorem deliversAll (hsound : Sound t b replaced run) (n : Nat) : DeliversAll t b run n := by
  induction n with
  | zero => intro its id pos slots v h; cases h
  | succ n ih =>
    intro its id pos slots v h hguards budget hbudget r stack hslots hagrees hloops
    obtain ⟨budget, rfl⟩ : ∃ k, budget = k + 1 := ⟨budget - 1, by omega⟩
    have hle : n ≤ budget := Nat.le_of_succ_le_succ hbudget
    cases h with
    | @idle _ _ _ s loop _ _ hstate hback hopen =>
      obtain ⟨s', hstate', hmatches⟩ := hsound.isVariant.exists_matches hstate
      have hidle := Trial.isIdle_run_of_open hagrees (hmatches.loopBack_eq.trans hback) hopen
      unfold Trial.chase
      rw [Search.bind_run_ok (Trial.state_run hstate'), Search.bind_run_ok hidle]
      exact ⟨r, rfl, .refl _ _ _⟩
    | @ways _ _ _ s _ _ landing verdicts closes hinside hallows hstate hback haccept hstep hstuck
        hfault hland htext hcapture hclose hepsilon henter hiteration =>
      obtain ⟨s', hstate', hmatches⟩ := hsound.isVariant.exists_matches hstate
      have hidle : Trial.isIdle s' pos r = .ok (false, r) :=
        Trial.isIdle_run hagrees fun loop h => hback loop (hmatches.loopBack_eq.symm.trans h)
      have hguards' := hguards.passing s
      -- Each way delivers its verdict, at once or later as a frame.
      have hsteps {r : Registers} {stack : List Frame} (hslots : r.slots = slots)
          (hagrees : r.Agrees (its.passing s)) (hloops : r.loops.size = t.automaton.loopCount)
          (hmem : .step ∈ s.ways (t.window.mayEnd pos)) :
          Delivers t r ((t.trial b).walk run t.window stack) (verdicts .step)
            ((t.trial b).resume run t.window stack
              (((t.trial b).step run t.window.limit s' pos >>=
                (t.trial b).advance run t.window budget) r)) :=
        delivers_step ih hle hsound hguards' hmatches hallows (hslots ▸ hstep hmem) hstuck hfault
          (fun next pos' slots' => hland next pos' slots' hmem) htext hcapture (hslots ▸ hclose)
          hagrees hloops
      rw [Trial.chase_run hstate' hidle, hmatches.ways_eq]
      have hframes : ∀ way ∈ s.ways (t.window.mayEnd pos), ∀ (r : Registers) (stack : List Frame),
          r.slots = slots → r.Agrees (its.passing s) → r.loops.size = t.automaton.loopCount →
          Delivers t r ((t.trial b).walk run t.window stack) (verdicts way)
            ((t.trial b).walk run t.window (way.frame budget id pos :: stack) r) := by
        intro way hmem r stack hslots hagrees hloops
        cases way with
        | step =>
          unfold Way.frame
          rw [Trial.walk_step _ hstate']
          exact hsteps hslots hagrees hloops hmem
        | accept =>
          unfold Way.frame
          rw [Trial.walk_cons, haccept]
          exact ⟨r, rfl, hslots, .refl _ _ _⟩
        | epsilon next loop =>
          cases loop with
          | none =>
            unfold Way.frame
            rw [Trial.walk_cons]
            exact ih _ next pos slots _ (hepsilon next hmem) hguards' budget hle r stack hslots
              hagrees hloops
          | some loop =>
            obtain ⟨hguarded, hlt, -, -⟩ := henter next loop hmem
            exact delivers_enter ih hle hguards' hguarded hlt
              (hslots ▸ hiteration next loop hmem) hagrees hloops
      have hagrees' := hagrees.passing s
      have hchoice := delivers_choice hsound hguards' stack hframes hslots hagrees' hloops
      match hways : s.ways (t.window.mayEnd pos) with
      | [] => rwa [hways] at hchoice
      | [.step] =>
        simp only [List.map_cons, List.map_nil, firstOf_cons, firstOf_nil, Verdict.orElse_failure]
        exact hsteps hslots hagrees' hloops (by simp [hways])
      | [.accept] =>
        simp only [List.map_cons, List.map_nil, firstOf_cons, firstOf_nil, Verdict.orElse_failure,
          haccept]
        exact ⟨r, rfl, hslots, .refl _ _ _⟩
      | [.epsilon next none] =>
        simp only [List.map_cons, List.map_nil, firstOf_cons, firstOf_nil, Verdict.orElse_failure]
        exact ih _ next pos slots _ (hepsilon next (by simp [hways])) hguards' budget hle r stack
          hslots hagrees' hloops
      | [.epsilon next (some loop)] =>
        have hmany := (henter next loop (by simp [hways])).2.2.2
        exact absurd (not_enter_of_single hways) (by omega)
      | _ :: _ :: _ => rwa [hways] at hchoice

end Chase

end RegexEngine
