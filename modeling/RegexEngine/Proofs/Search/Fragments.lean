import RegexEngine.Proofs.Search.Walk

/-!
# Runs of fragments

A fragment runs on a stack of its own, and other fragments may be nested in it.
`Grounded` says that the verdicts of a setting are what the fragments yield; then
they are what running the fragments gives, by induction on the depth.
-/

namespace RegexEngine

/-- Running a deterministic automaton gives the verdicts of a fragment. -/
def FragmentReplaced (t : Setting) (dfa : Dfa) (id : Nat) : Prop :=
  ∀ (window : Window) pos slots v, window.Sensible t.text → t.text.isBoundary pos →
    pos ≤ window.limit → t.verdicts window id pos slots v →
    ∃ result, dfa.runBounded t.text pos window.limit = .ok result ∧
      v = match result.filter window.mayEnd with
        | none => .failure
        | some stop => .success stop slots

/-- The verdicts of a setting are what the fragments yield. -/
structure Grounded (t : Setting) (b : Automaton) (replaced : Dfa → Nat → Nat → Prop) : Prop where
  /-- The automaton that is followed is a variant. -/
  isVariant : Variant t.automaton b replaced
  /-- A fragment yields its verdicts. -/
  yields : ∀ (id : Nat) (f : Automaton.Fragment) (window : Window) pos slots v,
    t.automaton.fragments[id]? = some f → window.Sensible t.text → t.text.isBoundary pos →
      pos ≤ window.limit → t.verdicts window id pos slots v →
      Yields (t.inner id f window) (t.trial b).budget .none f.start pos slots v
  /-- A fragment with groups needs slots. -/
  tracked : ∀ (id : Nat) (f : Automaton.Fragment), t.automaton.fragments[id]? = some f →
    f.captures → 1 < t.automaton.slotCount
  /-- Captures in a fragment give their verdicts. -/
  captures : ∀ (id : Nat) (f : Automaton.Fragment) (window : Window) dfa body close,
    t.automaton.fragments[id]? = some f → window.Sensible t.text → replaced dfa body close →
      CaptureReplaced (t.inner id f window) dfa body close
  /-- Fragments give their verdicts. -/
  fragments : ∀ (id : Nat) (f : Automaton.Fragment) dfa, t.automaton.fragments[id]? = some f →
    replaced dfa f.start f.accept → FragmentReplaced t dfa id

section

variable {t : Setting} {b : Automaton} {replaced : Dfa → Nat → Nat → Prop} {r : Registers}

/-- A search from a state gives what the state yields. -/
theorem ran_search {run : FragmentRunner} (hsound : Sound t b replaced run) {state pos : Nat}
    {slots : Slots} {v : Verdict}
    (hyields : Yields t (t.trial b).budget .none state pos slots v) (hslots : r.slots = slots)
    (hloops : r.loops.size = t.automaton.loopCount) :
    Ran t.own t.tracked r v ((t.trial b).search run t.window state pos r) := by
  have hdelivers := deliversAll hsound _ .none state pos slots v hyields (fun _ _ h => by cases h)
    _ (Nat.le_refl _) r [] hslots (fun _ _ h => by cases h) hloops
  have hsearch : (t.trial b).search run t.window state pos r =
      (t.trial b).resume run t.window []
        ((t.trial b).chase run t.window (t.trial b).budget state pos r) :=
    Trial.walk_cons _ _ _ _
  rw [hsearch]
  match v, hdelivers with
  | .error fault, hdelivers => exact hdelivers
  | .ok none, ⟨r', hresult, hkept⟩ =>
    refine ⟨r', ?_, kept_own hkept⟩
    rw [hresult, Trial.walk]
  | .ok (some (stop, slots)), hdelivers => exact hdelivers

theorem Realizes.mono {run : FragmentRunner} {bound bound' : Nat} (h : Realizes t run bound)
    (hle : bound' ≤ bound) : Realizes t run bound' :=
  fun id f window pos slots v hlt => h id f window pos slots v (by omega)

/-- Running the deterministic automaton of a fragment gives its verdict. -/
theorem ran_dfa {own : Nat → Prop} {captures : Bool} {window : Window} {dfa : Dfa}
    {pos id' : Nat} {v : Verdict} {result : Option Nat} (hdfa : b.dfas[id']? = some dfa)
    (hresult : dfa.runBounded t.text pos window.limit = .ok result)
    (hv : v = match result.filter window.mayEnd with
      | none => .failure
      | some stop => .success stop r.slots) :
    Ran own captures r v
      ((do return (← (t.trial b).runDfa id' pos window.limit).filter window.mayEnd : Search _)
          r) := by
  rw [Search.bind_run_ok (Trial.runDfa_run hdfa hresult r), hv]
  cases hfilter : result.filter window.mayEnd with
  | none => exact ⟨r, by rw [Search.pure_run], .refl _ _ _⟩
  | some stop => exact ⟨r, by rw [Search.pure_run], rfl, .refl _ _ _⟩

/-- Running fragments up to a depth gives the verdicts of the fragments below it. -/
theorem realizes_runFragment (h : Grounded t b replaced) (depth : Nat) :
    Realizes t ((t.trial b).runFragment depth) depth := by
  induction depth with
  | zero => intro id f window pos slots v hlt; omega
  | succ depth ih =>
    intro id f window pos slots v hlt hf hwindow hpos hle hverdict r hslots hloops
    obtain ⟨dfa, hfragment, hdfa⟩ := h.isVariant.fragments id f hf
    unfold Trial.runFragment
    rw [Search.bind_run_ok (Trial.fragment_run hfragment)]
    cases dfa with
    | none =>
      have hsound : Sound (t.inner id f window) b replaced ((t.trial b).runFragment depth) :=
        { isVariant := h.isVariant
          captures := fun dfa body close => h.captures id f window dfa body close hf hwindow
          fragments := ih.mono (Nat.le_of_lt_succ hlt)
          limit := hwindow.limit
          tracked := h.tracked id f hf }
      exact ran_search hsound (h.yields id f window pos slots v hf hwindow hpos hle hverdict)
        hslots hloops
    | some id' =>
      obtain ⟨d, hd, hreplaced⟩ := hdfa id' rfl
      obtain ⟨result, hresult, hv⟩ :=
        h.fragments id f d hf hreplaced window pos slots v hwindow hpos hle hverdict
      subst hslots
      exact ran_dfa hd hresult hv

end

end RegexEngine
