import RegexEngine.Proofs.Promotion.Variant

/-!
# Promotion changes no match

A search in an automaton some of whose regions run on deterministic automata gives what a
search in the automaton itself gives.

* `Pattern.grounded_promoted` says that deterministic automata give the verdicts of their
  regions.
-/

namespace RegexEngine

open Automaton

namespace Pattern

variable {o : Options} {p : Pattern} {a b : Automaton} {c : Chart} {ranges : Nat → Nat × Nat}
  {keys : List GroupKey} {text : Subject}

theorem decided_whole (h : p.LiesIn o a ranges keys) (text : Subject) :
    (a.whole ranges keys text).Decided :=
  (grounded_whole h text).decided (Subject.isBoundary_size text)

/-- A search in the automaton of a pattern gives the first ending of the pattern. -/
theorem ofResult_run (h : p.LiesIn o a ranges keys) {pos : Nat} (hpos : text.isBoundary pos) :
    Verdict.ofResult (a.run text a.entry pos (.fresh a)) =
      Ending.judge ((Window.mk text.size none).verdict keys)
        (p.meaning text o 0 text.size pos .fresh) := by
  rw [h.entry]
  exact (ran_variant h (grounded_whole h text) (fun _ _ _ h => h.elim) hpos
    (fresh_slots h.length_keys) (by simp [Registers.fresh])).eq_ofResult.symm

/-- The body of a fragment is a part, and a match ends behind it. -/
theorem exists_territory {id pos : Nat} {f : Fragment} {window : Window} {slots : Slots}
    {v : Verdict}
    (hf : a.fragments[id]? = some f) (hv : a.verdicts ranges keys text window id pos slots v) :
    (∃ inside lo, a.Territory inside (· = f.accept) lo ∧ (inside f.start ∨ f.start = f.accept)) ∧
      a.states[f.accept]? = some { accepting := true } := by
  obtain ⟨site, o, base, p, f', lo, hi, groups, ⟨rfl, -, -⟩, hisolated, -, -, -⟩ := hv
  obtain rfl : f' = f := Option.some.inj (hisolated.fragment.symm.trans hf)
  obtain ⟨rank, -, hbody⟩ := hisolated.body
  obtain ⟨inside, hterritory, hfirst⟩ := bordered_layout o base p _ _ _ _ _ _ hbody
  exact ⟨⟨inside, lo, hterritory, hfirst⟩, hisolated.accept⟩

/-- Deterministic automata that stand for their regions give the verdicts of these regions. -/
theorem grounded_promoted (h : p.LiesIn o a ranges keys) (hc : a.HasChart c)
    (hb : Variant a b (a.Replaces c)) (text : Subject) :
    Grounded (a.whole ranges keys text) b (a.Replaces c) where
  isVariant := hb
  yields id f window pos slots v hf hwindow hpos hle hv := by
    refine (yields_fragment h.keyed hf hwindow.limit hpos hle hv).mono ?_
    rw [Nat.add_comm 1]
    exact allowance_le_budget (t := (a.whole ranges keys text).inner id f window) hb.loopCount_eq
      hb.states_le pos
  tracked id f hf hcaptures := (h.fragments id f hf).1 hcaptures
  captures id f window dfa body close hf hwindow hreplaces :=
    captureReplaced (t := (a.whole ranges keys text).inner id f window) hreplaces hc
      ((grounded_whole h text).decided_inner id f hwindow.limit) hwindow
  fragments id f dfa hf hreplaces := by
    intro window pos slots v hwindow hpos hle hv
    obtain ⟨⟨inside, lo, hterritory, hfirst⟩, haccept⟩ := exists_territory hf hv
    have hyields : let t := (a.whole ranges keys text).inner id f window
        Yields t (t.allowance .none pos + (1 + a.states.size)) .none f.start pos slots v :=
      yields_fragment h.keyed hf hwindow.limit hpos hle hv
    exact exists_result_of_accepting (t := (a.whole ranges keys text).inner id f window)
      hreplaces hc
      ((grounded_whole h text).decided_inner id f hwindow.limit) hwindow hterritory hfirst
        haccept trivial
      ⟨hpos, hle⟩ hyields

/-- A part of a whole run that a deterministic automaton stands for yields what it finds. -/
theorem exists_result_whole (h : p.LiesIn o a ranges keys) (hc : a.HasChart c) {dfa : Dfa}
    (hreplaces : a.Replaces c dfa a.start a.accept) {pos : Nat} (hpos : text.isBoundary pos) :
    ∃ result, dfa.runBounded text pos text.size = .ok result ∧
      Ending.judge ((Window.mk text.size none).verdict keys)
        (p.meaning text o 0 text.size pos .fresh) =
        match result with
        | none => .failure
        | some stop => .success stop (Groups.fresh.slots keys) := by
  obtain ⟨rank, -, hlayout⟩ := h.layout
  obtain ⟨inside, hterritory, hfirst⟩ := bordered_layout o 0 p _ _ _ _ _ _ hlayout
  have hallows : (a.whole ranges keys text).Allows pos := ⟨hpos, Subject.le_size_of_isBoundary hpos⟩
  have hyields := yields_part (t := a.whole ranges keys text)
    (hosts_setting h.keyed (Subject.isBoundary_size text)) hlayout h.accept hallows fun _ _ => rfl
  obtain ⟨result, hresult, hv⟩ :=
    exists_result_of_accepting (t := a.whole ranges keys text) hreplaces hc
    (decided_whole h text) ⟨Subject.isBoundary_size text, fun _ h => by cases h⟩ hterritory hfirst
      h.accept
    trivial hallows hyields
  have hfilter : result.filter (Window.mk text.size none).mayEnd = result := by
    cases result <;> rfl
  exact ⟨result, hresult, hfilter ▸ hv⟩

end Pattern

/-! ## Runs -/

namespace Trial

variable {t : Trial} {run : FragmentRunner} {window : Window} {id pos budget : Nat} {r : Registers}

/-- What is left to a deterministic automaton goes on where the deterministic automaton ends. -/
theorem chase_dfa {dfa next : Nat} {result : Option Nat}
    (hstate : t.automaton.states[id]? = some { action := .dfa dfa next })
    (hrun : t.runDfa dfa pos window.limit r = .ok (result, r)) :
    t.chase run window (budget + 1) id pos r =
      t.advance run window budget (result.map (next, ·)) r := by
  have hstep : t.step run window.limit { action := .dfa dfa next } pos r =
      .ok (result.map (next, ·), r) := by
    unfold step
    dsimp only
    rw [Search.bind_run_ok hrun, Search.pure_run]
  rw [chase_run hstate rfl]
  show (t.step run window.limit { action := .dfa dfa next } pos >>=
    t.advance run window budget) r = _
  rw [Search.bind_run_ok hstep]

/-- A match ends in an accepting state. -/
theorem chase_accepting (hstate : t.automaton.states[id]? = some { accepting := true })
    (hmay : window.mayEnd pos) :
      t.chase run window (budget + 1) id pos r = .ok (.found pos, r) := by
  rw [chase_run hstate rfl, hmay]
  rfl

end Trial

namespace Automaton

variable {a b : Automaton} {text : Subject} {pos : Nat}

/-- A run that is left to a deterministic automaton ends where the deterministic automaton
does. -/
theorem run_of_dfa {entry id accept : Nat} {dfa : Dfa} {result : Option Nat}
    (hentry : a.states[entry]? = some { action := .dfa id accept })
    (haccept : a.states[accept]? = some { accepting := true }) (hdfa : a.dfas[id]? = some dfa)
    (hresult : dfa.runBounded text pos text.size = .ok result) (r : Registers) :
    a.run text entry pos r = .ok (result, r) := by
  have hstates : 0 < a.states.size := Nat.zero_lt_of_lt (Array.getElem?_eq_some_iff.1 hentry).1
  obtain ⟨budget, hbudget⟩ : ∃ budget, Trial.budget ⟨a, text⟩ = budget + 2 := by
    have hone : 1 ≤ (2 * a.loopCount + 1) * (text.size + 1) := Nat.mul_pos (by omega) (by omega)
    have htwo : 1 * 2 ≤ Trial.budget ⟨a, text⟩ := Nat.mul_le_mul hone (Nat.succ_le_succ hstates)
    exact ⟨Trial.budget ⟨a, text⟩ - 2, by omega⟩
  have hrun : Trial.runDfa ⟨a, text⟩ id pos text.size r = .ok (result, r) := by
    unfold Trial.runDfa
    rw [hdfa]
    dsimp only
    rw [Search.lift_run, hresult]
    rfl
  unfold run Trial.search
  rw [Trial.walk_cons]
  unfold Trial.handle
  dsimp only
  rw [hbudget, Trial.chase_dfa hentry hrun]
  cases result with
  | none =>
    show Trial.walk _ _ _ [] r = _
    rw [Trial.walk]
  | some stop =>
    show Trial.resume _ _ _ [] (Trial.chase _ _ _ (budget + 1) accept stop r) = _
    rw [Trial.chase_accepting haccept rfl]
    rfl

/-- A search gives the same with deterministic automata. -/
theorem ofResult_run_promote {o : Options} {p : Pattern} (h : compile o p = .ok a) (text : Subject)
    (hpos : text.isBoundary pos) :
    Verdict.ofResult (a.promote.run text a.promote.entry pos (.fresh a.promote)) =
      Verdict.ofResult (a.run text a.entry pos (.fresh a)) := by
  obtain ⟨ranges, keys, hlies⟩ := Pattern.exists_liesIn h
  obtain ⟨c, hc⟩ := exists_chart h
  obtain ⟨b, hb, hpromote⟩ := exists_promoted h hc
  have hgrounded := Pattern.grounded_promoted hlies hc hb.isVariant text
  have hfresh : (Registers.fresh a).slots = Groups.fresh.slots keys :=
    Pattern.fresh_slots hlies.length_keys
  have hregisters : Registers.fresh b = Registers.fresh a := by
    rw [Registers.fresh, Registers.fresh, hb.isVariant.slotCount_eq, hb.isVariant.loopCount_eq]
  rw [Pattern.ofResult_run hlies hpos, hpromote]
  unfold promoteWhole
  split
  · rename_i hdet
    rw [hb.start_eq, hb.accept_eq] at hdet ⊢
    obtain ⟨result, hresult, hv⟩ := Pattern.exists_result_whole hlies hc
      (hb.replaces hdet hc.start_lt hc.accept_lt hc.leads) hpos
    have haccept : b.states[a.accept]? = some { accepting := true } := by
      rcases hb.isVariant.states _ _ hlies.accept with hsame | ⟨_, _, _, _, _, haction, _⟩
      · exact hsame
      · cases haction
    have hlt := (Array.getElem?_eq_some_iff.1 haccept).1
    have hentry : (b.states.push { action := .dfa b.dfas.size a.accept })[b.states.size]? =
        some { action := .dfa b.dfas.size a.accept } := by simp
    have hrun' := run_of_dfa (a := { b.addDfa a.start a.accept with
        states := b.states.push { action := .dfa b.dfas.size a.accept }, entry := b.states.size })
      hentry (by rw [Array.getElem?_push, if_neg (Nat.ne_of_lt hlt), haccept])
      (getElem?_dfas_addDfa b a.start a.accept) hresult (.fresh b)
    refine (congrArg Verdict.ofResult hrun').trans ?_
    rw [hv]
    cases result with
    | none => rfl
    | some stop =>
      show Verdict.success stop (Registers.fresh b).slots = _
      rw [hregisters, hfresh]
  · have hrun' : b.run text b.entry pos (.fresh b) = b.run text a.start pos (.fresh a) := by
      rw [hregisters, hb.entry_eq, hlies.entry]
    rw [hrun']
    have hcaptures (dfa : Dfa) (body close : Nat) (hreplaces : a.Replaces c dfa body close) :
        CaptureReplaced (a.whole ranges keys text) dfa body close :=
      captureReplaced (t := a.whole ranges keys text) hreplaces hc
        (Pattern.decided_whole hlies text) ⟨Subject.isBoundary_size text, fun _ h => by cases h⟩
    exact (Pattern.ran_variant hlies hgrounded hcaptures hpos hfresh
      (by simp [Registers.fresh])).eq_ofResult.symm

end Automaton

end RegexEngine
