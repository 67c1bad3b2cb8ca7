import Mathlib
import RegexEngine.Proofs.Completeness
import RegexEngine.Proofs.Promotion.Matches
import RegexEngine.Proofs.Rejection

/-!
# Deterministic automata change no match

Where a match lies does not depend on which parts of a pattern run on deterministic automata.

* `Automaton.matchAt_ofPattern` is about the automaton of a pattern, whose regions run on
  deterministic automata where they may.
* `Dfa.ofPattern_agrees` is about the deterministic automaton of a whole pattern.
-/

namespace RegexEngine

namespace Automaton

variable {o : Options} {p : Pattern} {a b : Automaton} {text : Subject} {pos : Nat}

/-- The match that a verdict stands for. -/
def matchOf (a : Automaton) (pos : Nat) (v : Verdict) : Except Fault (Option Match) :=
  v.map fun result => result.map fun (stop, slots) => a.toMatch pos stop { slots }

theorem matchAt_eq_matchOf (hpos : text.isBoundary pos) :
    a.matchAt text pos = a.matchOf pos (.ofResult (a.run text a.entry pos (.fresh a))) := by
  rw [matchAt_eq hpos]
  match a.run text a.entry pos (.fresh a) with
  | .error fault => rfl
  | .ok (none, r) => rfl
  | .ok (some stop, r) => rfl

/-- No match starts within a character. -/
theorem matchAt_of_not_isBoundary (hpos : text.isBoundary pos = false) :
    a.matchAt text pos = .ok none := by
  unfold matchAt
  rw [hpos]
  rfl

theorem groups_promote_and_names_promote (h : compile o p = .ok a) :
    a.promote.groups = a.groups ∧ a.promote.names = a.names := by
  obtain ⟨c, hc⟩ := exists_chart h
  obtain ⟨b, hb, hpromote⟩ := exists_promoted h hc
  rw [hpromote]
  unfold promoteWhole
  split
  · exact ⟨hb.groups_eq, hb.names_eq⟩
  · exact ⟨hb.groups_eq, hb.names_eq⟩

theorem matchAt_promote (h : compile o p = .ok a) (text : Subject) (pos : Nat) :
    a.promote.matchAt text pos = a.matchAt text pos := by
  cases hpos : text.isBoundary pos with
  | false => rw [matchAt_of_not_isBoundary hpos, matchAt_of_not_isBoundary hpos]
  | true =>
    obtain ⟨hgroups, hnames⟩ := groups_promote_and_names_promote h
    rw [matchAt_eq_matchOf hpos, matchAt_eq_matchOf hpos, ofResult_run_promote h text hpos]
    unfold matchOf toMatch
    rw [hgroups, hnames]

theorem ofPattern_eq_promote (h : compile o p = .ok a) : ofPattern o p = .ok a.promote := by
  rw [ofPattern, h]
  rfl

/-- With the regions of a pattern on deterministic automata a search from any position has
the same outcome: there is the same match, with the same groups, or no match, or the same
fault. -/
theorem matchAt_ofPattern (h : compile o p = .ok a) :
    ∃ b, ofPattern o p = .ok b ∧ ∀ text pos, b.matchAt text pos = a.matchAt text pos :=
  ⟨a.promote, ofPattern_eq_promote h, matchAt_promote h⟩

/-- A group of any number of characters before another one. -/
def groupBeforeOther : Pattern :=
  .concat [.capture (some "x") (.oneOrMore (.text ['a']) .greedy), .lookAhead (.text ['b'])]

theorem matchAt_ofPattern_groupBeforeOther :
    ∃ a, compile {} groupBeforeOther = .ok a ∧ ∃ b, ofPattern {} groupBeforeOther = .ok b ∧
      ∀ text pos, b.matchAt text pos = a.matchAt text pos := by
  have hcompile : (compile {} groupBeforeOther).toOption.isSome := by decide +kernel
  obtain ⟨a, ha⟩ : ∃ a, compile {} groupBeforeOther = .ok a := by
    cases h : compile {} groupBeforeOther with
    | error fault => simp [h, Except.toOption] at hcompile
    | ok a => exact ⟨a, rfl⟩
  exact ⟨a, ha, matchAt_ofPattern ha⟩

/-! ## Whole patterns -/

/-- The whole pattern runs on a deterministic automaton if the next character settles every
choice of it. -/
theorem isPromoted_promote (h : compile o p = .ok a) :
    a.promote.isPromoted = a.isDeterministic a.start a.accept := by
  obtain ⟨ranges, keys, hlies⟩ := Pattern.exists_liesIn h
  obtain ⟨c, hc⟩ := exists_chart h
  obtain ⟨b, hb, hpromote⟩ := exists_promoted h hc
  have hdet : b.isDeterministic b.start b.accept = a.isDeterministic a.start a.accept := by
    rw [hb.start_eq, hb.accept_eq, hb.sameShape.isDeterministic_eq]
  have hlt : b.start < b.states.size := by
    rw [hb.start_eq, hb.size_eq]
    exact hc.start_lt
  rw [hpromote, ← hdet]
  unfold promoteWhole
  cases b.isDeterministic b.start b.accept with
  | true => simpa [isPromoted, addDfa] using Nat.ne_of_gt hlt
  | false => simp [isPromoted, hb.entry_eq, hb.start_eq, hlies.entry]

/-- The deterministic automaton of a whole pattern ends where the match does. -/
theorem exists_run_eq_matchAt (h : compile o p = .ok a) (hdet : a.isDeterministic a.start a.accept)
    (text : Subject) (hpos : text.isBoundary pos) :
    ∃ m, a.matchAt text pos = .ok m ∧
      (Dfa.ofPart a a.start a.accept).run text pos = .ok (m.map Match.stop) ∧
      ∀ m', m = some m' → m'.start = pos := by
  obtain ⟨ranges, keys, hlies⟩ := Pattern.exists_liesIn h
  obtain ⟨c, hc⟩ := exists_chart h
  have hreplaces : a.Replaces c (Dfa.ofPart a a.start a.accept) a.start a.accept :=
    { deterministic := hdet
      start_lt := hc.start_lt
      beside := hc.leads
      longest := fun text _ _ => Dfa.longest_runBounded a text a.start hc.accept_lt }
  obtain ⟨result, hresult, hv⟩ := Pattern.exists_result_whole hlies hc hreplaces hpos
  rw [matchAt_eq_matchOf hpos, Pattern.ofResult_run hlies hpos, hv]
  cases result with
  | none => exact ⟨none, rfl, hresult, fun _ h => by cases h⟩
  | some stop => exact ⟨_, rfl, hresult, fun _ h => by cases h; rfl⟩

/-- What agrees at each position agrees on the first position with a match. -/
theorem exists_findAmong_eq_matchAmong {dfa : Dfa} {positions : List Nat}
    (h : ∀ pos ∈ positions, ∃ m, a.matchAt text pos = .ok m ∧
      dfa.run text pos = .ok (m.map Match.stop) ∧
      ∀ m', m = some m' → m'.start = pos) :
    ∃ m, a.matchAmong text positions = .ok m ∧
      dfa.findAmong text positions = .ok (m.map Match.whole) := by
  induction positions with
  | nil => exact ⟨none, rfl, rfl⟩
  | cons pos positions ih =>
    obtain ⟨m, hmatch, hrun, hstart⟩ := h pos List.mem_cons_self
    unfold matchAmong Dfa.findAmong
    rw [hmatch, hrun]
    cases m with
    | none => exact ih fun pos hpos => h pos (List.mem_cons_of_mem _ hpos)
    | some m =>
      obtain rfl := hstart m rfl
      exact ⟨some m, rfl, rfl⟩

end Automaton

theorem Dfa.ofPattern_of_compile_eq_ok {o : Options} {p : Pattern} {a : Automaton}
    (h : Automaton.compile o p = .ok a) : Dfa.ofPattern o p =
      if a.promote.isPromoted then .ok (.ofPart a a.start a.accept) else .error .notRegular := by
  rw [Automaton.isPromoted_promote h]
  unfold Dfa.ofPattern
  rw [h]
  show (if a.isDeterministic a.start a.accept then _ else _) = _
  split <;> rfl

/-- The deterministic automaton of a whole pattern agrees with its automata.  It exists just if
the automaton of the pattern runs the whole pattern on a deterministic automaton, and otherwise
the error says whether the automaton exists.  Without deterministic automata a match ends
where the deterministic automaton does, and the leftmost match is where it finds one. -/
theorem Dfa.ofPattern_agrees (o : Options) (p : Pattern) :
    ((∃ dfa, Dfa.ofPattern o p = .ok dfa) ↔ ∃ b, Automaton.ofPattern o p = .ok b ∧ b.isPromoted) ∧
    (Dfa.ofPattern o p = .error .notRegular ↔
      ∃ b, Automaton.ofPattern o p = .ok b ∧ b.isPromoted = false) ∧
    (∀ e, Automaton.ofPattern o p = .error e →
      Dfa.ofPattern o p = .error e ∧ ∃ min max, e = .invalidRepetition min max) ∧
    ∀ dfa, Dfa.ofPattern o p = .ok dfa → ∃ a, Automaton.compile o p = .ok a ∧ ∀ text : Subject,
      (∀ pos, text.isBoundary pos → ∃ m, a.matchAt text pos = .ok m ∧
        dfa.run text pos = .ok (m.map Match.stop)) ∧
      ∃ m, a.find text = .ok m ∧ dfa.find text = .ok (m.map Match.whole) := by
  cases hcompile : Automaton.compile o p with
  | error e =>
    obtain ⟨min, max, -, rfl⟩ := Automaton.inverted_of_compile_eq_error hcompile
    have hdfa : Dfa.ofPattern o p = .error (.invalidRepetition min max) := by
      rw [Dfa.ofPattern, hcompile]
      rfl
    have hpattern : Automaton.ofPattern o p = .error (.invalidRepetition min max) := by
      rw [Automaton.ofPattern, hcompile]
      rfl
    rw [hdfa, hpattern]
    refine ⟨by simp, by simp, fun e he => ?_, fun dfa h => by cases h⟩
    cases he
    exact ⟨rfl, min, max, rfl⟩
  | ok a =>
    have hdfa := Dfa.ofPattern_of_compile_eq_ok hcompile
    rw [Automaton.ofPattern_eq_promote hcompile]
    cases hpromoted : a.promote.isPromoted with
    | false =>
      rw [hpromoted, if_neg Bool.false_ne_true] at hdfa
      rw [hdfa]
      exact ⟨by simp [hpromoted], by simp [hpromoted], fun e h => (by cases h), fun dfa h => by
        cases h⟩
    | true =>
      rw [hpromoted, if_pos rfl] at hdfa
      rw [hdfa]
      refine ⟨by simp [hpromoted], by simp [hpromoted], fun e h => (by cases h), fun dfa h => ?_⟩
      cases h
      have hdet : a.isDeterministic a.start a.accept := by
        rw [← Automaton.isPromoted_promote hcompile]
        exact hpromoted
      have hagree (text : Subject) (pos : Nat) (hpos : text.isBoundary pos) :=
        Automaton.exists_run_eq_matchAt hcompile hdet text hpos
      refine ⟨a, rfl, fun text => ⟨fun pos hpos => ?_, ?_⟩⟩
      · obtain ⟨m, hmatch, hrun, -⟩ := hagree text pos hpos
        exact ⟨m, hmatch, hrun⟩
      · exact Automaton.exists_findAmong_eq_matchAmong fun pos hpos =>
          hagree text pos (List.mem_filter.1 hpos).2

/-- A character at least once. -/
def someCharacters : Pattern :=
  .oneOrMore (.text ['a']) .greedy

theorem Dfa.ofPattern_agrees_someCharacters :
    ∃ dfa, Dfa.ofPattern {} someCharacters = .ok dfa ∧
      (∃ b, Automaton.ofPattern {} someCharacters = .ok b ∧ b.isPromoted) ∧
      ∃ a, Automaton.compile {} someCharacters = .ok a ∧ ∀ text : Subject,
        (∀ pos, text.isBoundary pos → ∃ m, a.matchAt text pos = .ok m ∧
          dfa.run text pos = .ok (m.map Match.stop)) ∧
        ∃ m, a.find text = .ok m ∧ dfa.find text = .ok (m.map Match.whole) := by
  have hsome : (Dfa.ofPattern {} someCharacters).toOption.isSome = true := by cbv
  obtain ⟨dfa, hdfa⟩ : ∃ dfa, Dfa.ofPattern {} someCharacters = .ok dfa := by
    cases h : Dfa.ofPattern {} someCharacters with
    | error e => simp [h, Except.toOption] at hsome
    | ok dfa => exact ⟨dfa, rfl⟩
  obtain ⟨hexists, -, -, hagree⟩ := Dfa.ofPattern_agrees {} someCharacters
  exact ⟨dfa, hdfa, hexists.1 ⟨dfa, hdfa⟩, hagree dfa hdfa⟩

end RegexEngine
