import RegexEngine.Proofs.Promotion.Variant
import RegexEngine.Proofs.Search.Heeding

/-!
# Stale records never matter

A run records where iterations of loops began and may leave such records behind: a fragment
that has matched drops what it would have put back.  `Automaton.run_ignores_records` says
that a later run takes no notice of them.  It begins where no loop is around it, so it heeds
no record that it has not written itself.
-/

namespace RegexEngine

open Automaton

namespace Automaton

variable {a : Automaton} {c : Chart}

/-- No loop is around a state that runs the whole pattern. -/
theorem HasChart.around_of_dfa (h : a.HasChart c) {id dfa : Nat}
    (hstate : a.states[id]? = some { action := .dfa dfa a.accept }) : c.around id = ∅ := by
  cases h.holds.states id _ hstate with
  | ordinary _ _ _ hleads =>
    have haccept := (hleads a.accept (by simp [State.targets, Action.targets])).2
    calc c.around id = c.around a.accept := haccept.around_eq.symm
      _ = c.around a.start := h.leads.around_eq
      _ = ∅ := h.around_eq
  | head hs => simp at hs
  | back hs => simp at hs

/-- In the automaton of a pattern no loop is around the state where a match begins. -/
theorem exists_chart_entry {o : Options} {p : Pattern}
    (h : compile o p = .ok a ∨ ofPattern o p = .ok a) :
    ∃ c : Chart, a.HasChart c ∧ c.around a.entry = ∅ := by
  rcases h with h | h
  · obtain ⟨c, hc⟩ := exists_chart h
    obtain ⟨ranges, keys, hlies⟩ := Pattern.exists_liesIn h
    exact ⟨c, hc, by rw [hlies.entry, hc.around_eq]⟩
  · obtain ⟨b, hcompile, rfl⟩ := ofPattern_eq_ok h
    obtain ⟨c, hc⟩ := exists_chart hcompile
    obtain ⟨ranges, keys, hlies⟩ := Pattern.exists_liesIn hcompile
    obtain ⟨d, hd, hpromote⟩ := exists_promoted hcompile hc
    obtain ⟨c', hc'⟩ := hc.promote
    refine ⟨c', hc', ?_⟩
    rw [hpromote] at hc' ⊢
    unfold promoteWhole at hc' ⊢
    split at hc'
    · rename_i hdet
      rw [if_pos hdet]
      have hentry : (d.states.push { action := .dfa d.dfas.size d.accept })[d.states.size]? =
          some { action := .dfa d.dfas.size d.accept } := Array.getElem?_push_size
      exact hc'.around_of_dfa hentry
    · rename_i hdet
      rw [if_neg hdet, hd.entry_eq, hlies.entry, ← hd.start_eq]
      exact hc'.around_eq

/-- What a run finds does not depend on the records of loops that it begins with: it has the
same answer and leaves the same slots, or it ends with the same fault. -/
theorem run_ignores_records {o : Options} {p : Pattern}
    (h : compile o p = .ok a ∨ ofPattern o p = .ok a) (text : Subject) (pos : Nat) (slots : Slots)
    {loops loops' : Array (Option Nat)} (hsize : loops'.size = loops.size) :
    (a.run text a.entry pos ⟨slots, loops'⟩).map (fun (stop, r) => (stop, r.slots)) =
      (a.run text a.entry pos ⟨slots, loops⟩).map fun (stop, r) => (stop, r.slots) := by
  obtain ⟨c, hc, haround⟩ := exists_chart_entry h
  have hagree : Registers.AgreeOn ∅ ⟨slots, loops⟩ ⟨slots, loops'⟩ :=
    ⟨rfl, hsize, fun _ hmem => absurd hmem (Finset.notMem_empty _)⟩
  have hruns := Trial.heedless_runFragment (t := ⟨a, text⟩) hc a.fragments.size
  have hheeds : Heeds ∅ (fun _ => True) (a.run text a.entry pos) :=
    @Trial.heeds_search c ⟨a, text⟩ _ ⟨text.size, none⟩ _ _ _ hc hruns
      (Finset.subset_empty.2 haround)
  exact (hheeds _ _ hagree).map_slots_eq

/-- An atomic group whose body is a loop of loops, and behind it a loop whose iterations may
consume nothing. -/
def keptRounds : Pattern :=
  .concat [
    .atomic (.zeroOrMore (.zeroOrMore (.capture none (.text ['a'])) .greedy) .greedy),
    .zeroOrMore (.alt [.text ['b'], .text []]) .greedy,
    .text ['c']]

theorem run_ignores_records_keptRounds :
    ∃ a, compile {} keptRounds = .ok a ∧ ofPattern {} keptRounds = .ok a.promote ∧
      a.slotCount = 2 ∧ a.loopCount = 3 ∧
      (#[none, some 0, none] : Array (Option Nat)).size = #[some 0, some 2, some 4].size ∧
      (a.promote.run (.ofList ['a', 'a', 'b', 'b', 'c']) a.promote.entry 0
          ⟨#[none, none], #[none, some 0, none]⟩).map (fun (stop, r) => (stop, r.slots)) =
        (a.promote.run (.ofList ['a', 'a', 'b', 'b', 'c']) a.promote.entry 0
          ⟨#[none, none], #[some 0, some 2, some 4]⟩).map fun (stop, r) => (stop, r.slots) := by
  have hcompile : (compile {} keptRounds).toOption.any (fun a =>
      a.slotCount == 2 && a.loopCount == 3) := by decide +kernel
  cases ha : compile {} keptRounds with
  | error fault => simp [ha, Except.toOption] at hcompile
  | ok a =>
    simp only [ha, Except.toOption, Option.any_some, Bool.and_eq_true, beq_iff_eq] at hcompile
    have hpromote : ofPattern {} keptRounds = .ok a.promote := by
      rw [ofPattern, ha]
      rfl
    exact ⟨a, rfl, hpromote, hcompile.1, hcompile.2, rfl, run_ignores_records (.inr hpromote)
      (.ofList ['a', 'a', 'b', 'b', 'c']) 0 #[none, none] rfl⟩

end Automaton

end RegexEngine
