import Mathlib.Algebra.Order.BigOperators.Group.Finset
import Mathlib.Tactic.Linarith
import Mathlib.Tactic.Ring
import RegexEngine.Proofs.Search.Verdict

/-!
# How long a way can be

A way that consumes nothing can end an iteration of each loop and begin one.  The
allowance of a setting counts what is left: it is lower after a character has been
consumed, after an iteration has been opened and after one has been closed.
-/

namespace RegexEngine

/-- What a loop adds to what is left.  An iteration that began elsewhere can be closed
and another one opened. -/
def Iterations.level (its : Iterations) (pos loop : Nat) : Nat :=
  match its loop with
  | Option.none => 1
  | some start => if start = pos then 0 else 2

/-- What the loops add to what is left. -/
def Setting.load (t : Setting) (its : Iterations) (pos : Nat) : Nat :=
  ∑ loop ∈ Finset.range t.automaton.loopCount, its.level pos loop

/-- A bound for the states on a way, but for those behind which neither a character is
consumed nor an iteration opened or closed. -/
def Setting.allowance (t : Setting) (its : Iterations) (pos : Nat) : Nat :=
  ((t.text.size - pos) * (2 * t.automaton.loopCount + 1) + t.load its pos) *
    (t.automaton.states.size + 1)

section

variable {t : Setting} {its : Iterations} {pos stop loop : Nat}

theorem Iterations.level_le (its : Iterations) (pos loop : Nat) : its.level pos loop ≤ 2 := by
  unfold level
  split
  · omega
  · split <;> omega

theorem load_le (t : Setting) (its : Iterations) (pos : Nat) :
    t.load its pos ≤ 2 * t.automaton.loopCount := by
  have h := Finset.sum_le_card_nsmul (Finset.range t.automaton.loopCount) (its.level pos) 2
    fun loop _ => its.level_le pos loop
  simpa [Setting.load, Nat.mul_comm] using h

/-- Raising one level raises the load. -/
theorem load_eq_add_one {its' : Iterations} {pos' : Nat} (hloop : loop < t.automaton.loopCount)
    (hself : its'.level pos' loop = its.level pos loop + 1)
    (hothers : ∀ loop' ≠ loop, its'.level pos' loop' = its.level pos loop') :
    t.load its' pos' = t.load its pos + 1 := by
  unfold Setting.load
  have hmem := Finset.mem_range.2 hloop
  have hrest : ∑ loop' ∈ (Finset.range t.automaton.loopCount).erase loop, its'.level pos' loop' =
      ∑ loop' ∈ (Finset.range t.automaton.loopCount).erase loop, its.level pos loop' :=
    Finset.sum_congr rfl fun loop' h => hothers loop' (Finset.ne_of_mem_erase h)
  rw [← Finset.add_sum_erase _ _ hmem, ← Finset.add_sum_erase _ (its.level pos) hmem, hrest, hself]
  omega

/-- Opening an iteration lowers the allowance. -/
theorem allowance_enter (hloop : loop < t.automaton.loopCount) (hclosed : its loop = none) :
    t.allowance (its.set loop (some pos)) pos + (t.automaton.states.size + 1) =
      t.allowance its pos := by
  have hload : t.load its pos = t.load (its.set loop (some pos)) pos + 1 := by
    refine load_eq_add_one hloop ?_ fun loop' hne => ?_
    · simp [Iterations.level, hclosed]
    · simp [Iterations.level, Iterations.set_ne hne]
  unfold Setting.allowance
  rw [hload]
  ring

/-- Closing an iteration that began elsewhere lowers the allowance. -/
theorem allowance_close {start : Nat} (hloop : loop < t.automaton.loopCount)
    (hclosed : its loop = none) (hne : start ≠ pos) :
    t.allowance its pos + (t.automaton.states.size + 1) =
      t.allowance (its.set loop (some start)) pos := by
  have hload : t.load (its.set loop (some start)) pos = t.load its pos + 1 := by
    refine load_eq_add_one hloop ?_ fun loop' hne => ?_
    · simp [Iterations.level, hclosed, hne]
    · simp [Iterations.level, Iterations.set_ne hne]
  unfold Setting.allowance
  rw [hload]
  ring

/-- Consuming something lowers the allowance. -/
theorem allowance_consume (its : Iterations) (hlt : pos < stop) (hle : stop ≤ t.text.size) :
    t.allowance its stop + (t.automaton.states.size + 1) ≤ t.allowance its pos := by
  have hload := load_le t its stop
  obtain ⟨k, hk⟩ : ∃ k, t.text.size - pos = t.text.size - stop + k + 1 :=
    ⟨t.text.size - pos - (t.text.size - stop) - 1, by omega⟩
  have hsum : (t.text.size - stop) * (2 * t.automaton.loopCount + 1) + t.load its stop + 1 ≤
      (t.text.size - pos) * (2 * t.automaton.loopCount + 1) + t.load its pos := by
    rw [hk]
    nlinarith
  unfold Setting.allowance
  calc _ = ((t.text.size - stop) * (2 * t.automaton.loopCount + 1) + t.load its stop + 1) *
        (t.automaton.states.size + 1) := by ring
    _ ≤ _ := Nat.mul_le_mul_right _ hsum

theorem allowance_anti (its : Iterations) (hle : pos ≤ stop) (hsize : stop ≤ t.text.size) :
    t.allowance its stop ≤ t.allowance its pos := by
  rcases hle.eq_or_lt with rfl | hlt
  · exact Nat.le_refl _
  · have := allowance_consume its hlt hsize
    omega

/-- At the start of a run the allowance is within the budget. -/
theorem allowance_le_budget {b : Automaton} (hloops : b.loopCount = t.automaton.loopCount)
    (hstates : t.automaton.states.size ≤ b.states.size) (pos : Nat) :
    t.allowance .none pos + (t.automaton.states.size + 1) ≤ Trial.budget ⟨b, t.text⟩ := by
  have hload : t.load .none pos ≤ t.automaton.loopCount := by
    have h := Finset.sum_le_card_nsmul (Finset.range t.automaton.loopCount)
      (Iterations.none.level pos) 1 fun loop _ => by simp [Iterations.level, Iterations.none]
    simpa [Setting.load] using h
  have hsum : (t.text.size - pos) * (2 * t.automaton.loopCount + 1) + t.load .none pos + 1 ≤
      (2 * t.automaton.loopCount + 1) * (t.text.size + 1) := by
    have hle : t.text.size - pos ≤ t.text.size := Nat.sub_le _ _
    nlinarith
  unfold Setting.allowance Trial.budget
  rw [hloops]
  calc _ = ((t.text.size - pos) * (2 * t.automaton.loopCount + 1) + t.load .none pos + 1) *
        (t.automaton.states.size + 1) := by ring
    _ ≤ _ := Nat.mul_le_mul hsum (Nat.succ_le_succ hstates)

end

end RegexEngine
