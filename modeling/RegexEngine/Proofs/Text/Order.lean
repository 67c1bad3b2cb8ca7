import Mathlib.Data.List.Infix
import Mathlib.Data.List.Perm.Subperm
import RegexEngine.Proofs.Text.Boundary

/-!
# Boundaries from left to right

* `boundariesFrom_of_le` and `boundariesFrom_of_gt` list the boundaries one after the other.
* `length_le_of_isBoundary` bounds how many there are.
-/

namespace RegexEngine

namespace Subject

variable {s : Subject} {pos start : Nat}

theorem mem_boundariesFrom : pos ∈ s.boundariesFrom start ↔ start ≤ pos ∧ s.isBoundary pos := by
  simp only [boundariesFrom, List.mem_filter, List.mem_range'_1]
  constructor
  · intro h
    exact ⟨h.1.1, h.2⟩
  · intro h
    have := le_size_of_isBoundary h.2
    exact ⟨by omega, h.2⟩

/-- The boundaries from a position on are the position, if it is one, and those behind it. -/
theorem boundariesFrom_of_le (h : start ≤ s.size) :
    s.boundariesFrom start =
      if s.isBoundary start then start :: s.boundariesFrom (start + 1)
      else s.boundariesFrom (start + 1) := by
  have hcount : s.size + 1 - start = (s.size + 1 - (start + 1)) + 1 := by omega
  unfold boundariesFrom
  rw [hcount, List.range'_succ, List.filter_cons]

/-- There is no boundary beyond the end. -/
theorem boundariesFrom_of_gt (h : s.size < start) : s.boundariesFrom start = [] := by
  have hcount : s.size + 1 - start = 0 := by omega
  unfold boundariesFrom
  rw [hcount]
  rfl

/-- There is a boundary before each character and one at the end, and no other. -/
theorem length_le_of_isBoundary {positions : List Nat} (hnodup : positions.Nodup)
    (h : ∀ pos ∈ positions, s.isBoundary pos) : positions.length ≤ s.chars.length + 1 := by
  have hsubset : positions ⊆ s.chars.inits.map byteLength := by
    intro pos hpos
    obtain ⟨before, after, hchars, hlength⟩ := isBoundary_iff.1 (h pos hpos)
    rw [List.mem_map]
    exact ⟨before, (List.mem_inits before s.chars).2 ⟨after, hchars.symm⟩, hlength⟩
  have hle := (List.subperm_of_subset hnodup hsubset).length_le
  rw [List.length_map, List.length_inits] at hle
  exact hle

end Subject

end RegexEngine
