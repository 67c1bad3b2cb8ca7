import Mathlib.Logic.Relation
import RegexEngine.Reachability

/-!
# What a search through a graph finds

`mem_reachable_iff` says that `reachable` lists the nodes to which a path leads
from a start node.

The facts come in two groups.

* Soundness.  Only nodes with a path to them are marked.
* Completeness.  Once a node is marked, its successors are marked or pending, so
  at the end the marked nodes are closed under successors.
-/

namespace RegexEngine

open Relation

/-- A step from a node below `size` to one of its successors. -/
def StepBelow (size : Nat) (next : Nat → List Nat) (x y : Nat) : Prop :=
  x < size ∧ y ∈ next x

theorem size_visit (next : Nat → List Nat) (seen : Array Bool) (pending : List Nat) :
    (visit next seen pending).size = seen.size := by
  fun_induction visit next seen pending with
  | case1 seen => rfl
  | case2 seen node pending h ih => simpa using ih
  | case3 seen node pending h ih => exact ih

/-! ## Soundness -/

/-- What is marked at the end was marked before, or a path leads to it from a
pending node. -/
theorem of_visit_eq_true {next : Nat → List Nat} {seen : Array Bool} {pending : List Nat}
    {x : Nat} (h : (visit next seen pending)[x]? = some true) :
    seen[x]? = some true ∨
      ∃ s ∈ pending, ReflTransGen (StepBelow seen.size next) s x := by
  fun_induction visit next seen pending with
  | case1 seen => exact Or.inl h
  | case2 seen node pending hnode ih =>
    have hlt := (Array.getElem?_eq_some_iff.1 hnode).1
    rcases ih h with hseen | ⟨s, hs, hpath⟩
    · by_cases hx : x = node
      · exact Or.inr ⟨node, by simp, hx ▸ ReflTransGen.refl⟩
      · rw [Array.getElem?_set_ne _ (Ne.symm hx)] at hseen
        exact Or.inl hseen
    · rw [Array.size_set] at hpath
      rcases List.mem_append.1 hs with hs | hs
      · exact Or.inr ⟨node, by simp, ReflTransGen.head ⟨hlt, hs⟩ hpath⟩
      · exact Or.inr ⟨s, by simp [hs], hpath⟩
  | case3 seen node pending hnode ih =>
    rcases ih h with hseen | ⟨s, hs, hpath⟩
    · exact Or.inl hseen
    · exact Or.inr ⟨s, by simp [hs], hpath⟩

/-! ## Completeness -/

/-- Whether a node is marked or out of range. -/
def Settled (seen : Array Bool) (x : Nat) : Prop :=
  seen[x]? ≠ some false

/-- The successors of marked nodes are marked or pending. -/
def FrontierPending (next : Nat → List Nat) (seen : Array Bool) (pending : List Nat) : Prop :=
  ∀ x, seen[x]? = some true → ∀ y ∈ next x, Settled seen y ∨ y ∈ pending

theorem settled_set {seen : Array Bool} {node x : Nat} (h : node < seen.size) :
    Settled (seen.set node true h) x ↔ Settled seen x ∨ x = node := by
  unfold Settled
  by_cases hx : x = node
  · simp [hx]
  · rw [Array.getElem?_set_ne _ (Ne.symm hx)]
    simp [hx]

theorem settled_visit_of_settled {next : Nat → List Nat} {seen : Array Bool}
    {pending : List Nat} {x : Nat} (h : Settled seen x) :
    Settled (visit next seen pending) x := by
  fun_induction visit next seen pending with
  | case1 seen => exact h
  | case2 seen node pending hnode ih => exact ih ((settled_set _).2 (Or.inl h))
  | case3 seen node pending hnode ih => exact ih h

theorem settled_visit_of_mem {next : Nat → List Nat} {seen : Array Bool}
    {pending : List Nat} {x : Nat} (h : x ∈ pending) :
    Settled (visit next seen pending) x := by
  fun_induction visit next seen pending with
  | case1 seen => cases h
  | case2 seen node pending hnode ih =>
    rcases List.mem_cons.1 h with rfl | h
    · exact settled_visit_of_settled ((settled_set _).2 (Or.inr rfl))
    · exact ih (List.mem_append_right _ h)
  | case3 seen node pending hnode ih =>
    rcases List.mem_cons.1 h with rfl | h
    · exact settled_visit_of_settled hnode
    · exact ih h

/-- The nodes that are marked at the end are closed under successors. -/
theorem settled_visit_of_step {next : Nat → List Nat} {seen : Array Bool}
    {pending : List Nat} (h : FrontierPending next seen pending) {x y : Nat}
    (hx : (visit next seen pending)[x]? = some true) (hy : y ∈ next x) :
    Settled (visit next seen pending) y := by
  fun_induction visit next seen pending with
  | case1 seen =>
    rcases h x hx y hy with hsettled | hmem
    · exact hsettled
    · cases hmem
  | case2 seen node pending hnode ih =>
    have hlt := (Array.getElem?_eq_some_iff.1 hnode).1
    refine ih ?_ hx
    intro x hx y hy
    rw [settled_set, List.mem_append]
    by_cases hxn : x = node
    · exact Or.inr (Or.inl (hxn ▸ hy))
    · rw [Array.getElem?_set_ne _ (Ne.symm hxn)] at hx
      rcases h x hx y hy with hsettled | hmem
      · exact Or.inl (Or.inl hsettled)
      · rcases List.mem_cons.1 hmem with heq | hmem
        · exact Or.inl (Or.inr heq)
        · exact Or.inr (Or.inr hmem)
  | case3 seen node pending hnode ih =>
    refine ih ?_ hx
    intro x hx y hy
    rcases h x hx y hy with hsettled | hmem
    · exact Or.inl hsettled
    · rcases List.mem_cons.1 hmem with rfl | hmem
      · exact Or.inl hnode
      · exact Or.inr hmem

theorem eq_true_of_settled {seen : Array Bool} {x : Nat} (h : Settled seen x)
    (hx : x < seen.size) : seen[x]? = some true := by
  unfold Settled at h
  rw [Array.getElem?_eq_getElem hx] at h ⊢
  cases hb : seen[x]
  · exact absurd (congrArg some hb) h
  · rfl

theorem settled_of_path {size : Nat} {next : Nat → List Nat} {starts : List Nat} {s x : Nat}
    (hs : s ∈ starts) (hpath : ReflTransGen (StepBelow size next) s x) :
    Settled (visit next (Array.replicate size false) starts) x := by
  have hfrontier : FrontierPending next (Array.replicate size false) starts := by
    intro y hy
    simp [Array.getElem?_replicate] at hy
  induction hpath with
  | refl => exact settled_visit_of_mem hs
  | tail _ hstep ih =>
    have hlt := hstep.1
    rw [← Array.size_replicate (n := size) (v := false), ← size_visit next _ starts] at hlt
    exact settled_visit_of_step hfrontier (eq_true_of_settled ih hlt) hstep.2

/-- The reachable nodes are those to which a path leads from a start node. -/
theorem mem_reachable_iff {size : Nat} {next : Nat → List Nat} {starts : List Nat} {x : Nat} :
    x ∈ reachable size next starts ↔
      x < size ∧ ∃ s ∈ starts, ReflTransGen (StepBelow size next) s x := by
  have hmem : x ∈ reachable size next starts ↔
      x < size ∧ (visit next (Array.replicate size false) starts)[x]? = some true := by
    simp [reachable]
  rw [hmem]
  refine and_congr_right fun hx => ⟨fun h => ?_, fun ⟨s, hs, hpath⟩ => ?_⟩
  · rcases of_visit_eq_true h with hseen | hpath
    · simp [Array.getElem?_replicate] at hseen
    · rwa [Array.size_replicate] at hpath
  · refine eq_true_of_settled (settled_of_path hs hpath) ?_
    rwa [size_visit, Array.size_replicate]

/-- What is reachable is listed in ascending order. -/
theorem reachable_sublist (size : Nat) (next : Nat → List Nat) (starts : List Nat) :
    (reachable size next starts).Sublist (List.range size) :=
  List.filter_sublist

/-- Two searches that reach the same nodes give the same list. -/
theorem reachable_congr {size : Nat} {next next' : Nat → List Nat} {starts starts' : List Nat}
    (h : ∀ x, x ∈ reachable size next starts ↔ x ∈ reachable size next' starts') :
    reachable size next starts = reachable size next' starts' := by
  refine List.filter_congr fun x hx => ?_
  have hlt := List.mem_range.1 hx
  have := h x
  simp only [reachable, List.mem_filter, hx, true_and] at this
  exact Bool.eq_iff_iff.2 this

end RegexEngine
