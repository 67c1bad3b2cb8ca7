/-!
# Reachability

`reachable` finds what can be reached in a graph with numbered nodes.  Every
node is visited once, so the search ends whether or not the graph has cycles.
-/

namespace RegexEngine

/-- Marking a node that was unmarked leaves fewer that are. -/
theorem count_set_true_lt {seen : Array Bool} {node : Nat} (h : node < seen.size)
    (hfalse : seen[node] = false) : (seen.set node true).count false < seen.count false := by
  have hmem : false ∈ seen := hfalse ▸ Array.getElem_mem h
  have := Array.count_pos_iff.2 hmem
  rw [Array.count_set h, hfalse]
  simp
  omega

/-- Visits the pending nodes and all that can be reached from them by way of
nodes that have not been seen. -/
def visit (next : Nat → List Nat) (seen : Array Bool) (pending : List Nat) : Array Bool :=
  match pending with
  | [] => seen
  | node :: pending =>
    if h : seen[node]? = some false then
      visit next (seen.set node true (Array.getElem?_eq_some_iff.1 h).1) (next node ++ pending)
    else
      visit next seen pending
termination_by (seen.count false, pending.length)
decreasing_by
  · obtain ⟨hlt, heq⟩ := Array.getElem?_eq_some_iff.1 h
    exact Prod.Lex.left _ _ (count_set_true_lt hlt heq)
  · exact Prod.Lex.right _ (by simp)

/-- The nodes below `size` that can be reached from the start nodes, in
ascending order. -/
def reachable (size : Nat) (next : Nat → List Nat) (starts : List Nat) : List Nat :=
  let seen := visit next (Array.replicate size false) starts
  (List.range size).filter fun node => seen[node]? == some true

end RegexEngine
