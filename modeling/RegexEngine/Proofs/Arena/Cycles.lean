import Mathlib.Data.List.Cycle
import Mathlib.Data.Finset.Max
import Mathlib.Data.Prod.Lex
import RegexEngine.Proofs.Chart.Promotion

/-!
# Whoever goes round goes round a loop

A state leads on to a state that is nearer to the end, unless it ends an iteration, and only
the state where a loop begins leads into the loop.  So a cycle begins an iteration and ends it.

* `Automaton.Edge` says which states lead to which.
* `Automaton.HasChart.nearer_or_back` and `Automaton.HasChart.enters` say what a chart says of
  one edge.
* `Automaton.HasChart.iterates` is about a whole cycle.
-/

namespace RegexEngine.Automaton

variable {a : Automaton} {c : Chart} {id target loop : Nat}

/-- A state leads to another one, or runs a fragment that begins there. -/
inductive Edge (a : Automaton) (id : Nat) : Nat → Prop
  /-- It leads there. -/
  | leads {s : State} {target : Nat} (hs : a.states[id]? = some s) (htarget : target ∈ s.targets) :
      Edge a id target
  /-- It runs a fragment. -/
  | runs {s : State} {f : Nat} {fragment : Fragment} (hs : a.states[id]? = some s)
      (hf : f ∈ s.action.fragments) (hfragment : a.fragments[f]? = some fragment) :
      Edge a id fragment.start

/-- A cycle goes from the first state of a loop to the body of the loop, from there to the state
that ends an iteration without coming by the first state, and back to the first state. -/
def Iterates (a : Automaton) (cycle : Cycle Nat) : Prop :=
  ∃ (loop head body exit : Nat) (lazy : Bool) (back : Nat) (path rest : List Nat),
    a.states[head]? = some { epsilons := [body, exit], lazy, loopHead := some loop } ∧
    a.states[back]? = some { epsilons := [head], loopBack := some loop } ∧
    path.head? = some body ∧ path.getLast? = some back ∧ head ∉ path ∧
    (∀ next, rest.head? = some next → next = head) ∧ cycle = ↑(head :: path ++ rest : List Nat)

/-! ## Edges -/

/-- A fragment that is run comes before the fragment that runs it, and a state is before
those that it leads to. -/
def Chart.key (c : Chart) (id : Nat) : ℕ ×ₗ ℚ :=
  toLex (c.zone id, c.rank id)

theorem Chart.key_lt_of_rank (hzone : c.zone target = c.zone id)
    (hrank : c.rank target < c.rank id) :
    Chart.key c target < Chart.key c id :=
  Prod.Lex.toLex_lt_toLex.2 (.inr ⟨hzone, hrank⟩)

/-- Only a state that ends an iteration does not lead nearer to the end. -/
theorem HasChart.nearer_or_back (h : a.HasChart c) (hedge : a.Edge id target) :
    Chart.key c target < Chart.key c id ∨ ∃ loop,
      a.states[id]? = some { epsilons := [target], loopBack := some loop } ∧
        c.head loop = target ∧ loop ∉ c.around target ∧ loop ∈ c.around id := by
  cases hedge with
  | @leads s target hs htarget =>
    cases h.holds.states id s hs with
    | ordinary _ _ _ hleads =>
      have hleads := (hleads target htarget).2
      exact .inl (Chart.key_lt_of_rank hleads.zone_eq hleads.rank_lt)
    | @head first exit _ _ hstate _ _ _ _ hleads hzone hrank =>
      have htarget : target = first ∨ target = exit := by
        simpa [hstate, State.targets, Action.targets] using htarget
      rcases htarget with rfl | rfl
      · exact .inl (Chart.key_lt_of_rank hzone hrank)
      · exact .inl (Chart.key_lt_of_rank hleads.zone_eq hleads.rank_lt)
    | @back loop hstate _ _ _ hnew haround =>
      obtain rfl : target = c.head loop := by
        simpa [hstate, State.targets, Action.targets] using htarget
      refine .inr ⟨loop, by rw [hs, hstate], rfl, hnew, ?_⟩
      rw [haround]
      exact Finset.mem_insert_self _ _
  | @runs s f fragment hs hf hfragment =>
    cases h.holds.states id s hs with
    | ordinary _ _ _ _ _ hfragments =>
      have hzone := (h.holds.fragments f fragment hfragment).zone_eq
      exact .inl (Prod.Lex.toLex_lt_toLex.2 (.inl (hzone.symm ▸ (hfragments f hf).1)))
    | head hstate => simp [hstate, Action.fragments] at hf
    | back hstate => simp [hstate, Action.fragments] at hf

/-- Only the first state of a loop leads into the loop, by its first epsilon. -/
theorem HasChart.enters (h : a.HasChart c) (hedge : a.Edge id target) (hout : loop ∉ c.around id)
    (hin : loop ∈ c.around target) : c.head loop = id ∧ ∃ exit lazy,
      a.states[id]? = some { epsilons := [target, exit], lazy, loopHead := some loop } := by
  cases hedge with
  | @leads s target hs htarget =>
    cases h.holds.states id s hs with
    | ordinary _ _ _ hleads =>
      rw [(hleads target htarget).2.around_eq] at hin
      exact absurd hin hout
    | @head first exit loop' lazy hstate _ _ _ hhead hleads _ _ _ haround =>
      have htarget : target = first ∨ target = exit := by
        simpa [hstate, State.targets, Action.targets] using htarget
      rcases htarget with rfl | rfl
      · rw [haround] at hin
        rcases Finset.mem_insert.1 hin with rfl | hin
        · exact ⟨hhead, exit, lazy, by rw [hs, hstate]⟩
        · exact absurd hin hout
      · rw [hleads.around_eq] at hin
        exact absurd hin hout
    | @back loop' hstate _ _ _ _ haround =>
      obtain rfl : target = c.head loop' := by
        simpa [hstate, State.targets, Action.targets] using htarget
      rw [haround] at hout
      exact absurd (Finset.mem_insert_of_mem hin) hout
  | @runs s f fragment hs hf hfragment =>
    rw [(h.holds.fragments f fragment hfragment).around_eq] at hin
    exact absurd hin (Finset.notMem_empty loop)

/-! ## Cycles -/

/-- If something holds somewhere in a list then there is a last place where it holds. -/
theorem exists_last {P : Nat → Prop} {l : List Nat} (h : ∃ x ∈ l, P x) :
    ∃ before x after, l = before ++ x :: after ∧ P x ∧ ∀ y ∈ after, ¬ P y := by
  induction l with
  | nil =>
    obtain ⟨x, hx, -⟩ := h
    cases hx
  | cons y l ih =>
    by_cases hl : ∃ x ∈ l, P x
    · obtain ⟨before, x, after, rfl, hx, hafter⟩ := ih hl
      exact ⟨y :: before, x, after, rfl, hx, hafter⟩
    · obtain ⟨x, hx, hPx⟩ := h
      rcases List.mem_cons.1 hx with rfl | hx
      · exact ⟨[], x, l, rfl, hPx, fun z hz hPz => hl ⟨z, hz, hPz⟩⟩
      · exact absurd ⟨x, hx, hPx⟩ hl

/-- A cycle has a state that is not nearer to the end than any other one of it. -/
theorem exists_farthest_next (key : Nat → ℕ ×ₗ ℚ) {cycle : Cycle Nat} (hne : cycle ≠ Cycle.nil) :
    ∃ b l, cycle = ↑(b :: l) ∧ ∀ x ∈ l ++ [b], key b ≤ key x := by
  obtain ⟨l, rfl⟩ : ∃ l : List Nat, cycle = ↑l := by
    induction cycle using Quotient.inductionOn with
    | _ l => exact ⟨l, rfl⟩
  have hl : l ≠ [] := fun h => hne (by rw [h]; rfl)
  obtain ⟨b, hb, hmin⟩ := l.toFinset.exists_min_image key (List.toFinset_nonempty_iff l |>.2 hl)
  obtain ⟨before, after, rfl⟩ := List.append_of_mem (List.mem_toFinset.1 hb)
  refine ⟨b, after ++ before, Cycle.coe_eq_coe.2 ?_, fun x hx => hmin x ?_⟩
  · exact List.isRotated_append
  · simp only [List.mem_toFinset, List.mem_append, List.mem_cons, List.not_mem_nil,
      or_false] at hx ⊢
    tauto

/-- Whoever goes round goes round a loop. -/
theorem HasChart.iterates (h : a.HasChart c) {cycle : Cycle Nat} (hne : cycle ≠ Cycle.nil)
    (hcycle : cycle.Chain a.Edge) : a.Iterates cycle := by
  -- The state nearest to the end leads back, for it leads to nothing nearer.
  obtain ⟨back, l, rfl, hmin⟩ := exists_farthest_next (Chart.key c) hne
  rw [Cycle.chain_coe_cons] at hcycle
  have hlast : (l ++ [back]).getLast? = some back := by simp
  have hrotated : ((back :: l : List Nat) : Cycle Nat) = ↑(l ++ [back]) :=
    Cycle.coe_eq_coe.2 (List.isRotated_append (l := [back]))
  obtain ⟨head, l', hl⟩ : ∃ head l', l ++ [back] = head :: l' := by
    cases l with
    | nil => exact ⟨back, [], rfl⟩
    | cons x l => exact ⟨x, l ++ [back], rfl⟩
  rw [hrotated]
  rw [hl] at hcycle hmin hlast ⊢
  obtain ⟨hedge, hchain⟩ := List.isChain_cons_cons.1 hcycle
  rcases h.nearer_or_back hedge with hnearer | ⟨loop, hback, hhead, hout, hin⟩
  · exact absurd hnearer (not_lt_of_ge (hmin head List.mem_cons_self))
  · -- From the last state that is outside of the loop on the cycle stays inside.
    obtain ⟨before, x, path, heq, hx, hpath⟩ :=
      exists_last (P := fun id => loop ∉ c.around id) ⟨head, List.mem_cons_self, hout⟩
    rw [heq] at hchain hlast
    cases path with
    | nil =>
      obtain rfl : x = back := by simpa using hlast
      exact absurd hin hx
    | cons body path =>
      have hinto := (List.isChain_append_cons_cons.1 hchain).2.1
      obtain ⟨hhead', exit, lazy, hstate⟩ :=
        h.enters hinto hx (not_not.1 (hpath body List.mem_cons_self))
      obtain rfl : x = head := hhead'.symm.trans hhead
      refine ⟨loop, x, body, exit, lazy, back, body :: path, before, hstate, hback, rfl, ?_,
        fun hmem => hpath x hmem hx, fun next hnext => ?_, ?_⟩
      · rw [List.getLast?_append_of_ne_nil _ (List.cons_ne_nil _ _),
          List.getLast?_cons_cons] at hlast
        exact hlast
      · cases before with
        | nil => cases hnext
        | cons y before =>
          have hy := (List.cons.inj heq).1
          exact (Option.some.inj hnext).symm.trans hy.symm
      · rw [heq]
        exact Cycle.coe_eq_coe.2 List.isRotated_append

end RegexEngine.Automaton
