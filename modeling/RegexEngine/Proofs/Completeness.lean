import RegexEngine.Proofs.Meaning.Relation
import RegexEngine.Proofs.Priority

/-!
# A search is complete

A match of a declarative pattern is found wherever there is one, although iterations
that consume nothing are given up.

* `Automaton.matchAt_eq` computes the match at a position from what a search gives.
* `Pattern.matchAt_isSome_iff_relates` is about the relation of a pattern.
-/

namespace RegexEngine

/-- The match at a boundary comes from a search. -/
theorem Automaton.matchAt_eq {a : Automaton} {text : Subject} {pos : Nat}
    (hpos : text.isBoundary pos) : a.matchAt text pos =
      (a.run text a.entry pos (.fresh a)).map fun (stop, r) =>
        stop.map fun stop => a.toMatch pos stop r := by
  unfold matchAt
  rw [hpos]
  show Except.bind _ _ = _
  cases h : a.run text a.entry pos (.fresh a) with
  | error fault => simp [StateT.run, h, Except.bind, Except.map]
  | ok result =>
    simp only [StateT.run, h, Except.bind, Except.map]
    rfl

namespace Pattern

variable {o : Options} {p : Pattern} {a : Automaton} {pos : Nat}

/-- A declarative pattern has a match at a boundary just if its relation has an end
there, and the match ends at such an end. -/
theorem matchAt_isSome_iff_relates (h : Automaton.compile o p = .ok a) (hp : p.isDeclarative)
    (text : Subject) (hpos : text.isBoundary pos) :
    ∃ result, a.matchAt text pos = .ok result ∧
      (result.isSome ↔ ∃ stop, p.Relates text o pos stop) ∧
      ∀ m, result = some m → m.start = pos ∧ p.Relates text o pos m.stop := by
  obtain ⟨ranges, keys, hlies⟩ := exists_liesIn h
  have hgives := gives_run hlies text hpos
  have hdecides : Meaning.Decides text (p.meaning text o 0) (p.Relates text o) :=
    decides_meaning o 0 p hp
  have hsize := Subject.isBoundary_size text
  have hle := Subject.le_size_of_isBoundary hpos
  rw [Automaton.matchAt_eq hpos]
  match hendings : p.meaning text o 0 text.size pos .fresh, hgives with
  | [], hgives =>
    obtain ⟨r, hrun⟩ := hgives
    refine ⟨none, by rw [hrun]; rfl, ⟨fun hsome => (by cases hsome), ?_⟩, fun m hm => by cases hm⟩
    rintro ⟨stop, hR⟩
    have hstop := Subject.le_size_of_isBoundary (hdecides.forward pos stop hpos hR).1
    obtain ⟨groups, hmem⟩ :=
      (hdecides.mem_iff text.size pos .fresh stop hsize hpos hle).2 ⟨hR, hstop⟩
    rw [hendings] at hmem
    cases hmem
  | .error fault :: _, hgives =>
    refine absurd ?_ (hdecides.faultless text.size pos .fresh fault hsize hpos hle)
    rw [hendings]
    exact List.mem_cons_self
  | .ok (stop, groups) :: endings, hgives =>
    obtain ⟨r, hrun, -⟩ := hgives
    have hmem : .ok (stop, groups) ∈ p.meaning text o 0 text.size pos .fresh := by
      rw [hendings]
      exact List.mem_cons_self
    have hR := (hdecides.of_mem hsize hpos hle hmem).1
    refine ⟨some (a.toMatch pos stop r), by rw [hrun]; rfl, ⟨fun _ => ⟨stop, hR⟩, fun _ => rfl⟩, ?_⟩
    rintro m hm
    cases hm
    exact ⟨rfl, hR⟩

/-- Any number of times any number of characters, and then another one. -/
def nestedLoops : Pattern :=
  .concat [.zeroOrMore (.zeroOrMore (.text ['a']) .lazy) .greedy, .text ['b']]

theorem matchAt_isSome_iff_relates_nestedLoops :
    ∃ a, Automaton.compile {} nestedLoops = .ok a ∧ nestedLoops.isDeclarative ∧
      (Subject.ofList ['a', 'a', 'b']).isBoundary 0 ∧
      ∃ result, a.matchAt (.ofList ['a', 'a', 'b']) 0 = .ok result ∧
        (result.isSome ↔ ∃ stop, nestedLoops.Relates (.ofList ['a', 'a', 'b']) {} 0 stop) ∧
        ∀ m, result = some m → m.start = 0 ∧ nestedLoops.Relates (.ofList ['a', 'a', 'b'])
          {} 0 m.stop := by
  have hcompile : (Automaton.compile {} nestedLoops).toOption.isSome := by decide +kernel
  obtain ⟨a, ha⟩ : ∃ a, Automaton.compile {} nestedLoops = .ok a := by
    cases h : Automaton.compile {} nestedLoops with
    | error fault => simp [h, Except.toOption] at hcompile
    | ok a => exact ⟨a, rfl⟩
  exact ⟨a, ha, by decide, by decide, matchAt_isSome_iff_relates ha (by decide) _ (by decide)⟩

end Pattern

end RegexEngine
