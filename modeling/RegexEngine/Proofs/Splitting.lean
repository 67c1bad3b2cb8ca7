import Mathlib.Data.List.Nodup
import RegexEngine.Proofs.Dfa.Partition

/-!
# Splitting and joining by characters

The construction of a deterministic automaton splits the characters by the states to which they
lead, and joins the transitions that lead to the same state.

* `Dfa.Splits` says what pieces have to be for the first: every character that leads anywhere lies
  in one piece, with all the states to which it leads.
* `Dfa.splits_partition_and_joins_mergeTargets` says that a partition has such pieces, and that
  joined transitions lead where the transitions lead.
-/

namespace RegexEngine.Dfa

variable {a : Automaton} {goal : Nat} {within : Option CharSet} {states : List Nat}

/-! ## Splitting -/

/-- The character `c` leads from one of the states to `target`.  Nothing leads on from the goal. -/
def Consumes (a : Automaton) (goal : Nat) (states : List Nat) (c : Char) (target : Nat) : Prop :=
  ∃ state ∈ states, state ≠ goal ∧ ∃ s set, a.states[state]? = some s ∧
    s.transition = some ⟨.oneOf set, target⟩ ∧ set.test c

/-- Pieces split the characters by the states to which they lead.  Only the members of `within`
count, if it is given. -/
structure Splits (a : Automaton) (goal : Nat) (within : Option CharSet) (states : List Nat)
    (pieces : List (CharSet × List Nat)) : Prop where
  /-- Each piece has a character. -/
  nonempty : ∀ piece ∈ pieces, ∃ c, piece.1.test c
  /-- No two pieces have a character in common. -/
  disjoint : Disjoint pieces
  /-- The pieces have the characters that count and lead anywhere. -/
  covers : ∀ c, (∃ piece ∈ pieces, piece.1.test c) ↔
    (∀ set, within = some set → set.test c) ∧ ∃ target, Consumes a goal states c target
  /-- All characters of a piece lead to its states, and nowhere else. -/
  targets : ∀ piece ∈ pieces, ∀ c, piece.1.test c → ∀ target,
    target ∈ piece.2 ↔ Consumes a goal states c target
  /-- A piece names each state once. -/
  nodup : ∀ piece ∈ pieces, piece.2.Nodup

theorem consumes_iff {c : Char} {target : Nat} :
    Consumes a goal states c target ↔ target ∈ targets a goal states c := by
  simp only [Consumes, mem_targets_iff, transitionOf_eq_some_iff]
  grind

theorem leads_partition_iff_consumes {c : Char} {target : Nat} :
    Leads (partition a goal within states) c target ↔
      (∀ set, within = some set → set.test c) ∧ Consumes a goal states c target := by
  rw [leads_partition_iff, ← consumes_iff, and_comm]
  cases within <;> simp

/-- What holds of single states, and is kept when a state is added, holds of the states of all
pieces. -/
theorem forall_targets_refine {P : List Nat → Prop} {target : Nat} (hsingle : P [target])
    (hinsert : ∀ ts, P ts → P (ts.insert target)) {set : CharSet}
    {pieces : List (CharSet × List Nat)}
    (h : ∀ piece ∈ pieces, P piece.2) : ∀ piece ∈ refine target set pieces, P piece.2 := by
  fun_induction refine target set pieces with
  | case1 set hempty => exact h
  | case2 set hempty => exact List.forall_mem_singleton.2 hsingle
  | case3 set p ts pieces common hempty ih =>
    obtain ⟨hp, hpieces⟩ := List.forall_mem_cons.1 h
    exact List.forall_mem_cons.2 ⟨hp, ih hpieces⟩
  | case4 set p ts pieces common hempty outside ih =>
    obtain ⟨hp, hpieces⟩ := List.forall_mem_cons.1 h
    refine List.forall_mem_append.2 ⟨?_, List.forall_mem_cons.2 ⟨hinsert ts hp, ih hpieces⟩⟩
    split
    · exact fun piece hpiece => by cases hpiece
    · exact List.forall_mem_singleton.2 hp

theorem forall_targets_partition {P : List Nat → Prop} (hsingle : ∀ target, P [target])
    (hinsert : ∀ target ts, P ts → P (ts.insert target)) :
    ∀ piece ∈ partition a goal within states, P piece.2 := by
  unfold partition
  refine List.foldlRecOn (motive := fun pieces : List (CharSet × List Nat) =>
    ∀ piece ∈ pieces, P piece.2) states _ (fun piece hpiece => by cases hpiece) ?_
  intro pieces hpieces state _
  split
  · exact forall_targets_refine (hsingle _) (hinsert _) hpieces
  · exact hpieces

/-- A partition splits the characters by the states to which they lead. -/
theorem splits_partition : Splits a goal within states (partition a goal within states) := by
  have hdisjoint : Disjoint (partition a goal within states) := disjoint_partition within states
  have hsome : ∀ piece ∈ partition a goal within states, piece.2 ≠ [] :=
    forall_targets_partition (P := fun ts => ts ≠ []) (fun target => List.cons_ne_nil target [])
      fun target ts _ => List.ne_nil_of_mem List.mem_insert_self
  constructor
  · exact fun piece hpiece => CharSet.exists_test (isEmpty_of_mem_partition piece hpiece)
  · exact hdisjoint
  · intro c
    constructor
    · rintro ⟨piece, hpiece, hc⟩
      obtain ⟨target, htarget⟩ := List.exists_mem_of_ne_nil _ (hsome piece hpiece)
      obtain ⟨hwithin, hconsumes⟩ := leads_partition_iff_consumes.1 ⟨piece, hpiece, hc, htarget⟩
      exact ⟨hwithin, target, hconsumes⟩
    · rintro ⟨hwithin, target, hconsumes⟩
      obtain ⟨piece, hpiece, hc, -⟩ := leads_partition_iff_consumes.2 ⟨hwithin, hconsumes⟩
      exact ⟨piece, hpiece, hc⟩
  · intro piece hpiece c hc target
    obtain ⟨first, hfirst⟩ := List.exists_mem_of_ne_nil _ (hsome piece hpiece)
    have hwithin := (leads_partition_iff_consumes.1 ⟨piece, hpiece, hc, hfirst⟩).1
    rw [← leads_iff_of_mem hdisjoint hpiece hc, leads_partition_iff_consumes]
    exact and_iff_right hwithin
  · exact forall_targets_partition (P := List.Nodup) (fun target => List.nodup_singleton target)
      fun target ts h => h.insert

/-! ## Joining -/

/-- Among disjoint transitions a character leads to one state at most. -/
theorem Disjoint.spells_unique {transitions : List (CharSet × Nat)} (h : Disjoint transitions)
    {c : Char}
    {t t' : Nat} (ht : Spells transitions c t) (ht' : Spells transitions c t') : t = t' := by
  induction transitions with
  | nil =>
    obtain ⟨_, hmem, _⟩ := ht
    cases hmem
  | cons x rest ih =>
    obtain ⟨hx, hrest⟩ := List.pairwise_cons.1 h
    have hrest' {t : Nat} (hc : x.1.test c) : ¬Spells rest c t := by
      rintro ⟨set, hmem, hset⟩
      rw [hx _ hmem c hc] at hset
      cases hset
    rcases spells_cons_iff.1 ht with ⟨hc, rfl⟩ | ht
    · rcases spells_cons_iff.1 ht' with ⟨_, rfl⟩ | ht'
      · rfl
      · exact absurd ht' (hrest' hc)
    · rcases spells_cons_iff.1 ht' with ⟨hc, rfl⟩ | ht'
      · exact absurd ht (hrest' hc)
      · exact ih hrest ht ht'

/-- Among disjoint transitions a step goes where one of them leads. -/
theorem Disjoint.step_eq_some_iff {s : State} (h : Disjoint s.transitions) {c : Char} {t : Nat} :
    s.step c = some t ↔ Spells s.transitions c t := by
  refine ⟨spells_of_step, fun ht => ?_⟩
  cases hstep : s.step c with
  | none => exact absurd ht (not_spells_of_step hstep)
  | some t' => rw [h.spells_unique (spells_of_step hstep) ht]

/-- Joining disjoint transitions leaves them disjoint. -/
theorem Disjoint.mergeTargets {transitions : List (CharSet × Nat)} (h : Disjoint transitions) :
    Disjoint (mergeTargets transitions) :=
  disjoint_of_nodup (nodup_mergeTargets transitions) fun ht ht' =>
    h.spells_unique (spells_mergeTargets_iff.1 ht) (spells_mergeTargets_iff.1 ht')

/-- A partition splits the characters by the states to which they lead.  Joining transitions of
which no two have a character in common leaves each character the state to which it leads, and no
two of the joined ones have a character in common. -/
theorem splits_partition_and_joins_mergeTargets (a : Automaton) (goal : Nat) :
    (∀ within states, Splits a goal within states (partition a goal within states)) ∧
      ∀ transitions : List (CharSet × Nat), Disjoint transitions →
        Disjoint (mergeTargets transitions) ∧
          ∀ c, ({ transitions := mergeTargets transitions } : State).step c =
            ({ transitions } : State).step c := by
  refine ⟨fun within states => splits_partition, fun transitions h => ⟨h.mergeTargets, fun c => ?_⟩⟩
  refine Option.ext fun t => ?_
  rw [Disjoint.step_eq_some_iff (s := { transitions := mergeTargets transitions }) h.mergeTargets,
    Disjoint.step_eq_some_iff (s := { transitions }) h]
  exact spells_mergeTargets_iff

/-- Three classes of which any two have characters in common, and all three some. -/
def threeClasses : Automaton where
  states := #[
    { transition := some ⟨.oneOf (.ofRange 'a' 'm'), 0⟩ },
    { transition := some ⟨.oneOf (.ofRange 'h' 'z'), 1⟩ },
    { transition := some ⟨.oneOf (.ofRange 'e' 'p'), 2⟩ },
    { transition := some ⟨.oneOf .any, 0⟩ }]
  fragments := #[]
  dfas := #[]
  regions := []
  slotCount := 1
  groups := #[0]
  names := []
  loopCount := 0
  start := 0
  accept := 3
  entry := 0

theorem splits_partition_and_joins_mergeTargets_threeClasses :
    (partition threeClasses 3 (some .word) [0, 1, 2, 3]).map (·.2) =
    [[0], [2, 0], [2, 1, 0], [1], [2, 1]] ∧
      Disjoint [(CharSet.ofRange 'a' 'd', 1), (.ofRange 'e' 'g', 2), (.ofRange 'h' 'm', 1)] ∧
      Splits threeClasses 3 (some .word) [0, 1, 2, 3]
        (partition threeClasses 3 (some .word) [0, 1, 2, 3]) ∧
      Disjoint (mergeTargets [(.ofRange 'a' 'd', 1), (.ofRange 'e' 'g', 2),
        (.ofRange 'h' 'm', 1)]) := by
  have hdisjoint : Disjoint [(CharSet.ofRange 'a' 'd', 1), (.ofRange 'e' 'g', 2),
      (.ofRange 'h' 'm', 1)] :=
    disjoint_iff.2 (by decide)
  obtain ⟨hsplits, hjoins⟩ := splits_partition_and_joins_mergeTargets threeClasses 3
  exact ⟨by decide, hdisjoint, hsplits _ _, (hjoins _ hdisjoint).1⟩

end RegexEngine.Dfa
