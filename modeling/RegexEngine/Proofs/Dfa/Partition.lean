import RegexEngine.Proofs.CharSet.Membership
import RegexEngine.Proofs.Dfa.Reading

/-!
# Where characters lead

The construction splits the characters into pieces that lead to the same states,
and joins transitions that lead to the same state.

* `Leads` reads off a list of pieces where a character leads.  `leads_partition_iff`
  says that a partition leads where the states lead, and `disjoint_partition` that
  no two pieces have a character in common.
* `Spells` reads off a list of transitions where a character leads.
  `spells_mergeTargets_iff` says that joining transitions keeps that.
-/

namespace RegexEngine.Dfa

variable {a : Automaton} {goal : Nat}

/-! ## Pieces -/

/-- A piece with the character `c` leads to `target`. -/
def Leads (pieces : List (CharSet × List Nat)) (c : Char) (target : Nat) : Prop :=
  ∃ piece ∈ pieces, piece.1.test c ∧ target ∈ piece.2

/-- No two of the sets have a character in common. -/
def Disjoint {α : Type} (pieces : List (CharSet × α)) : Prop :=
  pieces.Pairwise fun p q => ∀ c, p.1.test c → q.1.test c = false

theorem disjoint_iff {α : Type} {pieces : List (CharSet × α)} :
    Disjoint pieces ↔ pieces.Pairwise fun p q => p.1.overlaps q.1 = false := by
  refine List.Pairwise.iff fun p q => ?_
  rw [Bool.eq_false_iff, Ne, CharSet.overlaps_iff]
  simp

theorem leads_cons_iff {piece : CharSet × List Nat} {pieces : List (CharSet × List Nat)}
    {c : Char} {target : Nat} :
    Leads (piece :: pieces) c target ↔
      (piece.1.test c ∧ target ∈ piece.2) ∨ Leads pieces c target := by
  simp [Leads]

/-- In disjoint pieces all that a character leads to stands in its piece. -/
theorem leads_iff_of_mem {pieces : List (CharSet × List Nat)} (h : Disjoint pieces)
    {piece : CharSet × List Nat} (hpiece : piece ∈ pieces) {c : Char} (hc : piece.1.test c)
    {target : Nat} : Leads pieces c target ↔ target ∈ piece.2 := by
  induction pieces with
  | nil => cases hpiece
  | cons p pieces ih =>
    obtain ⟨hp, hpieces⟩ := List.pairwise_cons.1 h
    rw [leads_cons_iff]
    rcases List.mem_cons.1 hpiece with rfl | hmem
    · have hnone : ¬Leads pieces c target := by
        rintro ⟨q, hq, hqc, _⟩
        rw [hp q hq c hc] at hqc
        cases hqc
      simp [hc, hnone]
    · have hpc : ¬p.1.test c := by
        intro hpc
        rw [hp piece hmem c hpc] at hc
        cases hc
      simp [hpc, ih hpieces hmem]

theorem leads_refine_iff {target : Nat} {set : CharSet} {pieces : List (CharSet × List Nat)}
    {c : Char} {t : Nat} :
    Leads (refine target set pieces) c t ↔ Leads pieces c t ∨ set.test c ∧ t = target := by
  fun_induction refine target set pieces with
  | case1 set hempty => simp [Leads, (CharSet.isEmpty_iff set).1 hempty c]
  | case2 set hempty => simp [Leads]
  | case3 set p ts pieces common hempty ih =>
    rw [leads_cons_iff, leads_cons_iff, ih, or_assoc]
  | case4 set p ts pieces common hempty outside ih =>
    have houtside : Leads (if outside.isEmpty then [] else [(outside, ts)]) c t ↔
        outside.test c ∧ t ∈ ts := by
      split
      · rename_i hempty
        simp [Leads, (CharSet.isEmpty_iff outside).1 hempty c]
      · simp [Leads]
    have happend (xs ys : List (CharSet × List Nat)) :
        Leads (xs ++ ys) c t ↔ Leads xs c t ∨ Leads ys c t := by
      simp [Leads, or_and_right, exists_or]
    rw [happend, leads_cons_iff, leads_cons_iff, houtside, ih]
    simp only [outside, common, CharSet.test_diff, CharSet.test_inter, List.mem_insert_iff]
    cases p.test c <;> cases set.test c <;> simp
    tauto

theorem test_of_mem_refine {target : Nat} {set : CharSet} {pieces : List (CharSet × List Nat)}
    {piece : CharSet × List Nat} (h : piece ∈ refine target set pieces) {c : Char}
    (hc : piece.1.test c) : set.test c ∨ ∃ p ∈ pieces, p.1.test c := by
  fun_induction refine target set pieces with
  | case1 set hempty => cases h
  | case2 set hempty =>
    obtain rfl := List.mem_singleton.1 h
    exact Or.inl hc
  | case3 set p ts pieces common hempty ih =>
    rcases List.mem_cons.1 h with rfl | h
    · exact Or.inr ⟨_, by simp, hc⟩
    · rcases ih h with hset | ⟨q, hq, hqc⟩
      · exact Or.inl hset
      · exact Or.inr ⟨q, by simp [hq], hqc⟩
  | case4 set p ts pieces common hempty outside ih =>
    rcases List.mem_append.1 h with h | h
    · simp only [List.mem_ite_nil_left, List.mem_singleton] at h
      rw [h.2, CharSet.test_diff, Bool.and_eq_true] at hc
      exact Or.inr ⟨(p, ts), by simp, hc.1⟩
    rcases List.mem_cons.1 h with rfl | h
    · rw [CharSet.test_inter, Bool.and_eq_true] at hc
      exact Or.inr ⟨(p, ts), by simp, hc.1⟩
    · rcases ih h with hset | ⟨q, hq, hqc⟩
      · rw [CharSet.test_diff, Bool.and_eq_true] at hset
        exact Or.inl hset.1
      · exact Or.inr ⟨q, by simp [hq], hqc⟩

theorem disjoint_refine {target : Nat} {set : CharSet} {pieces : List (CharSet × List Nat)}
    (h : Disjoint pieces) : Disjoint (refine target set pieces) := by
  fun_induction refine target set pieces with
  | case1 set hempty => exact List.Pairwise.nil
  | case2 set hempty => exact List.pairwise_singleton _ _
  | case3 set p ts pieces common hempty ih =>
    obtain ⟨hp, hpieces⟩ := List.pairwise_cons.1 h
    refine List.Pairwise.cons ?_ (ih hpieces)
    intro q hq c hpc
    have hset := (CharSet.isEmpty_iff common).1 hempty c
    rw [CharSet.test_inter, hpc, Bool.true_and] at hset
    by_contra hqc
    rcases test_of_mem_refine hq (eq_true_of_ne_false hqc) with hc | ⟨r, hr, hrc⟩
    · rw [hset] at hc
      cases hc
    · rw [hp r hr c hpc] at hrc
      cases hrc
  | case4 set p ts pieces common hempty outside ih =>
    obtain ⟨hp, hpieces⟩ := List.pairwise_cons.1 h
    -- the pieces behind have no character of `p`, as only the rest of `set` was added
    have hrest (q) (hq : q ∈ refine target (set.diff p) pieces) (c) (hpc : p.test c) :
        q.1.test c = false := by
      by_contra hqc
      rcases test_of_mem_refine hq (eq_true_of_ne_false hqc) with hc | ⟨r, hr, hrc⟩
      · rw [CharSet.test_diff, hpc] at hc
        simp at hc
      · rw [hp r hr c hpc] at hrc
        cases hrc
    refine List.pairwise_append.2 ⟨?_, List.Pairwise.cons ?_ (ih hpieces), ?_⟩
    · split
      · exact List.Pairwise.nil
      · exact List.pairwise_singleton _ _
    · intro q hq c hc
      rw [CharSet.test_inter, Bool.and_eq_true] at hc
      exact hrest q hq c hc.1
    · intro q hq r hr c hqc
      simp only [List.mem_ite_nil_left, List.mem_singleton] at hq
      rw [hq.2, CharSet.test_diff, Bool.and_eq_true] at hqc
      rcases List.mem_cons.1 hr with rfl | hr
      · rw [CharSet.test_inter, hqc.1, Bool.true_and]
        simpa using hqc.2
      · exact hrest r hr c hqc.1

/-- The pieces of a partition are disjoint. -/
theorem disjoint_partition (within : Option CharSet) (states : List Nat) :
    Disjoint (partition a goal within states) := by
  refine List.foldlRecOn states _ List.Pairwise.nil ?_
  intro pieces hpieces state _
  split
  · exact disjoint_refine hpieces
  · exact hpieces

/-- A partition leads where the states lead. -/
theorem leads_partition_iff {within : Option CharSet} {states : List Nat} {c : Char}
    {target : Nat} :
    Leads (partition a goal within states) c target ↔
      target ∈ targets a goal states c ∧ within.all (·.test c) := by
  unfold partition
  have hnil : ¬Leads [] c target := by simp [Leads]
  rw [← or_iff_right (b := target ∈ targets a goal states c ∧ within.all (·.test c)) hnil]
  generalize ([] : List (CharSet × List Nat)) = pieces
  induction states generalizing pieces with
  | nil => simp [targets]
  | cons state states ih =>
    rw [List.foldl_cons]
    refine (ih _).trans ?_
    rw [mem_targets_iff, mem_targets_iff, List.exists_mem_cons_iff]
    split
    · rename_i set target' h
      have hhead : (∃ set', transitionOf a goal state = some ⟨.oneOf set', target⟩ ∧
          set'.test c) ↔ set.test c ∧ target = target' := by
        rw [h]
        constructor
        · rintro ⟨set', heq, hc⟩
          cases heq
          exact ⟨hc, rfl⟩
        · rintro ⟨hc, rfl⟩
          exact ⟨set, rfl, hc⟩
      rw [leads_refine_iff, hhead]
      cases within with
      | none =>
        simp only [Option.all_none]
        tauto
      | some within =>
        simp only [Option.all_some, CharSet.test_inter, Bool.and_eq_true]
        tauto
    · rename_i h
      have hnone : ¬∃ set, transitionOf a goal state = some ⟨.oneOf set, target⟩ ∧
          set.test c := fun ⟨set, hset, _⟩ => h set target hset
      simp only [hnone, false_or]

/-- The pieces of a partition have characters. -/
theorem isEmpty_of_mem_refine {target : Nat} {set : CharSet} {pieces : List (CharSet × List Nat)}
    (h : ∀ piece ∈ pieces, piece.1.isEmpty = false) :
    ∀ piece ∈ refine target set pieces, piece.1.isEmpty = false := by
  fun_induction refine target set pieces with
  | case1 set hempty => exact h
  | case2 set hempty => simpa using hempty
  | case3 set p ts pieces common hempty ih =>
    obtain ⟨hp, hpieces⟩ := List.forall_mem_cons.1 h
    exact List.forall_mem_cons.2 ⟨hp, ih hpieces⟩
  | case4 set p ts pieces common hempty outside ih =>
    obtain ⟨hp, hpieces⟩ := List.forall_mem_cons.1 h
    intro piece hpiece
    rcases List.mem_append.1 hpiece with hpiece | hpiece
    · simp only [List.mem_ite_nil_left, List.mem_singleton] at hpiece
      rw [hpiece.2]
      simpa using hpiece.1
    · rcases List.mem_cons.1 hpiece with rfl | hpiece
      · simpa using hempty
      · exact ih hpieces piece hpiece

theorem isEmpty_of_mem_partition {within : Option CharSet} {states : List Nat} :
    ∀ piece ∈ partition a goal within states, piece.1.isEmpty = false := by
  unfold partition
  refine List.foldlRecOn (motive := fun pieces : List (CharSet × List Nat) =>
    ∀ piece ∈ pieces, piece.1.isEmpty = false) states _ (fun piece hpiece => (by cases hpiece)) ?_
  intro pieces hpieces state _
  split
  · exact isEmpty_of_mem_refine hpieces
  · exact hpieces

/-! ## Transitions -/

/-- A transition for the character `c` leads to `target`. -/
def Spells (transitions : List (CharSet × Nat)) (c : Char) (target : Nat) : Prop :=
  ∃ set, (set, target) ∈ transitions ∧ set.test c

theorem spells_cons_iff {set : CharSet} {target : Nat} {rest : List (CharSet × Nat)}
    {c : Char} {t : Nat} :
    Spells ((set, target) :: rest) c t ↔ (set.test c ∧ t = target) ∨ Spells rest c t := by
  simp only [Spells, List.mem_cons, Prod.mk.injEq, or_and_right, exists_or]
  refine or_congr_left ⟨?_, ?_⟩
  · rintro ⟨_, ⟨rfl, rfl⟩, hc⟩
    exact ⟨hc, rfl⟩
  · rintro ⟨hc, rfl⟩
    exact ⟨set, ⟨rfl, rfl⟩, hc⟩

theorem spells_addTransition_iff {transitions : List (CharSet × Nat)} {set : CharSet}
    {target : Nat} {c : Char} {t : Nat} :
    Spells (addTransition transitions set target) c t ↔
      Spells transitions c t ∨ set.test c ∧ t = target := by
  fun_induction addTransition transitions set target with
  | case1 => rw [spells_cons_iff, or_comm]
  | case2 other rest =>
    rw [spells_cons_iff, spells_cons_iff, CharSet.test_union, Bool.or_eq_true]
    tauto
  | case3 other target' rest hne ih =>
    rw [spells_cons_iff, spells_cons_iff, ih, or_assoc]

/-- Joining transitions leaves where a character leads. -/
theorem spells_mergeTargets_iff {transitions : List (CharSet × Nat)} {c : Char} {t : Nat} :
    Spells (mergeTargets transitions) c t ↔ Spells transitions c t := by
  have step (merged transitions : List (CharSet × Nat)) :
      Spells (transitions.foldl (fun merged x => addTransition merged x.1 x.2)
        merged) c t ↔ Spells merged c t ∨ Spells transitions c t := by
    induction transitions generalizing merged with
    | nil => simp [Spells]
    | cons x rest ih =>
      rw [List.foldl_cons, ih, spells_addTransition_iff, spells_cons_iff, or_assoc]
  rw [mergeTargets, step]
  simp [Spells]

/-- The states to which transitions lead. -/
abbrev targetsOf (transitions : List (CharSet × Nat)) : List Nat :=
  transitions.map (·.2)

/-- No transition is void. -/
abbrev NoneVoid (transitions : List (CharSet × Nat)) : Prop :=
  ∀ t ∈ transitions, t.1.isEmpty = false

theorem isEmpty_union {s t : CharSet} (h : s.isEmpty = false) : (s.union t).isEmpty = false := by
  rw [Bool.eq_false_iff, Ne, CharSet.isEmpty_iff] at h ⊢
  intro hempty
  refine h fun c => ?_
  have := hempty c
  rw [CharSet.test_union, Bool.or_eq_false_iff] at this
  exact this.1

/-- Joining a transition adds its target, unless it is there. -/
theorem mem_targetsOf_addTransition {transitions : List (CharSet × Nat)} {set : CharSet}
    {target id : Nat} :
    id ∈ targetsOf (addTransition transitions set target) ↔ id ∈ targetsOf transitions ∨
      id = target := by
  fun_induction addTransition transitions set target with
  | case1 => simp
  | case2 other rest =>
    simp only [List.map_cons, List.mem_cons]
    tauto
  | case3 other target' rest hne ih =>
    simp only [List.map_cons, List.mem_cons, ih, or_assoc]

theorem noneVoid_addTransition {transitions : List (CharSet × Nat)} {set : CharSet} {target : Nat}
    (h : NoneVoid transitions) (hset : set.isEmpty = false) :
    NoneVoid (addTransition transitions set target) := by
  fun_induction addTransition transitions set target with
  | case1 => simpa [NoneVoid] using hset
  | case2 other rest =>
    obtain ⟨hother, hrest⟩ := List.forall_mem_cons.1 h
    exact List.forall_mem_cons.2 ⟨isEmpty_union hother, hrest⟩
  | case3 other target' rest hne ih =>
    obtain ⟨hother, hrest⟩ := List.forall_mem_cons.1 h
    exact List.forall_mem_cons.2 ⟨hother, ih hrest⟩

theorem nodup_addTransition {transitions : List (CharSet × Nat)} {set : CharSet} {target : Nat}
    (h : (targetsOf transitions).Nodup) :
    (targetsOf (addTransition transitions set target)).Nodup := by
  fun_induction addTransition transitions set target with
  | case1 => simp
  | case2 other rest => exact h
  | case3 other target' rest hne ih =>
    obtain ⟨hnew, hrest⟩ := List.nodup_cons.1 h
    refine List.nodup_cons.2 ⟨fun hmem => ?_, ih hrest⟩
    rcases mem_targetsOf_addTransition.1 hmem with hmem | heq
    · exact hnew hmem
    · exact hne heq

/-- Joining transitions keeps their targets. -/
theorem mem_targetsOf_mergeTargets {transitions : List (CharSet × Nat)} {id : Nat} :
    id ∈ targetsOf (mergeTargets transitions) ↔ id ∈ targetsOf transitions := by
  have step (merged transitions : List (CharSet × Nat)) :
      id ∈ targetsOf (transitions.foldl (fun merged x => addTransition merged x.1 x.2) merged) ↔
        id ∈ targetsOf merged ∨ id ∈ targetsOf transitions := by
    induction transitions generalizing merged with
    | nil => simp
    | cons x rest ih =>
      rw [List.foldl_cons, ih, mem_targetsOf_addTransition, or_assoc, ← List.mem_cons,
        ← List.map_cons]
  rw [mergeTargets, step]
  simp

/-- Joined transitions are not void and lead to different states. -/
theorem noneVoid_mergeTargets {transitions : List (CharSet × Nat)} (h : NoneVoid transitions) :
    NoneVoid (mergeTargets transitions) := by
  refine List.foldlRecOn transitions _ (fun t ht => by cases ht) ?_
  exact fun merged hmerged t ht => noneVoid_addTransition hmerged (h t ht)

theorem nodup_mergeTargets (transitions : List (CharSet × Nat)) :
    (targetsOf (mergeTargets transitions)).Nodup := by
  refine List.foldlRecOn (motive := fun merged => (targetsOf merged).Nodup) transitions _
    List.nodup_nil ?_
  exact fun merged hmerged t _ => nodup_addTransition hmerged

/-- Transitions have no character in common if each leads to another state, and each character to
one state. -/
theorem disjoint_of_nodup {transitions : List (CharSet × Nat)} (h : (targetsOf transitions).Nodup)
    (hunique : ∀ {c : Char} {t t' : Nat}, Spells transitions c t → Spells transitions c t' →
      t = t') :
    Disjoint transitions := by
  refine (List.pairwise_map.1 h).imp_of_mem fun {x y} hx hy hne c hc => ?_
  rw [Bool.eq_false_iff]
  exact fun hc' => hne (hunique ⟨x.1, hx, hc⟩ ⟨y.1, hy, hc'⟩)

/-- A step goes where a transition leads. -/
theorem spells_of_step {s : State} {c : Char} {t : Nat} (h : s.step c = some t) :
    Spells s.transitions c t := by
  obtain ⟨⟨set, target⟩, hfind, rfl⟩ := Option.map_eq_some_iff.1 h
  exact ⟨set, List.mem_of_find?_eq_some hfind, by simpa using List.find?_some hfind⟩

/-- Where there is no step no transition leads on. -/
theorem not_spells_of_step {s : State} {c : Char} {t : Nat} (h : s.step c = none) :
    ¬Spells s.transitions c t := by
  rintro ⟨set, hmem, hc⟩
  have := List.find?_eq_none.1 (Option.map_eq_none_iff.1 h) _ hmem
  simp [hc] at this

end RegexEngine.Dfa
