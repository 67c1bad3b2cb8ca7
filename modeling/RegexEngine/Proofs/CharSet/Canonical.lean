import RegexEngine.Proofs.CharSet.Complement

/-!
# The set operations keep sets canonical

Sets built from ranges are canonical.  Common members lie in ranges of both sets, what is left of a
range is cut apart by ranges, and between the ranges of a complement lie those of the set, so that
the operations keep the numbers between ranges.

The complement of a severed set is the exception.  Nothing lies between the characters on the two
sides of the surrogates, and the gap between them has both: `test_compl_of_severed`.
-/

namespace RegexEngine.CharSet

variable {s t : CharSet} {c : Char}

/-! ## Common members and differences -/

theorem Canonical.inter (hs : s.Canonical) (ht : t.Canonical) : (s.inter t).Canonical := by
  refine List.pairwise_flatMap.2 ⟨fun r _ => List.pairwise_filterMap.2 (ht.imp ?_), hs.imp ?_⟩
  · intro x x' hlt y hy y' hy'
    have hlast : y.last.toNat ≤ x.last.toNat := (CharRange.bounds_of_inter? hy).2.2.2
    have hfirst : x'.first.toNat ≤ y'.first.toNat := (CharRange.bounds_of_inter? hy').1.2.1
    omega
  · intro r r' hlt y hy y' hy'
    obtain ⟨x, _, hx⟩ := List.mem_filterMap.1 hy
    obtain ⟨x', _, hx'⟩ := List.mem_filterMap.1 hy'
    have hlast : y.last.toNat ≤ r.last.toNat := (CharRange.bounds_of_inter? hx).2.1.2
    have hfirst : r'.first.toNat ≤ y'.first.toNat := (CharRange.bounds_of_inter? hx').1.1.1
    omega

/-- Whole ranges lie between the pieces that are left of a range. -/
theorem apart_carve (r : CharRange) (ranges : List CharRange) :
    (carve r ranges).Pairwise fun x y => x.last.toNat + 1 < y.first.toNat := by
  induction ranges generalizing r with
  | nil => exact List.pairwise_singleton _ _
  | cons s rest ih =>
    refine List.pairwise_append.2 ⟨?_, ?_, ?_⟩
    · cases r.below? s
      · exact List.Pairwise.nil
      · exact List.pairwise_singleton _ _
    · split
      · exact ih _
      · exact List.Pairwise.nil
    · intro x hx y hy
      split at hy
      · rename_i above habove
        have hbelow := CharRange.exists_mem_below?_iff.1 ⟨x, Option.mem_toList.1 hx, x.last_mem⟩
        have hfirst := (bounds_of_mem_carve hy).1
        have habove := CharRange.exists_mem_above?_iff.1 ⟨above, habove, hfirst⟩
        have hlow : x.last.toNat < s.first.toNat := hbelow.2
        have hhigh : s.last.toNat < y.first.toNat := habove.2
        have hs : s.first.toNat ≤ s.last.toNat := s.first_le_last
        omega
      · cases hy

theorem Canonical.diff (h : s.Canonical) (t : CharSet) : (s.diff t).Canonical := by
  refine List.pairwise_flatMap.2 ⟨fun r _ => apart_carve r _, h.imp ?_⟩
  intro r r' hlt x hx y hy
  have hlast : x.last.toNat ≤ r.last.toNat := (bounds_of_mem_carve hx).2.2
  have hfirst : r'.first.toNat ≤ y.first.toNat := (bounds_of_mem_carve hy).1.1
  omega

/-! ## Complements -/

/-- Characters lie between the ranges of a canonical set that is not severed. -/
theorem Canonical.next_lt (h : s.Canonical) (hwhole : ¬s.Severed) :
    s.ranges.toList.Pairwise fun r t => Scalar.next r.last < t.first :=
  h.imp_of_mem fun hr ht hlt => next_lt_first hlt fun ⟨hlast, hfirst⟩ =>
    hwhole (severed_of_sides hr ht hlast hfirst)

/-- Whole ranges lie between the gaps, and in front of them. -/
theorem apart_gaps {r : CharRange} {rest : List CharRange} (h : CharRange.Ascending (r :: rest))
    (hnext : (r :: rest).Pairwise fun r t => Scalar.next r.last < t.first) :
    ((gaps r rest).Pairwise fun x y => x.last.toNat + 1 < y.first.toNat) ∧
      ∀ x ∈ gaps r rest, r.last < x.first := by
  induction rest generalizing r with
  | nil =>
    unfold gaps
    split
    · rename_i hlt
      have hnext : Scalar.next r.last ≤ Scalar.greatest := (Scalar.lt_iff_next_le hlt).1 hlt
      rw [CharRange.of_eq hnext]
      refine ⟨List.pairwise_singleton _ _, List.forall_mem_singleton.2 ?_⟩
      exact (Scalar.lt_iff_next_le hlt).2 (Char.le_refl _)
    · exact ⟨List.Pairwise.nil, fun x hx => by cases hx⟩
  | cons s rest ih =>
    obtain ⟨hr, htail⟩ := List.pairwise_cons.1 h
    obtain ⟨hrnext, hnext⟩ := List.pairwise_cons.1 hnext
    obtain ⟨hgaps, hbehind⟩ := ih htail hnext
    have hlt : r.last < s.first := hr s List.mem_cons_self
    have hs : s.first.toNat ≤ s.last.toNat := s.first_le_last
    have hfits : Scalar.next r.last < s.first := hrnext s List.mem_cons_self
    have hle : Scalar.next r.last ≤ Scalar.previous s.first :=
      (Scalar.lt_iff_le_previous hfits).1 hfits
    have hlow : (Scalar.previous s.first).toNat < s.first.toNat :=
      (Scalar.lt_iff_le_previous hfits).2 (Char.le_refl _)
    rw [gaps, CharRange.of_eq hle]
    refine ⟨List.Pairwise.cons (fun x hx => ?_) hgaps, List.forall_mem_cons.2 ⟨?_, fun x hx => ?_⟩⟩
    · have hhigh : s.last.toNat < x.first.toNat := hbehind x hx
      show (Scalar.previous s.first).toNat + 1 < x.first.toNat
      omega
    · exact (Scalar.lt_iff_next_le hlt).2 (Char.le_refl _)
    · have hhigh : s.last.toNat < x.first.toNat := hbehind x hx
      have hlow : r.last.toNat < s.first.toNat := hlt
      show r.last.toNat < x.first.toNat
      omega

/-- The complement of a canonical set is canonical if the set is not severed. -/
theorem Canonical.compl (h : s.Canonical) (hwhole : ¬s.Severed) : s.compl.Canonical := by
  have hnext := h.next_lt hwhole
  have hascending := s.ascending
  cases hranges : s.ranges.toList with
  | nil =>
    rw [compl_eq_any hranges]
    exact List.pairwise_singleton _ _
  | cons r rest =>
    rw [hranges] at hnext hascending
    obtain ⟨hgaps, hbehind⟩ := apart_gaps hascending hnext
    have hr : r.first.toNat ≤ r.last.toNat := r.first_le_last
    have hbefore : ∀ x ∈ (if Scalar.least < r.first then
        [CharRange.of Scalar.least (Scalar.previous r.first)] else []), x.last < r.first := by
      split
      · rename_i hlt
        rw [CharRange.of_eq ((Scalar.lt_iff_le_previous hlt).1 hlt)]
        refine List.forall_mem_singleton.2 ?_
        exact (Scalar.lt_iff_le_previous hlt).2 (Char.le_refl _)
      · exact fun x hx => by cases hx
    have houtside : (outside r rest).Pairwise fun x y => x.last.toNat + 1 < y.first.toNat := by
      refine List.pairwise_append.2 ⟨?_, hgaps, fun x hx y hy => ?_⟩
      · split
        · exact List.pairwise_singleton _ _
        · exact List.Pairwise.nil
      · have hlow : x.last.toNat < r.first.toNat := hbefore x hx
        have hhigh : r.last.toNat < y.first.toNat := hbehind y hy
        omega
    rw [compl_of_cons hranges]
    split
    · exact houtside
    · exact canonical_ofRanges _

/-! ## Severed sets -/

/-- Between two neighbours there is a gap. -/
theorem mem_gaps_of_eq_append {head r t : CharRange} {rest before behind : List CharRange}
    (h : head :: rest = before ++ r :: t :: behind) :
    CharRange.of (Scalar.next r.last) (Scalar.previous t.first) ∈ gaps head rest := by
  induction before generalizing head rest with
  | nil =>
    obtain ⟨rfl, rfl⟩ := List.cons.inj h
    exact List.mem_cons_self
  | cons x before ih =>
    obtain ⟨-, hrest⟩ := List.cons.inj h
    cases rest with
    | nil => simp at hrest
    | cons y rest => exact List.mem_cons_of_mem _ (ih hrest)

/-- Nothing lies between the two sides of the surrogates. -/
theorem le_or_le_of_sides (c : Char) : c ≤ '\uD7FF' ∨ '\uE000' ≤ c := by
  have hvalid : c.toNat.isValidChar := c.valid
  simp only [Nat.isValidChar] at hvalid
  show c.toNat ≤ 0xD7FF ∨ 0xE000 ≤ c.toNat
  omega

/-- In a severed set the ranges on the two sides of the surrogates are neighbours. -/
theorem Severed.exists_neighbours (h : s.Severed) :
    ∃ before r t behind, s.ranges.toList = before ++ r :: t :: behind ∧
      r.last = '\uD7FF' ∧ t.first = '\uE000' := by
  obtain ⟨hbefore, hafter, hjoins⟩ := h
  obtain ⟨r, hr, hcr⟩ := (test_iff s _).1 hbefore
  obtain ⟨t, ht, hct⟩ := (test_iff s _).1 hafter
  rw [← Array.mem_toList_iff] at hr ht
  have hsides : '\uD7FF' ≤ '\uE000' := by decide
  have hlast : r.last = '\uD7FF' := by
    refine Char.le_antisymm ((le_or_le_of_sides r.last).resolve_right fun hle => ?_) hcr.2
    exact hjoins ⟨r, hr, hcr, Char.le_trans hcr.1 hsides, hle⟩
  have hfirst : t.first = '\uE000' := by
    refine Char.le_antisymm hct.1 ((le_or_le_of_sides t.first).resolve_left fun hle => ?_)
    exact hjoins ⟨t, ht, ⟨hle, Char.le_trans hsides hct.2⟩, hct⟩
  have hlast' : r.last.toNat = 0xD7FF := congrArg Char.toNat hlast
  have hfirst' : t.first.toNat = 0xE000 := congrArg Char.toNat hfirst
  have hr' : r.first.toNat ≤ r.last.toNat := r.first_le_last
  have ht' : t.first.toNat ≤ t.last.toNat := t.first_le_last
  have hascending := s.ascending
  obtain ⟨before, tail, hranges⟩ := List.append_of_mem hr
  rw [hranges] at hascending ht
  obtain ⟨-, htail, hfront⟩ := List.pairwise_append.1 hascending
  obtain ⟨hnext, htail⟩ := List.pairwise_cons.1 htail
  -- the range behind `r` is `t`, as no range fits between them
  rcases List.mem_append.1 ht with ht | ht
  · have hlt : t.last.toNat < r.first.toNat := hfront t ht r List.mem_cons_self
    omega
  rcases List.mem_cons.1 ht with rfl | ht
  · omega
  cases tail with
  | nil => cases ht
  | cons x behind =>
    rcases List.mem_cons.1 ht with rfl | ht
    · exact ⟨before, r, t, behind, hranges, hlast, hfirst⟩
    · have hx : x.first.toNat ≤ x.last.toNat := x.first_le_last
      have hlow : r.last.toNat < x.first.toNat := hnext x List.mem_cons_self
      have hhigh : x.last.toNat < t.first.toNat := (List.pairwise_cons.1 htail).1 t ht
      have hvalid : x.first.toNat.isValidChar := x.first.valid
      simp only [Nat.isValidChar] at hvalid
      omega

/-- The complement of a severed set has the characters on the two sides of the surrogates, besides
the characters that are not members. -/
theorem test_compl_of_severed (h : s.Canonical) (hsevered : s.Severed) (c : Char) :
    s.compl.test c ↔ s.test c = false ∨ c = '\uD7FF' ∨ c = '\uE000' := by
  by_cases hsides : c = '\uD7FF' ∨ c = '\uE000'
  · obtain ⟨before, r, t, behind, hranges, hlast, hfirst⟩ := hsevered.exists_neighbours
    obtain ⟨head, rest, hcons⟩ : ∃ head rest, s.ranges.toList = head :: rest :=
      List.exists_cons_of_ne_nil (by simp [hranges])
    have hgap := mem_gaps_of_eq_append (hcons.symm.trans hranges)
    rw [hlast, hfirst] at hgap
    rw [test_compl_of_cons hcons]
    refine iff_of_true ⟨_, List.mem_append_right _ hgap, ?_⟩ (.inr hsides)
    rcases hsides with rfl | rfl
    · decide
    · decide
  · rw [test_compl_of_canonical h fun _ => not_or.1 hsides, Bool.not_eq_true']
    exact (or_iff_left hsides).symm

end RegexEngine.CharSet
