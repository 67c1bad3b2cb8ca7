import Mathlib.Data.List.Basic
import RegexEngine.Proofs.CharSet.Membership
import RegexEngine.Proofs.Parsing.Tokens

/-!
# Complements of canonical sets

Sets built from ranges are canonical, so a number lies between any two ranges.  It need not be
the number of a character: the surrogates lie between U+D7FF and U+E000.  A set is severed if it
has both of these characters and no range has both.  `test_compl_of_canonical` says that the
complement of a canonical set has the other characters, but for these two if the set is severed.

`Joins` says that one range holds two characters.  Adding ranges keeps what is joined, so a union
is severed only if each of its parts leaves the two characters apart.
-/

namespace RegexEngine.CharSet

/-! ## Canonical sets -/

theorem apart_insertRange (r : CharRange) {ranges : List CharRange}
    (h : ranges.Pairwise fun r t => r.last.toNat + 1 < t.first.toNat) :
    (insertRange r ranges).Pairwise fun r t => r.last.toNat + 1 < t.first.toNat := by
  induction ranges generalizing r with
  | nil => exact List.pairwise_singleton _ _
  | cons s rest ih =>
    obtain ⟨hs, hrest⟩ := List.pairwise_cons.1 h
    unfold insertRange
    split
    · exact ih _ hrest
    · rename_i htouches
      simp only [CharRange.touches, Bool.and_eq_true, decide_eq_true_eq] at htouches
      have hr : r.first.toNat ≤ r.last.toNat := r.first_le_last
      have hsle : s.first.toNat ≤ s.last.toNat := s.first_le_last
      split
      · rename_i hlt
        have hlt' : r.last.toNat < s.first.toNat := hlt
        refine List.Pairwise.cons (fun x hx => ?_) h
        rcases List.mem_cons.1 hx with rfl | hx
        · omega
        · have := hs x hx
          omega
      · rename_i hge
        have hge' : s.first.toNat ≤ r.last.toNat := Char.not_lt.1 hge
        have hlt : s.last.toNat + 1 < r.first.toNat := by omega
        exact List.Pairwise.cons (fun x hx => lt_first_of_mem_insertRange hlt hs hx) (ih r hrest)

theorem canonical_ofRanges (ranges : List CharRange) : (ofRanges ranges).Canonical := by
  show (ranges.foldr insertRange []).Pairwise _
  induction ranges with
  | nil => exact List.Pairwise.nil
  | cons r rest ih => exact apart_insertRange r ih

theorem canonical_empty : empty.Canonical :=
  List.Pairwise.nil

theorem Canonical.union {s : CharSet} (h : s.Canonical) (t : CharSet) : (s.union t).Canonical := by
  unfold CharSet.union
  split
  · exact h
  · exact canonical_ofRanges _

/-! ## Joined characters -/

variable {s t : CharSet} {a b c : Char}

/-- Whether one range holds both characters. -/
def Joins (s : CharSet) (a b : Char) : Prop :=
  ∃ r ∈ s.ranges.toList, a ∈ r ∧ b ∈ r

instance (s : CharSet) (a b : Char) : Decidable (s.Joins a b) :=
  inferInstanceAs (Decidable (∃ r ∈ s.ranges.toList, a ∈ r ∧ b ∈ r))

theorem exists_mem_insertRange_of {r : CharRange} {ranges : List CharRange}
    (h : ∃ x ∈ r :: ranges, a ∈ x ∧ b ∈ x) : ∃ x ∈ insertRange r ranges, a ∈ x ∧ b ∈ x := by
  induction ranges generalizing r with
  | nil => exact h
  | cons s rest ih =>
    obtain ⟨x, hx, ha, hb⟩ := h
    unfold insertRange
    split
    · rename_i htouches
      have hjoin (d : Char) (hd : d ∈ r ∨ d ∈ s) : d ∈ r.join s := (mem_join_iff htouches d).2 hd
      rcases List.mem_cons.1 hx with rfl | hx
      · exact ih ⟨_, List.mem_cons_self, hjoin a (.inl ha), hjoin b (.inl hb)⟩
      · rcases List.mem_cons.1 hx with rfl | hx
        · exact ih ⟨_, List.mem_cons_self, hjoin a (.inr ha), hjoin b (.inr hb)⟩
        · exact ih ⟨x, List.mem_cons_of_mem _ hx, ha, hb⟩
    · split
      · exact ⟨x, hx, ha, hb⟩
      · rcases List.mem_cons.1 hx with rfl | hx
        · obtain ⟨y, hy, hab⟩ := ih ⟨x, List.mem_cons_self, ha, hb⟩
          exact ⟨y, List.mem_cons_of_mem _ hy, hab⟩
        · rcases List.mem_cons.1 hx with rfl | hx
          · exact ⟨x, List.mem_cons_self, ha, hb⟩
          · obtain ⟨y, hy, hab⟩ := ih ⟨x, List.mem_cons_of_mem _ hx, ha, hb⟩
            exact ⟨y, List.mem_cons_of_mem _ hy, hab⟩

theorem joins_ofRanges {ranges : List CharRange} (h : ∃ x ∈ ranges, a ∈ x ∧ b ∈ x) :
    (ofRanges ranges).Joins a b := by
  show ∃ x ∈ ranges.foldr insertRange [], a ∈ x ∧ b ∈ x
  induction ranges with
  | nil => exact h
  | cons r rest ih =>
    refine exists_mem_insertRange_of ?_
    obtain ⟨x, hx, hab⟩ := h
    rcases List.mem_cons.1 hx with rfl | hx
    · exact ⟨x, List.mem_cons_self, hab⟩
    · obtain ⟨y, hy, hab'⟩ := ih ⟨x, hx, hab⟩
      exact ⟨y, List.mem_cons_of_mem _ hy, hab'⟩

/-- A union joins what one of the two sets joins. -/
theorem joins_union (h : s.Joins a b ∨ t.Joins a b) : (s.union t).Joins a b := by
  unfold union
  split
  · rename_i hsame
    rcases h with h | h
    · exact h
    · rcases Bool.or_eq_true_iff.1 hsame with hempty | heq
      · obtain ⟨r, hr, _⟩ := h
        rw [isEmpty, Array.isEmpty_iff] at hempty
        rw [hempty] at hr
        cases hr
      · rw [decide_eq_true_iff.1 heq]
        exact h
  · refine joins_ofRanges ?_
    rcases h with ⟨r, hr, hab⟩ | ⟨r, hr, hab⟩
    · exact ⟨r, List.mem_append_left _ hr, hab⟩
    · exact ⟨r, List.mem_append_right _ hr, hab⟩

/-! ## The complement -/

/-- Whether a set has the characters on both sides of the surrogates, but in different ranges. -/
def Severed (s : CharSet) : Prop :=
  s.test '\uD7FF' ∧ s.test '\uE000' ∧ ¬s.Joins '\uD7FF' '\uE000'

instance (s : CharSet) : Decidable s.Severed :=
  inferInstanceAs (Decidable (s.test '\uD7FF' ∧ s.test '\uE000' ∧ ¬s.Joins '\uD7FF' '\uE000'))

/-- A character lies between ranges with a number between them, unless they end and start at the
surrogates. -/
theorem next_lt_first {r t : CharRange} (h : r.last.toNat + 1 < t.first.toNat)
    (hsides : ¬(r.last = '\uD7FF' ∧ t.first = '\uE000')) : Scalar.next r.last < t.first := by
  have hne : ¬(r.last.toNat = 0xD7FF ∧ t.first.toNat = 0xE000) := fun heq =>
    hsides ⟨Char.toNat_inj.1 heq.1, Char.toNat_inj.1 heq.2⟩
  have hvalid : r.last.toNat.isValidChar := r.last.valid
  have hvalid' : t.first.toNat.isValidChar := t.first.valid
  simp only [Nat.isValidChar] at hvalid hvalid'
  show (Scalar.next r.last).toNat < t.first.toNat
  unfold Scalar.next
  split
  · rw [Scalar.toNat_ofNat (by decide)]
    omega
  · rw [Scalar.toNat_ofNat (by simp only [Nat.isValidChar]; omega)]
    omega

/-- Between ranges with a number between them lies what the gap has, unless they end and start at
the surrogates. -/
theorem separates_of_lt {r t : CharRange} (h : r.last.toNat + 1 < t.first.toNat)
    (hc : r.last = '\uD7FF' ∧ t.first = '\uE000' → c ≠ '\uD7FF' ∧ c ≠ '\uE000') :
    Separates c r t := by
  by_cases hsides : r.last = '\uD7FF' ∧ t.first = '\uE000'
  · obtain ⟨hlast, hfirst⟩ := hsides
    obtain ⟨hne, hne'⟩ := hc ⟨hlast, hfirst⟩
    have hne : c.toNat ≠ 0xD7FF := fun heq => hne (Char.toNat_inj.1 heq)
    have hne' : c.toNat ≠ 0xE000 := fun heq => hne' (Char.toNat_inj.1 heq)
    have hvalid : c.toNat.isValidChar := c.valid
    simp only [Nat.isValidChar] at hvalid
    have hgap : CharRange.of (Scalar.next '\uD7FF') (Scalar.previous '\uE000') =
        ⟨'\uD7FF', '\uE000', by decide⟩ := by decide
    rw [Separates, hlast, hfirst, hgap, CharRange.mem_iff]
    show (0xD7FF ≤ c.toNat ∧ c.toNat ≤ 0xE000) ↔ (0xD7FF < c.toNat ∧ c.toNat < 0xE000)
    omega
  · have hlt : r.last < t.first := show r.last.toNat < t.first.toNat by omega
    exact separates_of_next_lt hlt (next_lt_first h hsides) c

/-- Only one of the ranges of a set holds a character. -/
theorem eq_of_mem {ranges : List CharRange} (h : CharRange.Ascending ranges) {r x : CharRange}
    (hr : r ∈ ranges) (hx : x ∈ ranges) (hcr : c ∈ r) (hcx : c ∈ x) : r = x := by
  obtain ⟨i, hi, rfl⟩ := List.mem_iff_getElem.1 hr
  obtain ⟨j, hj, rfl⟩ := List.mem_iff_getElem.1 hx
  have apart {r x : CharRange} (hlt : r.last < x.first) (hcr : c ∈ r) : c ∉ x := fun hcx =>
    Char.not_lt.2 (Char.le_trans hcx.1 hcr.2) hlt
  rcases Nat.lt_trichotomy i j with hij | rfl | hij
  · exact absurd hcx (apart (List.pairwise_iff_getElem.1 h i j hi hj hij) hcr)
  · rfl
  · exact absurd hcr (apart (List.pairwise_iff_getElem.1 h j i hj hi hij) hcx)

/-- A set is severed if one range ends and another one starts at the surrogates. -/
theorem severed_of_sides {r t : CharRange} (hr : r ∈ s.ranges.toList) (ht : t ∈ s.ranges.toList)
    (hlast : r.last = '\uD7FF') (hfirst : t.first = '\uE000') : s.Severed := by
  have hmem {c : Char} {x : CharRange} (hx : x ∈ s.ranges.toList) (hcx : c ∈ x) : s.test c :=
    (test_iff s c).2 ⟨x, Array.mem_toList_iff.1 hx, hcx⟩
  refine ⟨hlast ▸ hmem hr r.last_mem, hfirst ▸ hmem ht t.first_mem, ?_⟩
  rintro ⟨x, hx, hbefore, hafter⟩
  obtain rfl : r = x := eq_of_mem s.ascending hr hx r.last_mem (hlast ▸ hbefore)
  have hle : '\uE000' ≤ '\uD7FF' := hlast ▸ hafter.2
  exact absurd hle (by decide)

/-- The complement of a canonical set has the characters that are not members.  If the set is
severed, this is not said of the characters on the two sides of the surrogates. -/
theorem test_compl_of_canonical (h : s.Canonical)
    (hc : s.Severed → c ≠ '\uD7FF' ∧ c ≠ '\uE000') : s.compl.test c = !s.test c :=
  test_compl (h.imp_of_mem fun hr ht hlt => separates_of_lt hlt fun ⟨hlast, hfirst⟩ =>
    hc (severed_of_sides hr ht hlast hfirst))

/-! ## Sets without complement -/

/-- Ranges in ascending order, of which there are two, are these two. -/
theorem eq_pair_of_ascending {ranges : List CharRange} {x y : CharRange}
    (h : CharRange.Ascending ranges) (hlt : x.last < y.first) (hall : ∀ r ∈ ranges, r = x ∨ r = y)
    (hx : x ∈ ranges) (hy : y ∈ ranges) : ranges = [x, y] := by
  have hxle : x.first ≤ x.last := x.first_le_last
  have hyle : y.first ≤ y.last := y.first_le_last
  cases ranges with
  | nil => cases hx
  | cons r rest =>
    obtain ⟨hr, hrest⟩ := List.forall_mem_cons.1 hall
    obtain ⟨hfirst, hlater⟩ := List.pairwise_cons.1 h
    have hne : x ≠ y := by
      rintro rfl
      grind
    obtain rfl : x = r := by
      rcases List.mem_cons.1 hx with rfl | hx
      · rfl
      · obtain rfl := hr.resolve_left fun heq => by
          have := hfirst x hx
          grind
        have := hfirst x hx
        grind
    have hy := (List.mem_cons.1 hy).resolve_left hne.symm
    have hall : ∀ s ∈ rest, s = y := by
      intro s hs
      refine (hrest s hs).resolve_left fun heq => ?_
      have := hfirst s hs
      grind
    cases rest with
    | nil => cases hy
    | cons s rest =>
      obtain rfl := hall s List.mem_cons_self
      obtain rfl : rest = [] := by
        refine List.eq_nil_iff_forall_not_mem.2 fun t ht => ?_
        obtain rfl := hall t (List.mem_cons_of_mem _ ht)
        have := (List.pairwise_cons.1 hlater).1 t ht
        grind
      rfl

/-- The characters on the two sides of the surrogates. -/
def sides : CharSet :=
  ofRanges [.single '\uD7FF', .single '\uE000']

/-- A severed set of no other characters is that of the two characters. -/
theorem eq_sides_of_severed (h : s.Severed) (hall : ∀ c, s.test c → c = '\uD7FF' ∨ c = '\uE000') :
    s = sides := by
  have hmem {c : Char} {r : CharRange} (hr : r ∈ s.ranges.toList) (hcr : c ∈ r) : s.test c :=
    (test_iff s c).2 ⟨r, Array.mem_toList_iff.1 hr, hcr⟩
  have hsingle : ∀ r ∈ s.ranges.toList, r = .single '\uD7FF' ∨ r = .single '\uE000' := by
    intro r hr
    have hfirst := hall _ (hmem hr r.first_mem)
    have hlast := hall _ (hmem hr r.last_mem)
    have hjoins : ¬('\uD7FF' ∈ r ∧ '\uE000' ∈ r) := fun hboth => h.2.2 ⟨r, hr, hboth⟩
    obtain ⟨first, last, hle⟩ := r
    dsimp only at hfirst hlast
    rcases hfirst with rfl | rfl <;> rcases hlast with rfl | rfl
    · exact .inl rfl
    · exact absurd ⟨CharRange.first_mem _, CharRange.last_mem _⟩ hjoins
    · exact absurd hle (by decide)
    · exact .inr rfl
  have hbefore : CharRange.single '\uD7FF' ∈ s.ranges.toList := by
    obtain ⟨r, hr, hcr⟩ := (test_iff s _).1 h.1
    rcases hsingle r (Array.mem_toList_iff.2 hr) with rfl | rfl
    · exact Array.mem_toList_iff.2 hr
    · exact absurd hcr (by decide)
  have hafter : CharRange.single '\uE000' ∈ s.ranges.toList := by
    obtain ⟨r, hr, hcr⟩ := (test_iff s _).1 h.2.1
    rcases hsingle r (Array.mem_toList_iff.2 hr) with rfl | rfl
    · exact absurd hcr (by decide)
    · exact Array.mem_toList_iff.2 hr
  exact eq_of_toList_ranges (eq_pair_of_ascending s.ascending (by decide) hsingle hbefore hafter)

/-- The complement of a canonical set with members is not the set of every character. -/
theorem compl_ne_any (h : s.Canonical) (hc : s.test c) : s.compl ≠ any := by
  intro heq
  have hnot {d : Char} (hd : s.test d) (hwhole : s.Severed → d ≠ '\uD7FF' ∧ d ≠ '\uE000') :
      False := by
    have hcompl := test_compl_of_canonical h hwhole
    rw [heq, test_any, hd] at hcompl
    cases hcompl
  by_cases hsevered : s.Severed
  · have hsides : s = sides := by
      refine eq_sides_of_severed hsevered fun d hd => ?_
      by_contra hne
      exact hnot hd fun _ => not_or.1 hne
    rw [hsides] at heq
    exact absurd heq (by decide)
  · exact hnot hc fun hsevered' => absurd hsevered' hsevered

end RegexEngine.CharSet
