import Mathlib.Data.List.Basic
import RegexEngine.Look

/-!
# Members of character sets

`CharSet.test` decides membership by bisection.  `test_iff` says what it
decides: a character is a member if it lies in one of the ranges.

There are four groups.

* Bisection.  `search_iff` is the invariant of the search, and it needs that the
  ranges are in ascending order.
* The set operations.  `test_union`, `test_inter` and `test_diff` say what the
  members of a result are; `isEmpty_iff` and `overlaps_iff` say what the queries
  mean.
* The complement.  `test_compl` says what its members are, if each gap between two ranges has what
  lies between them.
* The categories.  `test_members_iff` says that each character belongs to the
  members of just one category.
-/

namespace RegexEngine.CharSet

/-! ## Bisection -/

/-- The search finds a range among those with indices from `lo` up to `hi`. -/
theorem search_iff {ranges : Array CharRange} (h : CharRange.Ascending ranges.toList) (c : Char)
    (lo hi : Nat) (hhi : hi ≤ ranges.size) :
    search ranges c lo hi ↔ ∃ i, lo ≤ i ∧ i < hi ∧ ∃ r, ranges[i]? = some r ∧ c ∈ r := by
  have order {i j : Nat} {r s : CharRange} (hij : i < j) (hr : ranges[i]? = some r)
      (hs : ranges[j]? = some s) : r.last < s.first := by
    obtain ⟨hi', rfl⟩ := Array.getElem?_eq_some_iff.1 hr
    obtain ⟨hj', rfl⟩ := Array.getElem?_eq_some_iff.1 hs
    exact List.pairwise_iff_getElem.1 h i j (by simpa using hi') (by simpa using hj') hij
  fun_induction search ranges c lo hi with
  | case1 lo hi hlt hnone =>
    have := Array.getElem?_eq_none_iff.1 hnone
    omega
  | case2 lo hi hlt r hr hlast ih =>
    refine (ih hhi).trans ?_
    constructor
    · rintro ⟨i, hlo, hi', hex⟩
      exact ⟨i, by omega, hi', hex⟩
    · rintro ⟨i, hlo, hi', s, hs, hcs⟩
      refine ⟨i, ?_, hi', s, hs, hcs⟩
      by_contra hle
      have hsr : s.last ≤ r.last := by
        rcases Nat.lt_or_ge i ((lo + hi) / 2) with hlt' | hge
        · have := order hlt' hs hr
          have := r.first_le_last
          grind
        · obtain rfl : i = (lo + hi) / 2 := by omega
          obtain rfl := Option.some.inj (hs.symm.trans hr)
          exact Char.le_refl _
      have := hcs.2
      grind
  | case3 lo hi hlt r hr hlast hfirst ih =>
    refine (ih (by omega)).trans ?_
    constructor
    · rintro ⟨i, hlo, hi', hex⟩
      exact ⟨i, hlo, by omega, hex⟩
    · rintro ⟨i, hlo, hi', s, hs, hcs⟩
      refine ⟨i, hlo, ?_, s, hs, hcs⟩
      by_contra hle
      have hrs : r.first ≤ s.first := by
        rcases Nat.lt_or_ge ((lo + hi) / 2) i with hlt' | hge
        · have := order hlt' hr hs
          have := r.first_le_last
          grind
        · obtain rfl : i = (lo + hi) / 2 := by omega
          obtain rfl := Option.some.inj (hs.symm.trans hr)
          exact Char.le_refl _
      have := hcs.1
      grind
  | case4 lo hi hlt r hr hlast hfirst =>
    simp only [true_iff]
    exact ⟨(lo + hi) / 2, by omega, by omega, r, hr, Char.not_lt.1 hfirst, Char.not_lt.1 hlast⟩
  | case5 lo hi hge =>
    simp only [Bool.false_eq_true, false_iff]
    rintro ⟨i, hlo, hi', _⟩
    omega

/-- A character is a member if it lies in one of the ranges. -/
theorem test_iff (s : CharSet) (c : Char) : s.test c ↔ ∃ r ∈ s.ranges, c ∈ r := by
  rw [test, search_iff s.ascending c 0 s.ranges.size (Nat.le_refl _)]
  constructor
  · rintro ⟨i, _, _, r, hr, hc⟩
    exact ⟨r, Array.mem_of_getElem? hr, hc⟩
  · rintro ⟨r, hr, hc⟩
    obtain ⟨i, hi, rfl⟩ := Array.mem_iff_getElem.1 hr
    exact ⟨i, Nat.zero_le _, hi, _, Array.getElem?_eq_getElem hi, hc⟩

/-! ## The set operations -/

theorem mem_join_iff {r s : CharRange} (h : r.touches s) (c : Char) :
    c ∈ r.join s ↔ c ∈ r ∨ c ∈ s := by
  simp only [CharRange.touches, Bool.and_eq_true, decide_eq_true_eq] at h
  simp only [CharRange.mem_iff, CharRange.join]
  have le_iff (a b : Char) : a ≤ b ↔ a.toNat ≤ b.toNat := Iff.rfl
  have := r.first_le_last
  have := s.first_le_last
  simp only [le_iff] at *
  split <;> split <;> omega

theorem exists_mem_insertRange_iff (r : CharRange) (ranges : List CharRange) (c : Char) :
    (∃ x ∈ insertRange r ranges, c ∈ x) ↔ c ∈ r ∨ ∃ x ∈ ranges, c ∈ x := by
  induction ranges generalizing r with
  | nil => simp [insertRange]
  | cons s rest ih =>
    unfold insertRange
    split
    · rename_i htouches
      rw [ih, mem_join_iff htouches]
      simp [or_assoc]
    · split
      · simp
      · simp only [List.exists_mem_cons_iff, ih]
        exact or_left_comm

@[simp] theorem test_ofRanges (ranges : List CharRange) (c : Char) :
    (ofRanges ranges).test c ↔ ∃ r ∈ ranges, c ∈ r := by
  rw [test_iff]
  show (∃ r ∈ (ranges.foldr insertRange []).toArray, c ∈ r) ↔ _
  simp only [List.mem_toArray]
  induction ranges with
  | nil => simp
  | cons r rest ih =>
    rw [List.foldr_cons, exists_mem_insertRange_iff, ih]
    simp

@[simp] theorem test_empty (c : Char) : empty.test c = false := by
  rw [Bool.eq_false_iff, Ne, test_iff]
  simp [empty]

theorem test_ofRange {a b : Char} (h : a ≤ b) (c : Char) :
    (ofRange a b).test c ↔ a ≤ c ∧ c ≤ b := by
  rw [test_iff]
  simp [ofRange, CharRange.mem_of h]

@[simp] theorem test_ofChar (c d : Char) : (ofChar c).test d = decide (d = c) := by
  rw [Bool.eq_iff_iff, ofChar, test_ofRange (Char.le_refl c), decide_eq_true_iff]
  grind

@[simp] theorem test_any (c : Char) : any.test c = true := by
  have hc : c.toNat.isValidChar := c.valid
  simp only [Nat.isValidChar] at hc
  have hgreatest : Scalar.greatest.toNat = 0x10FFFF := rfl
  refine (test_ofRange (by decide) c).2 ⟨Nat.zero_le _, ?_⟩
  show c.toNat ≤ Scalar.greatest.toNat
  omega

/-- A set has no members if the list of its ranges is empty. -/
theorem isEmpty_iff (s : CharSet) : s.isEmpty ↔ ∀ c, s.test c = false := by
  constructor
  · intro h c
    rw [Bool.eq_false_iff, Ne, test_iff]
    simp [Array.isEmpty_iff.1 h]
  · intro h
    rw [isEmpty, Array.isEmpty_iff, ← Array.toList_eq_nil_iff]
    cases hs : s.ranges.toList with
    | nil => rfl
    | cons r rest =>
      have hr : s.test r.first :=
        (test_iff s _).2 ⟨r, by simp [← Array.mem_toList_iff, hs], r.first_mem⟩
      rw [h] at hr
      cases hr

theorem exists_test {s : CharSet} (h : s.isEmpty = false) : ∃ c, s.test c := by
  by_contra hnone
  rw [Bool.eq_false_iff, Ne, isEmpty_iff] at h
  exact h fun c => Bool.eq_false_iff.2 fun hc => hnone ⟨c, hc⟩

@[simp] theorem test_union (s t : CharSet) (c : Char) :
    (s.union t).test c = (s.test c || t.test c) := by
  unfold union
  split
  · rename_i h
    rcases Bool.or_eq_true_iff.1 h with hempty | heq
    · rw [(isEmpty_iff t).1 hempty, Bool.or_false]
    · rw [decide_eq_true_iff.1 heq, Bool.or_self]
  · rw [Bool.eq_iff_iff, test_ofRanges, Bool.or_eq_true, test_iff, test_iff]
    simp only [List.mem_append, Array.mem_toList_iff, or_and_right, exists_or]

@[simp] theorem test_inter (s t : CharSet) (c : Char) :
    (s.inter t).test c = (s.test c && t.test c) := by
  rw [Bool.eq_iff_iff, Bool.and_eq_true, test_iff, test_iff, test_iff]
  simp only [inter, List.mem_toArray, List.mem_flatMap, List.mem_filterMap, Array.mem_toList_iff]
  constructor
  · rintro ⟨x, ⟨r, hr, r', hr', hx⟩, hc⟩
    obtain ⟨hcr, hcr'⟩ := CharRange.exists_mem_inter?_iff.1 ⟨x, hx, hc⟩
    exact ⟨⟨r, hr, hcr⟩, r', hr', hcr'⟩
  · rintro ⟨⟨r, hr, hcr⟩, r', hr', hcr'⟩
    obtain ⟨x, hx, hc⟩ := CharRange.exists_mem_inter?_iff.2 ⟨hcr, hcr'⟩
    exact ⟨x, ⟨r, hr, r', hr', hx⟩, hc⟩

theorem mem_carve_cons_iff {r s x : CharRange} {rest : List CharRange} :
    x ∈ carve r (s :: rest) ↔
      r.below? s = some x ∨ ∃ above, r.above? s = some above ∧ x ∈ carve above rest := by
  rw [carve, List.mem_append, Option.mem_toList]
  cases r.above? s <;> simp

theorem exists_mem_carve_iff {r : CharRange} {ranges : List CharRange}
    (h : CharRange.Ascending ranges) (c : Char) :
    (∃ x ∈ carve r ranges, c ∈ x) ↔ c ∈ r ∧ ∀ s ∈ ranges, c ∉ s := by
  induction ranges generalizing r with
  | nil => simp [carve]
  | cons s rest ih =>
    obtain ⟨hs, hrest⟩ := List.pairwise_cons.1 h
    have hsplit : (∃ x ∈ carve r (s :: rest), c ∈ x) ↔
        (c ∈ r ∧ c < s.first) ∨ (c ∈ r ∧ s.last < c) ∧ ∀ t ∈ rest, c ∉ t := by
      rw [← CharRange.exists_mem_below?_iff, ← CharRange.exists_mem_above?_iff]
      simp only [mem_carve_cons_iff, or_and_right, exists_or]
      refine or_congr_right ?_
      constructor
      · rintro ⟨x, ⟨above, habove, hx⟩, hc⟩
        obtain ⟨hcabove, hall⟩ := (ih hrest).1 ⟨x, hx, hc⟩
        exact ⟨⟨above, habove, hcabove⟩, hall⟩
      · rintro ⟨⟨above, habove, hc⟩, hall⟩
        obtain ⟨x, hx, hcx⟩ := (ih hrest).2 ⟨hc, hall⟩
        exact ⟨x, ⟨above, habove, hx⟩, hcx⟩
    rw [hsplit, List.forall_mem_cons]
    have := s.first_le_last
    constructor
    · rintro (⟨hr, hlt⟩ | ⟨⟨hr, hlt⟩, hall⟩)
      · refine ⟨hr, fun hcs => ?_, fun t ht hct => ?_⟩
        · have := hcs.1
          grind
        · have := hs t ht
          have := hct.1
          grind
      · refine ⟨hr, fun hcs => ?_, hall⟩
        have := hcs.2
        grind
    · rintro ⟨hr, hns, hall⟩
      rcases Char.le_total s.first c with hle | hle
      · refine Or.inr ⟨⟨hr, Char.not_le.1 fun hlast => hns ⟨hle, hlast⟩⟩, hall⟩
      · refine Or.inl ⟨hr, Char.not_le.1 fun hfirst => hns ⟨hfirst, ?_⟩⟩
        exact Char.le_trans hle s.first_le_last

@[simp] theorem test_diff (s t : CharSet) (c : Char) :
    (s.diff t).test c = (s.test c && !t.test c) := by
  rw [Bool.eq_iff_iff, Bool.and_eq_true, Bool.not_eq_true', Bool.eq_false_iff, Ne, test_iff,
    test_iff, test_iff]
  simp only [diff, List.mem_toArray, List.mem_flatMap, Array.mem_toList_iff]
  constructor
  · rintro ⟨x, ⟨r, hr, hx⟩, hc⟩
    obtain ⟨hcr, hcut⟩ := (exists_mem_carve_iff t.ascending c).1 ⟨x, hx, hc⟩
    refine ⟨⟨r, hr, hcr⟩, ?_⟩
    rintro ⟨r', hr', hcr'⟩
    exact hcut r' (Array.mem_toList_iff.2 hr') hcr'
  · rintro ⟨⟨r, hr, hcr⟩, hcut⟩
    obtain ⟨x, hx, hc⟩ := (exists_mem_carve_iff t.ascending c).2
      ⟨hcr, fun r' hr' hcr' => hcut ⟨r', Array.mem_toList_iff.1 hr', hcr'⟩⟩
    exact ⟨x, ⟨r, hr, hx⟩, hc⟩

/-- Two sets overlap if they have a common member. -/
theorem overlaps_iff (s t : CharSet) : s.overlaps t ↔ ∃ c, s.test c ∧ t.test c := by
  rw [overlaps, Bool.not_eq_true', Bool.eq_false_iff, Ne, isEmpty_iff]
  simp

/-! ## The complement -/

theorem le_greatest (c : Char) : c ≤ Scalar.greatest := by
  have hc : c.toNat.isValidChar := c.valid
  have hgreatest : Scalar.greatest.toNat = 0x10FFFF := rfl
  simp only [Nat.isValidChar] at hc
  show c.toNat ≤ Scalar.greatest.toNat
  omega

theorem least_le (c : Char) : Scalar.least ≤ c :=
  Nat.zero_le c.toNat

/-- Whether what `gaps` puts between two ranges has `c` just where `c` lies between them.  Ranges on
the two sides of the surrogates have nothing between them, and the gap has their bounds. -/
def Separates (c : Char) (r s : CharRange) : Prop :=
  c ∈ CharRange.of (Scalar.next r.last) (Scalar.previous s.first) ↔ r.last < c ∧ c < s.first

/-- If a character fits between two ranges, the gap has the characters between them. -/
theorem separates_of_next_lt {r s : CharRange} (h : r.last < s.first)
    (hnext : Scalar.next r.last < s.first) (c : Char) : Separates c r s := by
  have hle : Scalar.next r.last ≤ Scalar.previous s.first :=
    (Scalar.lt_iff_le_previous hnext).1 hnext
  rw [Separates, CharRange.mem_of hle, ← Scalar.lt_iff_next_le h, ← Scalar.lt_iff_le_previous hnext]

/-- The gaps hold what lies above the first range and in none of the others. -/
theorem exists_mem_gaps_iff {r : CharRange} {rest : List CharRange} {c : Char}
    (h : CharRange.Ascending (r :: rest)) (hgap : (r :: rest).Pairwise (Separates c)) :
    (∃ x ∈ gaps r rest, c ∈ x) ↔ r.last < c ∧ ∀ s ∈ rest, c ∉ s := by
  induction rest generalizing r with
  | nil =>
    simp only [gaps, List.not_mem_nil, false_implies, implies_true, and_true]
    split
    · rename_i hlt
      have hle := (Scalar.lt_iff_next_le hlt).1 hlt
      simp only [List.mem_singleton, exists_eq_left]
      rw [CharRange.mem_of hle, ← Scalar.lt_iff_next_le hlt]
      exact and_iff_left (le_greatest c)
    · rename_i hge
      have := le_greatest c
      simp only [List.not_mem_nil, false_and, exists_false, false_iff]
      grind
  | cons s rest ih =>
    obtain ⟨hr, htail⟩ := List.pairwise_cons.1 h
    obtain ⟨hrgap, htailgap⟩ := List.pairwise_cons.1 hgap
    have hlt : r.last < s.first := hr s (by simp)
    have hbetween : Separates c r s := hrgap s (by simp)
    rw [Separates] at hbetween
    rw [gaps, List.exists_mem_cons_iff, ih htail htailgap, hbetween, List.forall_mem_cons]
    have hs := s.first_le_last
    constructor
    · rintro (⟨hlow, hhigh⟩ | ⟨hlow, hrest⟩)
      · refine ⟨hlow, fun hcs => ?_, fun t ht hct => ?_⟩
        · have := hcs.1
          grind
        · have := (List.pairwise_cons.1 htail).1 t ht
          have := hct.1
          grind
      · refine ⟨by grind, fun hcs => ?_, hrest⟩
        have := hcs.2
        grind
    · rintro ⟨hlow, hns, hrest⟩
      rcases Char.le_total s.first c with hle' | hle'
      · exact Or.inr ⟨Char.not_le.1 fun hlast => hns ⟨hle', hlast⟩, hrest⟩
      · refine Or.inl ⟨hlow, Char.not_le.1 fun hfirst => hns ⟨hfirst, ?_⟩⟩
        exact Char.le_trans hle' hs

/-- The ranges outside of ascending ranges, of which `r` is the first. -/
def outside (r : CharRange) (rest : List CharRange) : List CharRange :=
  (if Scalar.least < r.first then [CharRange.of Scalar.least (Scalar.previous r.first)] else []) ++
    gaps r rest

theorem compl_eq_any {s : CharSet} (h : s.ranges.toList = []) : s.compl = any := by
  unfold compl
  rw [h]

theorem compl_of_cons {s : CharSet} {r : CharRange} {rest : List CharRange}
    (h : s.ranges.toList = r :: rest) :
    s.compl = if h : CharRange.inOrder (outside r rest) then
      ⟨(outside r rest).toArray, CharRange.ascending_of_inOrder h⟩
    else ofRanges (outside r rest) := by
  unfold compl
  split
  · rename_i hnil
    rw [h] at hnil
    cases hnil
  · rename_i hcons
    obtain ⟨rfl, rfl⟩ := List.cons.inj (h.symm.trans hcons)
    rfl

/-- The members of the complement lie in the ranges outside. -/
theorem test_compl_of_cons {s : CharSet} {r : CharRange} {rest : List CharRange}
    (h : s.ranges.toList = r :: rest) (c : Char) :
    s.compl.test c ↔ ∃ x ∈ outside r rest, c ∈ x := by
  rw [compl_of_cons h]
  split
  · rw [test_iff]
    simp only [List.mem_toArray]
  · exact test_ofRanges _ _

/-- The complement has the characters that are not members, where the gaps between the ranges
have them. -/
theorem test_compl {s : CharSet} {c : Char} (h : s.ranges.toList.Pairwise (Separates c)) :
    s.compl.test c = !s.test c := by
  have hs := test_iff s c
  simp only [← Array.mem_toList_iff] at hs
  have hascending := s.ascending
  cases hranges : s.ranges.toList with
  | nil =>
    simp only [hranges, List.not_mem_nil, false_and, exists_false, iff_false] at hs
    rw [compl_eq_any hranges, test_any, Bool.eq_false_iff.2 hs, Bool.not_false]
  | cons r rest =>
    rw [hranges] at hs h hascending
    have hbefore : (∃ x ∈ (if Scalar.least < r.first then
        [CharRange.of Scalar.least (Scalar.previous r.first)] else []), c ∈ x) ↔
        c < r.first := by
      split
      · rename_i hlt
        have hle := (Scalar.lt_iff_le_previous hlt).1 hlt
        simp only [List.mem_singleton, exists_eq_left]
        rw [CharRange.mem_of hle, ← Scalar.lt_iff_le_previous hlt]
        exact and_iff_right (least_le c)
      · have := least_le c
        simp only [List.not_mem_nil, false_and, exists_false, false_iff]
        grind
    rw [Bool.eq_iff_iff, test_compl_of_cons hranges, Bool.not_eq_true', Bool.eq_false_iff, Ne, hs]
    simp only [outside, List.mem_append, or_and_right, exists_or]
    rw [hbefore, exists_mem_gaps_iff hascending h, List.exists_mem_cons_iff, not_or]
    have hr := r.first_le_last
    constructor
    · rintro (hlt | ⟨hlt, hrest⟩)
      · refine ⟨fun hc => ?_, fun ⟨t, ht, hc⟩ => ?_⟩
        · have := hc.1
          grind
        · have := (List.pairwise_cons.1 hascending).1 t ht
          have := hc.1
          grind
      · refine ⟨fun hc => ?_, fun ⟨t, ht, hc⟩ => hrest t ht hc⟩
        have := hc.2
        grind
    · rintro ⟨hout, hrest⟩
      rcases Char.le_total r.first c with hle | hle
      · refine Or.inr ⟨Char.not_le.1 fun hlast => hout ⟨hle, hlast⟩, fun t ht hc => ?_⟩
        exact hrest ⟨t, ht, hc⟩
      · exact Or.inl (Char.not_le.1 fun hfirst => hout ⟨hfirst, Char.le_trans hle hr⟩)

/-- The complement has the characters that are not members, if a character fits between any two
neighbouring ranges. -/
theorem test_compl_of_next_lt {s : CharSet}
    (h : s.ranges.toList.Pairwise fun r s => Scalar.next r.last < s.first) (c : Char) :
    s.compl.test c = !s.test c :=
  test_compl (s.ascending.imp₂ (fun _ _ hlt hnext => separates_of_next_lt hlt hnext c) h)

end RegexEngine.CharSet

namespace RegexEngine.Category

/-! ## The categories -/

theorem test_other (c : Char) :
    other.members.test c = (!CharSet.word.test c && !CharSet.lineTerminators.test c) := by
  have hgap : (CharSet.word.union CharSet.lineTerminators).ranges.toList.Pairwise
      fun r s => Scalar.next r.last < s.first := by decide
  show (CharSet.word.union CharSet.lineTerminators).compl.test c = _
  rw [CharSet.test_compl_of_next_lt hgap, CharSet.test_union, Bool.not_or]

/-- No line terminator is a word character. -/
theorem word_of_lineTerminator {c : Char} (h : CharSet.lineTerminators.test c) :
    CharSet.word.test c = false := by
  have hdisjoint : (CharSet.word.inter CharSet.lineTerminators).isEmpty := by decide
  have := (CharSet.isEmpty_iff _).1 hdisjoint c
  rw [CharSet.test_inter, h, Bool.and_true] at this
  exact this

/-- A character is a member of its own category only. -/
theorem test_members_iff (k : Category) (c : Char) : k.members.test c ↔ of c = k := by
  have hother := test_other c
  have hdisjoint := word_of_lineTerminator (c := c)
  unfold of
  cases k with
  | edge =>
    rw [members, CharSet.test_empty]
    split <;> simp
    split <;> simp
  | word =>
    show CharSet.word.test c ↔ _
    split <;> simp_all
    split <;> simp
  | lineTerminator =>
    show CharSet.lineTerminators.test c ↔ _
    split <;> simp_all
  | other =>
    rw [hother]
    split <;> simp_all

/-- The category of a character is not that of an edge. -/
theorem of_mem_ofCharacters (c : Char) : of c ∈ ofCharacters := by
  unfold of
  split
  · simp [ofCharacters]
  · split <;> simp [ofCharacters]

end RegexEngine.Category
