import RegexEngine.CharSet.Range

/-!
# Sets of characters

A `CharSet` lists ranges in ascending order, and membership is decided by
bisection.  Sets built from ranges are canonical: ranges that touch have been
joined, so a set has one form.  Each operation comes with the proof that it
keeps the order.

* `CharSet.ofRanges`, `CharSet.ofRange`, `CharSet.ofChar` and
  `CharSet.ofChars` build sets.
* `CharSet.union`, `CharSet.inter`, `CharSet.diff` and `CharSet.compl` are the
  set operations.
* `CharSet.test` decides membership.  `CharSet.includes` and
  `CharSet.overlaps` compare two sets.
-/

namespace RegexEngine

/-- A set of characters, as ascending ranges. -/
structure CharSet where
  /-- The ranges of members. -/
  ranges : Array CharRange
  /-- The ranges are in order and do not overlap. -/
  ascending : CharRange.Ascending ranges.toList
deriving DecidableEq, Repr

namespace CharSet

/-! ## Building sets -/

/-- Adds a range to a list of ranges, joining all that touch it. -/
def insertRange (r : CharRange) : List CharRange → List CharRange
  | [] => [r]
  | s :: rest =>
    if r.touches s then insertRange (r.join s) rest
    else if r.last < s.first then r :: s :: rest
    else s :: insertRange r rest

theorem lt_first_of_mem_insertRange {n : Nat} {r x : CharRange} {ranges : List CharRange}
    (hr : n < r.first.toNat) (hranges : ∀ s ∈ ranges, n < s.first.toNat)
    (h : x ∈ insertRange r ranges) : n < x.first.toNat := by
  induction ranges generalizing r with
  | nil => grind [insertRange]
  | cons s rest ih =>
    have hs : n < s.first.toNat := hranges s (by simp)
    have hrest : ∀ t ∈ rest, n < t.first.toNat := fun t ht => hranges t (by simp [ht])
    unfold insertRange at h
    split at h
    · refine ih ?_ hrest h
      show n < (if r.first ≤ s.first then r.first else s.first).toNat
      split <;> assumption
    · split at h
      · grind
      · rcases List.mem_cons.1 h with rfl | h
        · exact hs
        · exact ih hr hrest h

/-- Adding a range keeps ranges in ascending order. -/
theorem ascending_insertRange (r : CharRange) {ranges : List CharRange}
    (h : CharRange.Ascending ranges) : CharRange.Ascending (insertRange r ranges) := by
  induction ranges generalizing r with
  | nil => exact List.pairwise_singleton _ _
  | cons s rest ih =>
    obtain ⟨hs, hrest⟩ := List.pairwise_cons.1 h
    unfold insertRange
    split
    · exact ih _ hrest
    · rename_i htouches
      split
      · rename_i hlt
        refine List.Pairwise.cons ?_ h
        intro x hx
        rcases List.mem_cons.1 hx with rfl | hx
        · exact hlt
        · have := hs x hx
          have := s.first_le_last
          grind
      · rename_i hge
        have hlt : s.last < r.first := by
          have hle : s.first.toNat ≤ r.last.toNat := Char.not_lt.1 hge
          simp only [CharRange.touches, Bool.and_eq_true, decide_eq_true_eq] at htouches
          show s.last.toNat < r.first.toNat
          omega
        exact List.Pairwise.cons (fun x hx => lt_first_of_mem_insertRange hlt hs hx) (ih r hrest)

theorem ascending_foldr_insertRange (ranges : List CharRange) :
    CharRange.Ascending (ranges.foldr insertRange []) := by
  induction ranges with
  | nil => exact List.Pairwise.nil
  | cons r rest ih => exact ascending_insertRange r ih

/-- The set of the members of any ranges, in any order. -/
def ofRanges (ranges : List CharRange) : CharSet where
  ranges := (ranges.foldr insertRange []).toArray
  ascending := ascending_foldr_insertRange ranges

/-- The set without members. -/
def empty : CharSet where
  ranges := #[]
  ascending := List.Pairwise.nil

instance : EmptyCollection CharSet := ⟨empty⟩

instance : Inhabited CharSet := ⟨empty⟩

/-- The set of the characters between two bounds given in either order. -/
def ofRange (a b : Char) : CharSet where
  ranges := #[CharRange.of a b]
  ascending := List.pairwise_singleton _ _

/-- The set of every character. -/
def any : CharSet :=
  ofRange Scalar.least Scalar.greatest

/-- The set whose only member is `c`. -/
def ofChar (c : Char) : CharSet :=
  ofRange c c

/-- The set of the given characters. -/
def ofChars (chars : List Char) : CharSet :=
  ofRanges (chars.map CharRange.single)

/-! ## Queries -/

/-- Looks for a range that holds `c` among the ranges with indices from `lo`
up to `hi`. -/
def search (ranges : Array CharRange) (c : Char) (lo hi : Nat) : Bool :=
  if lo < hi then
    match ranges[(lo + hi) / 2]? with
    | none => false
    | some r =>
      if r.last < c then search ranges c ((lo + hi) / 2 + 1) hi
      else if c < r.first then search ranges c lo ((lo + hi) / 2)
      else true
  else
    false
termination_by hi - lo

/-- Whether `c` is a member. -/
def test (s : CharSet) (c : Char) : Bool :=
  search s.ranges c 0 s.ranges.size

/-- Whether the set has no members. -/
def isEmpty (s : CharSet) : Bool :=
  s.ranges.isEmpty

/-- The only member of a set that has just one. -/
def single? (s : CharSet) : Option Char :=
  match s.ranges.toList with
  | [r] => if r.first = r.last then some r.first else none
  | _ => none

/-! ## Set operations -/

/-- The members of either set. -/
def union (s t : CharSet) : CharSet :=
  if t.isEmpty || s = t then s else ofRanges (s.ranges.toList ++ t.ranges.toList)

theorem ascending_inter (s t : CharSet) : CharRange.Ascending
    (s.ranges.toList.flatMap fun r => t.ranges.toList.filterMap r.inter?) := by
  refine List.pairwise_flatMap.2 ⟨?_, s.ascending.imp ?_⟩
  · intro r _
    refine List.pairwise_filterMap.2 (t.ascending.imp ?_)
    intro x x' hlt y hy y' hy'
    have := CharRange.bounds_of_inter? hy
    have := CharRange.bounds_of_inter? hy'
    grind [CharRange.mem_iff]
  · intro r r' hlt y hy y' hy'
    obtain ⟨x, _, hx⟩ := List.mem_filterMap.1 hy
    obtain ⟨x', _, hx'⟩ := List.mem_filterMap.1 hy'
    have := CharRange.bounds_of_inter? hx
    have := CharRange.bounds_of_inter? hx'
    grind [CharRange.mem_iff]

/-- The members of both sets. -/
def inter (s t : CharSet) : CharSet where
  ranges := (s.ranges.toList.flatMap fun r => t.ranges.toList.filterMap r.inter?).toArray
  ascending := ascending_inter s t

/-- What is left of `r` after the given ascending ranges are cut out. -/
def carve (r : CharRange) : List CharRange → List CharRange
  | [] => [r]
  | s :: rest =>
    (r.below? s).toList ++
      match r.above? s with
      | some above => carve above rest
      | none => []

theorem bounds_of_mem_carve {r x : CharRange} {ranges : List CharRange}
    (h : x ∈ carve r ranges) : x.first ∈ r ∧ x.last ∈ r := by
  induction ranges generalizing r with
  | nil =>
    obtain rfl := List.mem_singleton.1 h
    exact ⟨x.first_mem, x.last_mem⟩
  | cons s rest ih =>
    rcases List.mem_append.1 h with h | h
    · have hx := Option.mem_toList.1 h
      exact ⟨(CharRange.exists_mem_below?_iff.1 ⟨x, hx, x.first_mem⟩).1,
        (CharRange.exists_mem_below?_iff.1 ⟨x, hx, x.last_mem⟩).1⟩
    · split at h
      · rename_i above habove
        obtain ⟨hfirst, hlast⟩ := ih h
        exact ⟨(CharRange.exists_mem_above?_iff.1 ⟨above, habove, hfirst⟩).1,
          (CharRange.exists_mem_above?_iff.1 ⟨above, habove, hlast⟩).1⟩
      · simp at h

/-- What is left of a range is in ascending order. -/
theorem ascending_carve (r : CharRange) (ranges : List CharRange) :
    CharRange.Ascending (carve r ranges) := by
  induction ranges generalizing r with
  | nil => exact List.pairwise_singleton _ _
  | cons s rest ih =>
    refine List.pairwise_append.2 ⟨?_, ?_, ?_⟩
    · cases r.below? s
      · exact List.Pairwise.nil
      · exact List.pairwise_singleton _ _
    · split
      · exact ih _
      · exact List.Pairwise.nil
    · intro x hx y hy
      have hx := Option.mem_toList.1 hx
      have hbelow := CharRange.exists_mem_below?_iff.1 ⟨x, hx, x.last_mem⟩
      split at hy
      · rename_i above habove
        have hfirst := (bounds_of_mem_carve hy).1
        have := (CharRange.exists_mem_above?_iff.1 ⟨above, habove, hfirst⟩).2
        have := s.first_le_last
        grind
      · simp at hy

theorem ascending_diff (s t : CharSet) : CharRange.Ascending
    (s.ranges.toList.flatMap fun r => carve r t.ranges.toList) := by
  refine List.pairwise_flatMap.2 ⟨fun r _ => ascending_carve r _, s.ascending.imp ?_⟩
  intro r r' hlt x hx y hy
  have := bounds_of_mem_carve hx
  have := bounds_of_mem_carve hy
  grind [CharRange.mem_iff]

/-- The members of `s` that are not in `t`. -/
def diff (s t : CharSet) : CharSet where
  ranges := (s.ranges.toList.flatMap fun r => carve r t.ranges.toList).toArray
  ascending := ascending_diff s t

/-- The ranges between and after ascending ranges, of which `r` is the
first. -/
def gaps (r : CharRange) : List CharRange → List CharRange
  | [] =>
    if r.last < Scalar.greatest then
      [.of (Scalar.next r.last) Scalar.greatest]
    else
      []
  | s :: rest =>
    .of (Scalar.next r.last) (Scalar.previous s.first) :: gaps s rest

/-- The characters outside the set, range by range: what lies before the first
range, between neighbours and after the last.  Neighbours that touch leave no
gap, so the ranges are joined unless they are in order. -/
def compl (s : CharSet) : CharSet :=
  match s.ranges.toList with
  | [] => any
  | r :: rest =>
    let before :=
      if Scalar.least < r.first then
        [CharRange.of Scalar.least (Scalar.previous r.first)]
      else
        []
    let outside := before ++ gaps r rest
    if h : CharRange.inOrder outside then
      ⟨outside.toArray, CharRange.ascending_of_inOrder h⟩
    else ofRanges outside

/-- Whether every member of `t` is a member of `s`. -/
def includes (s t : CharSet) : Bool :=
  (t.diff s).isEmpty

/-- Whether the two sets have a common member. -/
def overlaps (s t : CharSet) : Bool :=
  !(s.inter t).isEmpty

end CharSet

end RegexEngine
