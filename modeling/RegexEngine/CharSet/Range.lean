/-!
# Ranges of characters

A `CharRange` holds the characters between two bounds, both included.  The
scalar values leave out the surrogates, so the character after U+D7FF is
U+E000; `Scalar.next` and `Scalar.previous` step over that gap.  Two ranges
touch when they overlap or when their numbers follow on from each other, and
ranges on the two sides of the gap do not touch.
-/

namespace RegexEngine

namespace Scalar

/-- The first scalar value. -/
def least : Char :=
  '\x00'

/-- The last scalar value. -/
def greatest : Char :=
  Char.ofNat 0x10FFFF

/-- The scalar value after `c`. -/
def next (c : Char) : Char :=
  if c.toNat = 0xD7FF then Char.ofNat 0xE000 else Char.ofNat (c.toNat + 1)

/-- The scalar value before `c`. -/
def previous (c : Char) : Char :=
  if c.toNat = 0xE000 then Char.ofNat 0xD7FF else Char.ofNat (c.toNat - 1)

theorem toNat_ofNat {n : Nat} (h : n.isValidChar) : (Char.ofNat n).toNat = n := by
  rw [Char.ofNat, dif_pos h]
  rfl

/-- Nothing lies between a scalar value and the next one. -/
theorem lt_iff_next_le {a b c : Char} (hb : a < b) : a < c ↔ next a ≤ c := by
  have ha : a.toNat.isValidChar := a.valid
  have hb' : b.toNat.isValidChar := b.valid
  have hc : c.toNat.isValidChar := c.valid
  have hab : a.toNat < b.toNat := hb
  show a.toNat < c.toNat ↔ (next a).toNat ≤ c.toNat
  simp only [Nat.isValidChar] at ha hb' hc
  unfold next
  split
  · rw [toNat_ofNat (by decide)]
    omega
  · rw [toNat_ofNat (by simp only [Nat.isValidChar]; omega)]
    omega

/-- Nothing lies between a scalar value and the one before it. -/
theorem lt_iff_le_previous {a b c : Char} (ha : a < b) : c < b ↔ c ≤ previous b := by
  have ha' : a.toNat.isValidChar := a.valid
  have hb : b.toNat.isValidChar := b.valid
  have hc : c.toNat.isValidChar := c.valid
  have hab : a.toNat < b.toNat := ha
  show c.toNat < b.toNat ↔ c.toNat ≤ (previous b).toNat
  simp only [Nat.isValidChar] at ha' hb hc
  unfold previous
  split
  · rw [toNat_ofNat (by decide)]
    omega
  · rw [toNat_ofNat (by simp only [Nat.isValidChar]; omega)]
    omega

end Scalar

/-- The characters from `first` to `last`. -/
structure CharRange where
  /-- The least member. -/
  first : Char
  /-- The greatest member. -/
  last : Char
  /-- The bounds are in order. -/
  first_le_last : first ≤ last := by decide
deriving DecidableEq, Repr

namespace CharRange

/-- The range between two bounds given in either order. -/
def of (a b : Char) : CharRange :=
  if h : a ≤ b then ⟨a, b, h⟩ else ⟨b, a, (Char.le_total a b).resolve_left h⟩

/-- The range whose only member is `c`. -/
def single (c : Char) : CharRange where
  first := c
  last := c
  first_le_last := Char.le_refl c

instance : Membership Char CharRange where
  mem r c := r.first ≤ c ∧ c ≤ r.last

instance (c : Char) (r : CharRange) : Decidable (c ∈ r) :=
  inferInstanceAs (Decidable (r.first ≤ c ∧ c ≤ r.last))

theorem mem_iff {c : Char} {r : CharRange} : c ∈ r ↔ r.first ≤ c ∧ c ≤ r.last :=
  Iff.rfl

/-- Ranges in ascending order have no member in common. -/
def Ascending (ranges : List CharRange) : Prop :=
  ranges.Pairwise fun r s => r.last < s.first

/-- Whether each range ends before the next one starts. -/
def inOrder : List CharRange → Bool
  | r :: s :: rest => r.last < s.first && inOrder (s :: rest)
  | _ => true

theorem ascending_of_inOrder {ranges : List CharRange} (h : inOrder ranges) :
    Ascending ranges := by
  induction ranges with
  | nil => exact List.Pairwise.nil
  | cons r rest ih =>
    cases rest with
    | nil => exact List.pairwise_singleton _ _
    | cons s rest =>
      simp only [inOrder, Bool.and_eq_true, decide_eq_true_eq] at h
      have htail := ih h.2
      refine List.Pairwise.cons ?_ htail
      intro x hx
      rcases List.mem_cons.1 hx with rfl | hx
      · exact h.1
      · have hs : s.last < x.first := (List.pairwise_cons.1 htail).1 x hx
        have := s.first_le_last
        grind

/-- Whether two ranges overlap or have consecutive numbers. -/
def touches (r s : CharRange) : Bool :=
  r.first.toNat ≤ s.last.toNat + 1 && s.first.toNat ≤ r.last.toNat + 1

/-- The least range that covers both. -/
def join (r s : CharRange) : CharRange where
  first := if r.first ≤ s.first then r.first else s.first
  last := if r.last ≤ s.last then s.last else r.last
  first_le_last := by
    split <;> split
    · exact Char.le_trans r.first_le_last ‹_›
    · exact r.first_le_last
    · exact s.first_le_last
    · exact Char.le_trans ((Char.le_total _ _).resolve_left ‹_›) r.first_le_last

/-- The common members of two ranges. -/
def inter? (r s : CharRange) : Option CharRange :=
  let first := if r.first ≤ s.first then s.first else r.first
  let last := if r.last ≤ s.last then r.last else s.last
  if h : first ≤ last then some ⟨first, last, h⟩ else none

/-- The members of `r` that are less than every member of `s`. -/
def below? (r s : CharRange) : Option CharRange :=
  if r.last < s.first then some r
  else if r.first < s.first then some (of r.first (Scalar.previous s.first))
  else none

/-- The members of `r` that are greater than every member of `s`. -/
def above? (r s : CharRange) : Option CharRange :=
  if s.last < r.first then some r
  else if s.last < r.last then some (of (Scalar.next s.last) r.last)
  else none

theorem of_eq {a b : Char} (h : a ≤ b) : of a b = ⟨a, b, h⟩ :=
  dif_pos h

theorem mem_of {a b c : Char} (h : a ≤ b) : c ∈ of a b ↔ a ≤ c ∧ c ≤ b := by
  simp [of, h, mem_iff]

/-- The common members of two ranges are the members of `inter?`. -/
theorem exists_mem_inter?_iff {r s : CharRange} {c : Char} :
    (∃ x, r.inter? s = some x ∧ c ∈ x) ↔ c ∈ r ∧ c ∈ s := by
  simp only [inter?, mem_iff]
  split <;> split <;> split <;> grind

theorem first_mem (r : CharRange) : r.first ∈ r :=
  ⟨Char.le_refl _, r.first_le_last⟩

theorem last_mem (r : CharRange) : r.last ∈ r :=
  ⟨r.first_le_last, Char.le_refl _⟩

/-- The bounds of what two ranges have in common lie in both. -/
theorem bounds_of_inter? {r s x : CharRange} (h : r.inter? s = some x) :
    (x.first ∈ r ∧ x.first ∈ s) ∧ x.last ∈ r ∧ x.last ∈ s :=
  ⟨exists_mem_inter?_iff.1 ⟨x, h, x.first_mem⟩, exists_mem_inter?_iff.1 ⟨x, h, x.last_mem⟩⟩

/-- What `below?` gives are the members of `r` below `s`. -/
theorem exists_mem_below?_iff {r s : CharRange} {c : Char} :
    (∃ x, r.below? s = some x ∧ c ∈ x) ↔ c ∈ r ∧ c < s.first := by
  unfold below?
  have := r.first_le_last
  split
  · simp only [Option.some.injEq, exists_eq_left', mem_iff]
    grind
  · split
    · rename_i hlast hfirst
      have hle : r.first ≤ Scalar.previous s.first := (Scalar.lt_iff_le_previous hfirst).1 hfirst
      simp only [Option.some.injEq, exists_eq_left']
      rw [mem_of hle, ← Scalar.lt_iff_le_previous hfirst, mem_iff]
      grind
    · simp only [reduceCtorEq, false_and, exists_false, mem_iff]
      grind

/-- What `above?` gives are the members of `r` above `s`. -/
theorem exists_mem_above?_iff {r s : CharRange} {c : Char} :
    (∃ x, r.above? s = some x ∧ c ∈ x) ↔ c ∈ r ∧ s.last < c := by
  unfold above?
  have := r.first_le_last
  split
  · simp only [Option.some.injEq, exists_eq_left', mem_iff]
    grind
  · split
    · rename_i hfirst hlast
      have hle : Scalar.next s.last ≤ r.last := (Scalar.lt_iff_next_le hlast).1 hlast
      simp only [Option.some.injEq, exists_eq_left']
      rw [mem_of hle, ← Scalar.lt_iff_next_le hlast, mem_iff]
      grind
    · simp only [reduceCtorEq, false_and, exists_false, mem_iff]
      grind

end CharRange

end RegexEngine
