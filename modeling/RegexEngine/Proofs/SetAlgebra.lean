import Mathlib.Data.Char
import Mathlib.Data.Set.Lattice
import Mathlib.Order.Interval.Set.UnorderedInterval
import RegexEngine.Proofs.CharSet.Canonical

/-!
# Sets of characters are a set algebra

A `CharSet.Formula` says how a set is built.  It has a value, which is computed range by range, and
members, which are those of the formula read in set theory.

* `CharSet.Represents` says that a set is canonical and has certain members.
* `CharSet.represents_eval` says that the value of a formula represents its members, and that the
  queries tell how the members of two formulas lie to each other, if no complement of a severed set
  is taken.  It says what the complement of a severed set is, too.
-/

namespace RegexEngine

theorem CharRange.mem_of_iff_mem_uIcc {a b c : Char} : c ∈ CharRange.of a b ↔ c ∈ Set.uIcc a b := by
  by_cases h : a ≤ b
  · rw [mem_of h, Set.uIcc_of_le h, Set.mem_Icc]
  · have hreversed : CharRange.of a b = ⟨b, a, (Char.le_total a b).resolve_left h⟩ := dif_neg h
    rw [hreversed, mem_iff, Set.uIcc_of_ge ((Char.le_total a b).resolve_left h), Set.mem_Icc]

namespace CharSet

/-! ## Formulas -/

/-- How a set is built. -/
inductive Formula where
  /-- No character. -/
  | empty
  /-- Every character. -/
  | any
  /-- One character. -/
  | char (c : Char)
  /-- The characters between two bounds given in either order. -/
  | range (a b : Char)
  /-- The given characters. -/
  | chars (cs : List Char)
  /-- The characters between any of the given bounds. -/
  | ranges (bounds : List (Char × Char))
  /-- The members of either set. -/
  | union (e f : Formula)
  /-- The members of both sets. -/
  | inter (e f : Formula)
  /-- The members of the first set that are not in the second one. -/
  | diff (e f : Formula)
  /-- The characters that are not members. -/
  | compl (e : Formula)
deriving DecidableEq, Repr

namespace Formula

/-- The set that is built. -/
def eval : Formula → CharSet
  | empty => .empty
  | any => .any
  | char c => .ofChar c
  | range a b => .ofRange a b
  | chars cs => .ofChars cs
  | ranges bounds => .ofRanges (bounds.map fun (a, b) => .of a b)
  | union e f => e.eval.union f.eval
  | inter e f => e.eval.inter f.eval
  | diff e f => e.eval.diff f.eval
  | compl e => e.eval.compl

/-- The characters that are meant. -/
def members : Formula → Set Char
  | empty => ∅
  | any => Set.univ
  | char c => {c}
  | range a b => Set.uIcc a b
  | chars cs => {c | c ∈ cs}
  | ranges bounds => ⋃ b ∈ bounds, Set.uIcc b.1 b.2
  | union e f => e.members ∪ f.members
  | inter e f => e.members ∩ f.members
  | diff e f => e.members \ f.members
  | compl e => e.membersᶜ

/-- No complement is taken of a set that has the characters on both sides of the surrogates in
different ranges. -/
def Whole : Formula → Prop
  | empty | any | char _ | range _ _ | chars _ | ranges _ => True
  | union e f | inter e f | diff e f => e.Whole ∧ f.Whole
  | compl e => e.Whole ∧ ¬e.eval.Severed

end Formula

/-! ## Values -/

/-- Whether a number is that of a surrogate. -/
def IsSurrogate (n : Nat) : Prop :=
  0xD800 ≤ n ∧ n ≤ 0xDFFF

/-- A set is canonical and has the given members. -/
structure Represents (s : CharSet) (members : Set Char) : Prop where
  /-- The ranges are in ascending order, and numbers lie between them. -/
  canonical : s.Canonical
  /-- No bound is a surrogate. -/
  bounds : ∀ r ∈ s.ranges, ¬IsSurrogate r.first.toNat ∧ ¬IsSurrogate r.last.toNat
  /-- What bisection finds are the members. -/
  test_iff : ∀ c, s.test c ↔ c ∈ members

variable {s t : CharSet} {m n : Set Char}

theorem not_isSurrogate (c : Char) : ¬IsSurrogate c.toNat := by
  have hvalid : c.toNat.isValidChar := c.valid
  simp only [Nat.isValidChar] at hvalid
  unfold IsSurrogate
  omega

theorem Canonical.represents (h : s.Canonical) (hmembers : ∀ c, s.test c ↔ c ∈ m) :
    s.Represents m where
  canonical := h
  bounds r _ := ⟨not_isSurrogate r.first, not_isSurrogate r.last⟩
  test_iff := hmembers

theorem represents_ofRange (a b : Char) : (ofRange a b).Represents (Set.uIcc a b) := by
  refine Canonical.represents (List.pairwise_singleton _ _) fun c => ?_
  rw [test_iff, ← CharRange.mem_of_iff_mem_uIcc]
  simp [ofRange]

theorem represents_ofRanges (bounds : List (Char × Char)) :
    (ofRanges (bounds.map fun (a, b) => .of a b)).Represents (⋃ b ∈ bounds, Set.uIcc b.1 b.2) := by
  refine (canonical_ofRanges _).represents fun c => ?_
  rw [test_ofRanges]
  simp [CharRange.mem_of_iff_mem_uIcc]

theorem represents_ofChars (cs : List Char) : (ofChars cs).Represents {c | c ∈ cs} := by
  refine (canonical_ofRanges _).represents fun c => ?_
  show (ofRanges (cs.map CharRange.single)).test c ↔ c ∈ cs
  have hsingle (d : Char) : c ∈ CharRange.single d ↔ d = c :=
    ⟨fun h => Char.le_antisymm h.1 h.2, fun h => h ▸ CharRange.first_mem _⟩
  simp [hsingle]

theorem Represents.union (hs : s.Represents m) (ht : t.Represents n) :
    (s.union t).Represents (m ∪ n) :=
  (hs.canonical.union t).represents fun c => by
    rw [test_union, Bool.or_eq_true, hs.test_iff, ht.test_iff, Set.mem_union]

theorem Represents.inter (hs : s.Represents m) (ht : t.Represents n) :
    (s.inter t).Represents (m ∩ n) :=
  (hs.canonical.inter ht.canonical).represents fun c => by
    rw [test_inter, Bool.and_eq_true, hs.test_iff, ht.test_iff, Set.mem_inter_iff]

theorem Represents.diff (hs : s.Represents m) (ht : t.Represents n) :
    (s.diff t).Represents (m \ n) :=
  (hs.canonical.diff t).represents fun c => by
    rw [test_diff, Bool.and_eq_true, Bool.not_eq_true', Bool.eq_false_iff, Ne, hs.test_iff,
      ht.test_iff, Set.mem_sdiff]

theorem Represents.compl (hs : s.Represents m) (hwhole : ¬s.Severed) : s.compl.Represents mᶜ :=
  (hs.canonical.compl hwhole).represents fun c => by
    rw [test_compl_of_canonical hs.canonical fun h => absurd h hwhole, Bool.not_eq_true',
      Bool.eq_false_iff, Ne, hs.test_iff, Set.mem_compl_iff]

/-- The value of a formula represents its members, if no complement of a severed set is taken. -/
theorem Formula.Whole.represents {e : Formula} (h : e.Whole) : e.eval.Represents e.members := by
  induction e with
  | empty => exact canonical_empty.represents fun c => by simp [members]
  | any => exact Canonical.represents (List.pairwise_singleton _ _) fun c => by simp [eval, members]
  | char c => simpa [members, eval, ofChar] using represents_ofRange c c
  | range a b => exact represents_ofRange a b
  | chars cs => exact represents_ofChars cs
  | ranges bounds => exact represents_ofRanges bounds
  | union e f ihe ihf => exact (ihe h.1).union (ihf h.2)
  | inter e f ihe ihf => exact (ihe h.1).inter (ihf h.2)
  | diff e f ihe ihf => exact (ihe h.1).diff (ihf h.2)
  | compl e ih => exact (ih h.1).compl h.2

/-! ## Queries -/

theorem Represents.isEmpty_iff (h : s.Represents m) : s.isEmpty ↔ m = ∅ := by
  rw [CharSet.isEmpty_iff, Set.eq_empty_iff_forall_notMem]
  exact forall_congr' fun c => by rw [Bool.eq_false_iff, Ne, h.test_iff]

theorem Represents.includes_iff (hs : s.Represents m) (ht : t.Represents n) :
    s.includes t ↔ n ⊆ m :=
  (ht.diff hs).isEmpty_iff.trans Set.sdiff_eq_empty

theorem Represents.overlaps_iff (hs : s.Represents m) (ht : t.Represents n) :
    s.overlaps t ↔ (m ∩ n).Nonempty := by
  rw [CharSet.overlaps_iff]
  exact exists_congr fun c => and_congr (hs.test_iff c) (ht.test_iff c)

/-! ## The set algebra -/

/-- The value of a formula represents its members, and the queries tell how the members of two
formulas lie to each other, if no complement is taken of a set that is severed.  Such a complement
has the characters on the two sides of the surrogates, besides those that are no members. -/
theorem represents_eval {e f : Formula} (he : e.Whole) (hf : f.Whole) :
    e.eval.Represents e.members ∧
      ((e.eval.isEmpty ↔ e.members = ∅) ∧
        (e.eval.includes f.eval ↔ f.members ⊆ e.members) ∧
        (e.eval.overlaps f.eval ↔ (e.members ∩ f.members).Nonempty)) ∧
      (e.eval.Severed → ∀ c,
        e.compl.eval.test c ↔ c ∈ e.compl.members ∨ c = '\uD7FF' ∨ c = '\uE000') := by
  have hfirst := he.represents
  have hsecond := hf.represents
  refine ⟨hfirst, ⟨hfirst.isEmpty_iff, hfirst.includes_iff hsecond, hfirst.overlaps_iff hsecond⟩,
    fun hsevered c => ?_⟩
  refine (test_compl_of_severed hfirst.canonical hsevered c).trans (or_congr_left ?_)
  rw [Bool.eq_false_iff, Ne, hfirst.test_iff]
  rfl

/-- What is left of ranges in any order, one of which is reversed, and of a character behind the
surrogates. -/
def outsideRanges : Formula :=
  .compl (.union (.ranges [('z', 'x'), ('b', 'f'), ('a', 'c')]) (.char '\uE000'))

/-- The characters on the two sides of the surrogates. -/
def bothSides : Formula :=
  .chars ['\uE000', '\uD7FF']

theorem represents_eval_outsideRanges :
    outsideRanges.Whole ∧ bothSides.Whole ∧ bothSides.eval.Severed ∧
      outsideRanges.eval.Represents outsideRanges.members ∧
      (outsideRanges.eval.overlaps bothSides.eval ↔
        (outsideRanges.members ∩ bothSides.members).Nonempty) ∧
      ∀ c, bothSides.compl.eval.test c ↔
        c ∈ bothSides.compl.members ∨ c = '\uD7FF' ∨ c = '\uE000' := by
  have hwhole : outsideRanges.Whole := ⟨⟨trivial, trivial⟩, by decide +kernel⟩
  have hsides : bothSides.Whole := trivial
  have hsevered : bothSides.eval.Severed := by decide +kernel
  obtain ⟨hvalue, ⟨_, _, hoverlaps⟩, _⟩ := represents_eval hwhole hsides
  obtain ⟨_, _, hcompl⟩ := represents_eval hsides hwhole
  exact ⟨hwhole, hsides, hsevered, hvalue, hoverlaps, hcompl hsevered⟩

/-- The complement of both sides of the surrogates has them as members, in a range that touches
others. -/
theorem not_represents_bothSides :
    bothSides.compl.eval.test '\uD7FF' ∧ '\uD7FF' ∉ bothSides.compl.members ∧
      ¬bothSides.compl.eval.Canonical ∧ ¬∀ e : Formula, e.eval.Represents e.members := by
  have htest : bothSides.compl.eval.test '\uD7FF' := by decide +kernel
  have hnot : '\uD7FF' ∉ bothSides.compl.members := by
    simp [bothSides, Formula.members]
  exact ⟨htest, hnot, by decide, fun h => hnot (((h bothSides.compl).test_iff _).1 htest)⟩

end CharSet

end RegexEngine
