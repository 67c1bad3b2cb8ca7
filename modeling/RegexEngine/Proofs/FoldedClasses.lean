import Mathlib
import RegexEngine.Proofs.Class.Matching
import RegexEngine.Proofs.Class.Members
import RegexEngine.Proofs.Class.Whole

/-!
# Classes and their negations without regard to letter case

The set of a negated class is the complement of what is listed, and the case variants are added to
the complement.  So a negated class matches a character if some variant of it is not listed, where
the class itself matches if some variant is.  Just one of the two matches a character if all
variants of the character are listed or none is.

* `Automaton.isMatch_foldedClass` is about every class that lists some characters but not all.
* `Automaton.isMatch_splitVariants` is a class that lists one of two variants: the class and its
  negation match both.
-/

namespace RegexEngine

open Automaton (Build)
open Automaton.Build (classSet)
open CaseFolding (Variants)

variable {o : Options} {set : CharSet} {c d : Char} {items : List ClassItem}

/-- A set that is not that of `.` has the variants of its members. -/
theorem test_classSet_of_ne_any (h : o.ignoreCase = true) (hset : set ≠ .any) :
    (classSet o set).test c ↔ ∃ d, Variants c d ∧ set.test d := by
  rw [Build.test_classSet_folded h]
  refine exists_congr fun d => and_congr_right fun _ => ?_
  rw [Build.test_classSet_exactCase rfl]
  simp [hset]

/-- A set does not tell variants apart. -/
theorem test_classSet_of_variants (h : o.ignoreCase = true) (hvariants : Variants c d) :
    (classSet o set).test c = (classSet o set).test d := by
  rw [Bool.eq_iff_iff, Build.test_classSet_folded h, Build.test_classSet_folded h]
  exact ⟨fun ⟨e, he, htest⟩ => ⟨e, hvariants.symm.trans he, htest⟩,
    fun ⟨e, he, htest⟩ => ⟨e, hvariants.trans he, htest⟩⟩

/-- The characters on the two sides of the surrogates have no other variants. -/
theorem ne_of_variants (hvariants : Variants c d) (hc : c ≠ '\uD7FF' ∧ c ≠ '\uE000') :
    d ≠ '\uD7FF' ∧ d ≠ '\uE000' := by
  have hbefore : CaseFolding.Uncased '\uD7FF' := by decide +kernel
  have hafter : CaseFolding.Uncased '\uE000' := by decide +kernel
  constructor
  · rintro rfl
    exact hc.1 (CaseFolding.eq_of_variants hbefore (by decide) hvariants)
  · rintro rfl
    exact hc.2 (CaseFolding.eq_of_variants hafter (by decide) hvariants)

namespace Class

/-- A class matches the variants of what it lists. -/
theorem test_classSet_lists (ho : o.ignoreCase = true) (hitems : ∀ item ∈ items, item.InOrder)
    (hsome : ∃ c, lists items c = false) :
    (classSet o (denoted false items)).test c ↔ ∃ d, Variants c d ∧ lists items d := by
  have hany : denoted false items ≠ .any := by
    intro heq
    obtain ⟨e, he⟩ := hsome
    have htest := test_members hitems e
    rw [show members items = .any from heq, CharSet.test_any, he] at htest
    cases htest
  rw [test_classSet_of_ne_any ho hany]
  refine exists_congr fun d => and_congr_right fun _ => ?_
  rw [test_denoted hitems (by simp)]
  rfl

/-- A negated class matches the variants of what it does not list. -/
theorem test_classSet_not_lists (ho : o.ignoreCase = true) (hitems : ∀ item ∈ items, item.InOrder)
    (hsome : ∃ c, lists items c) (hc : Severed items → c ≠ '\uD7FF' ∧ c ≠ '\uE000') :
    (classSet o (denoted true items)).test c ↔ ∃ d, Variants c d ∧ lists items d = false := by
  have hany : denoted true items ≠ .any := by
    obtain ⟨e, he⟩ := hsome
    exact CharSet.compl_ne_any (canonical_members items) ((test_members hitems e).trans he)
  rw [test_classSet_of_ne_any ho hany]
  refine exists_congr fun d => and_congr_right fun hvariants => ?_
  rw [test_denoted hitems fun _ hsevered => ne_of_variants hvariants (hc hsevered)]
  show (!lists items d) = true ↔ lists items d = false
  rw [Bool.not_eq_true']

/-- A class and its negation differ about a character if they do not split its variants. -/
theorem ne_iff_of_lists {found other : Bool} (hfound : found ↔ ∃ d, Variants c d ∧ lists items d)
    (hother : other ↔ ∃ d, Variants c d ∧ lists items d = false) :
    found ≠ other ↔ ∀ d, Variants c d → lists items d = lists items c := by
  constructor
  · intro hne d hvariants
    by_contra hsplit
    have hboth : found = true ∧ other = true := by
      cases hc : lists items c with
      | true =>
        have hd : lists items d = false := by simpa [hc] using hsplit
        exact ⟨hfound.2 ⟨c, .refl c, hc⟩, hother.2 ⟨d, hvariants, hd⟩⟩
      | false =>
        have hd : lists items d = true := by simpa [hc] using hsplit
        exact ⟨hfound.2 ⟨d, hvariants, hd⟩, hother.2 ⟨c, .refl c, hc⟩⟩
    exact hne (hboth.1.trans hboth.2.symm)
  · intro hsame heq
    cases hc : lists items c with
    | true =>
      obtain ⟨d, hvariants, hd⟩ := hother.1 (heq ▸ hfound.2 ⟨c, .refl c, hc⟩)
      rw [hsame d hvariants, hc] at hd
      cases hd
    | false =>
      obtain ⟨d, hvariants, hd⟩ := hfound.1 (heq ▸ hother.2 ⟨c, .refl c, hc⟩)
      rw [hsame d hvariants, hc] at hd
      cases hd

end Class

namespace Automaton

/-- Without regard to letter case, a class and its negation do not tell variants apart.  The class
matches a character if some variant of it is listed, and the negation if some variant is not.  So
just one of them matches if the class lists all variants of the character or none.  If the items
are severed, nothing is said of the negation for the characters on the two sides of the
surrogates. -/
theorem isMatch_foldedClass {x : List Char} (hx : x.head? ≠ some '^')
    (h : Pattern.parse ('[' :: x) = .ok (.oneOf set)) :
    (∃ items, Class.Spells x false items) ∧
      ∀ items, Class.Spells x false items → (∃ c, Class.lists items c) →
        (∃ c, Class.lists items c = false) → ∀ o : Options, o.ignoreCase = true →
          ∃ a b, ofText o ('[' :: x) = .ok a ∧ ofText o ('[' :: '^' :: x) = .ok b ∧
            (∀ c d, Variants c d → a.isMatch (.ofList [c]) = a.isMatch (.ofList [d]) ∧
              b.isMatch (.ofList [c]) = b.isMatch (.ofList [d])) ∧
            ∀ c, (Class.Severed items → c ≠ '\uD7FF' ∧ c ≠ '\uE000') →
              ∃ found other, a.isMatch (.ofList [c]) = .ok found ∧
                b.isMatch (.ofList [c]) = .ok other ∧
                (found ↔ ∃ d, Variants c d ∧ Class.lists items d) ∧
                (other ↔ ∃ d, Variants c d ∧ Class.lists items d = false) ∧
                (found ≠ other ↔ ∀ d, Variants c d →
                  Class.lists items d = Class.lists items c) := by
  obtain ⟨negated, items, hspells, hset⟩ := Pattern.parse_class_iff.1 h
  obtain rfl := hspells.eq_false hx
  refine ⟨⟨items, hspells⟩, fun items' hspells' hsome hother o ho => ?_⟩
  obtain ⟨_, rfl⟩ := hspells.unique hspells'
  have hparse := Pattern.parse_class_iff.2 ⟨_, _, hspells.negate, rfl⟩
  obtain ⟨a, ha, hmatch⟩ := exists_ofText_oneOf o h
  obtain ⟨b, hb, hmatch'⟩ := exists_ofText_oneOf o hparse
  refine ⟨a, b, ha, hb, ?_, ?_⟩
  · intro c d hvariants
    rw [hmatch, hmatch, hmatch', hmatch', test_classSet_of_variants ho hvariants,
      test_classSet_of_variants ho hvariants]
    exact ⟨rfl, rfl⟩
  · intro c hc
    have hfound := hset ▸ Class.test_classSet_lists (c := c) ho hspells.inOrder hother
    have hnegated := Class.test_classSet_not_lists ho hspells.inOrder hsome hc
    exact ⟨_, _, hmatch c, hmatch' c, hfound, hnegated, Class.ne_iff_of_lists hfound hnegated⟩

/-- The text of a class that lists three letters. -/
def threeLetters : List Char :=
  "a-c]".toList

theorem spells_threeLetters : Class.Spells threeLetters false [.range 'a' 'c'] := by
  have hrange : Class.ItemAt threeLetters (.range 'a' 'c') [']'] :=
    .range (.char (by decide)) (by decide) (.char (by decide)) (by decide)
  exact .plain (by decide) (.items (by decide) (.item (by decide) hrange .close))

/-- All variants of a digit are unlisted, but just one of those of a letter. -/
theorem isMatch_foldedClass_threeLetters :
    threeLetters.head? ≠ some '^' ∧ ∃ set, Pattern.parse ('[' :: threeLetters) = .ok (.oneOf set) ∧
      ∃ a b, ofText { ignoreCase := true } ('[' :: threeLetters) = .ok a ∧
        ofText { ignoreCase := true } ('[' :: '^' :: threeLetters) = .ok b ∧
        a.isMatch (.ofList ['7']) = .ok false ∧ b.isMatch (.ofList ['7']) = .ok true ∧
        a.isMatch (.ofList ['B']) = .ok true ∧ b.isMatch (.ofList ['B']) = .ok true := by
  have hparse := Pattern.parse_class_iff.2 ⟨_, _, spells_threeLetters, rfl⟩
  have hseven : CaseFolding.Uncased '7' := by decide +kernel
  have hletter : Variants 'B' 'b' := by decide +kernel
  obtain ⟨a, b, ha, hb, _, hmatch⟩ :=
    (isMatch_foldedClass (by decide) hparse).2 _ spells_threeLetters
    ⟨'a', by decide⟩ ⟨'d', by decide⟩ { ignoreCase := true } rfl
  obtain ⟨found, other, hfound, hother, hlists, hnot, _⟩ := hmatch '7' fun _ => by decide
  obtain ⟨found', other', hfound', hother', hlists', hnot', _⟩ := hmatch 'B' fun _ => by decide
  have hfalse : found = false := by
    rw [Bool.eq_false_iff, Ne, hlists]
    rintro ⟨d, hvariants, hd⟩
    rw [CaseFolding.eq_of_variants hseven (by decide) hvariants.symm] at hd
    exact absurd hd (by decide)
  have htrue : other = true := hnot.2 ⟨'7', .refl '7', by decide⟩
  have htrue' : found' = true := hlists'.2 ⟨'b', hletter, by decide⟩
  have hboth : other' = true := hnot'.2 ⟨'B', .refl 'B', by decide⟩
  subst hfalse htrue htrue' hboth
  exact ⟨by decide, _, hparse, a, b, ha, hb, hfound, hother, hfound', hother'⟩

/-- A class and its negation both match a letter of which another variant is not listed. -/
theorem isMatch_splitVariants :
    ∃ a b, ofText { ignoreCase := true } "[a]".toList = .ok a ∧
      ofText { ignoreCase := true } "[^a]".toList = .ok b ∧
      a.isMatch (.ofList ['a']) = .ok true ∧ b.isMatch (.ofList ['a']) = .ok true := by
  have hspells : Class.Spells "a]".toList false [.range 'a' 'a'] := by
    have hitem : Class.ItemAt "a]".toList (.range 'a' 'a') [']'] :=
      .char (.char (by decide)) (by simp)
    exact .plain (by decide) (.items (by decide) (.item (by decide) hitem .close))
  have hparse := Pattern.parse_class_iff.2 ⟨_, _, hspells, rfl⟩
  have hparse' := Pattern.parse_class_iff.2 ⟨_, _, hspells.negate, rfl⟩
  obtain ⟨a, ha, hmatch⟩ := exists_ofText_oneOf { ignoreCase := true } hparse
  obtain ⟨b, hb, hnegated⟩ := exists_ofText_oneOf { ignoreCase := true } hparse'
  refine ⟨a, b, ha, hb, (hmatch 'a').trans ?_, (hnegated 'a').trans ?_⟩
  · exact congrArg Except.ok ((Class.test_classSet_lists rfl hspells.inOrder ⟨'b', by decide⟩).2
      ⟨'a', .refl 'a', by decide⟩)
  · exact congrArg Except.ok ((Class.test_classSet_not_lists rfl hspells.inOrder ⟨'a', by decide⟩
      fun _ => by decide).2 ⟨'A', by decide +kernel, by decide⟩)

end Automaton

end RegexEngine
