import Mathlib
import RegexEngine.Proofs.Class.Matching
import RegexEngine.Proofs.Class.Members
import RegexEngine.Proofs.Class.Whole

/-!
# Classes match their members

A class matches a text of one character if the class stands for the character, as its items say.
There is one exception: the set of every character as a single range is also that of `.`, and
without the option for it neither matches a line terminator.

* `Automaton.isMatch_class` is about every class that can be read, without regard to letter case.
* `Automaton.isMatch_everyCharacter` is a class that lists every character and does not match a line
  feed.
-/

namespace RegexEngine

variable {o : Options} {set : CharSet} {c : Char}

namespace Automaton

/-- A class matches a text of one character just if the class stands for the character.  A class
whose set is that of `.` matches no line terminator, unless `.` does.  If the class is negated and
its items are severed, nothing is said of the characters on the two sides of the surrogates. -/
theorem isMatch_class {s : List Char} (h : Pattern.parse ('[' :: s) = .ok (.oneOf set)) :
    (∃ negated items, Class.Spells s negated items) ∧
      ∀ negated items, Class.Spells s negated items → ∀ o : Options, o.ignoreCase = false →
        ∃ a, ofText o ('[' :: s) = .ok a ∧
          ∀ c, (negated = true → Class.Severed items → c ≠ '\uD7FF' ∧ c ≠ '\uE000') →
            a.isMatch (.ofList [c]) =
              .ok (Class.admits negated items c &&
                (o.dotAll || set ≠ .any || !CharSet.lineTerminators.test c)) := by
  obtain ⟨negated, items, hspells, hset⟩ := Pattern.parse_class_iff.1 h
  refine ⟨⟨negated, items, hspells⟩, fun negated' items' hspells' o ho => ?_⟩
  obtain ⟨rfl, rfl⟩ := hspells.unique hspells'
  obtain ⟨a, ha, hmatch⟩ := exists_ofText_oneOf o h
  refine ⟨a, ha, fun c hc => ?_⟩
  have hadmits : set.test c = Class.admits negated items c := by
    rw [hset]
    exact Class.test_denoted hspells.inOrder hc
  rw [hmatch, Build.test_classSet_exactCase ho, hadmits]

/-- The text of a class, for all but a bracket, some letters and the digits. -/
def exceptSome : List Char :=
  "^]a-c\\d]".toList

theorem spells_exceptSome :
    Class.Spells exceptSome true [.range ']' ']', .range 'a' 'c', .set .digit] := by
  have hrange : Class.ItemAt "a-c\\d]".toList (.range 'a' 'c') "\\d]".toList :=
    .range (.char (by decide)) (by decide) (.char (by decide)) (by decide)
  have hescape : Class.ItemAt "\\d]".toList (.set .digit) [']'] :=
    .set (.escape .digit)
  exact .negated (.literal (.inl rfl) (.item (by decide) hrange (.item (by decide) hescape .close)))

theorem isMatch_class_exceptSome :
    ∃ set, Pattern.parse ('[' :: exceptSome) = .ok (.oneOf set) ∧
      ∃ a, ofText {} ('[' :: exceptSome) = .ok a ∧ a.isMatch (.ofList ['b']) = .ok false ∧
        a.isMatch (.ofList ['7']) = .ok false ∧ a.isMatch (.ofList ['-']) = .ok true := by
  have hparse := Pattern.parse_class_iff.2 ⟨_, _, spells_exceptSome, rfl⟩
  have hany : Class.denoted true [.range ']' ']', .range 'a' 'c', .set .digit] ≠ .any := by decide
  have hdigit (c : Char) : CharSet.digit.test c = decide ('0' ≤ c ∧ c ≤ '9') := by
    rw [Bool.eq_iff_iff, CharSet.digit, CharSet.test_ofRange (by decide), decide_eq_true_iff]
  obtain ⟨a, ha, hmatch⟩ := (isMatch_class hparse).2 _ _ spells_exceptSome {} rfl
  refine ⟨_, hparse, a, ha, ?_, ?_, ?_⟩
  · rw [hmatch 'b' fun _ _ => by decide, decide_eq_true hany]
    simp [Class.admits, Class.lists, ClassItem.lists]
  · rw [hmatch '7' fun _ _ => by decide, decide_eq_true hany]
    simp [Class.admits, Class.lists, ClassItem.lists, hdigit]
  · rw [hmatch '-' fun _ _ => by decide, decide_eq_true hany]
    simp [Class.admits, Class.lists, ClassItem.lists, hdigit]

/-- White space and all that is none. -/
def everyCharacter : List ClassItem :=
  [.set .whitespace, .set CharSet.whitespace.compl]

/-- A class next to its complement lists every character.  Its set is also that of `.`, so a line
feed does not match. -/
theorem isMatch_everyCharacter :
    Class.Spells "\\s\\S]".toList false everyCharacter ∧
      (∀ c, Class.admits false everyCharacter c) ∧
      ∃ a, ofText {} ('[' :: "\\s\\S]".toList) = .ok a ∧
        a.isMatch (.ofList ['\n']) = .ok false := by
  have hspells : Class.Spells "\\s\\S]".toList false everyCharacter := by
    have hspace : Class.ItemAt "\\s\\S]".toList (.set .whitespace) "\\S]".toList :=
      .set (.escape .whitespace)
    have hother : Class.ItemAt "\\S]".toList (.set CharSet.whitespace.compl) [']'] :=
      .set (.escape .notWhitespace)
    exact .plain (by decide)
      (.items (by decide) (.item (by decide) hspace (.item (by decide) hother .close)))
  have hadmits (c : Char) : Class.admits false everyCharacter c := by
    have hgap : CharSet.whitespace.ranges.toList.Pairwise fun r s =>
        Scalar.next r.last < s.first := by
      decide
    simp [Class.admits, Class.lists, everyCharacter, ClassItem.lists,
      CharSet.test_compl_of_next_lt hgap]
  have hset : CharSet.any = Class.denoted false everyCharacter := by decide
  have hparse := Pattern.parse_class_iff.2 ⟨_, _, hspells, hset⟩
  have hterminator : CharSet.lineTerminators.test '\n' := by
    rw [CharSet.test_iff]
    decide
  obtain ⟨a, ha, hmatch⟩ := exists_ofText_oneOf {} hparse
  refine ⟨hspells, hadmits, a, ha, ?_⟩
  rw [hmatch, Build.test_classSet_exactCase rfl, hterminator]
  simp

end Automaton

end RegexEngine
