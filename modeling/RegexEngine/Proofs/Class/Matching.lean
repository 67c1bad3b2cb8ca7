import RegexEngine.Proofs.Possessive
import RegexEngine.Proofs.Text.Order

/-!
# The matches of a set

A pattern that is one set of characters matches a text just if some character of the text is in
the set, under the options.  There is always an answer.  `exists_ofText_oneOf` is about texts of one
character and a pattern that is given by its text.
-/

namespace RegexEngine

open Automaton.Build (classSet)

namespace Automaton

variable {o : Options} {set : CharSet} {a : Automaton} {text : Subject} {pos : Nat}

/-- There is a match among some positions if there is one at one of them. -/
theorem isSome_matchAmong {positions : List Nat} {found : Nat → Bool}
    (h : ∀ pos ∈ positions, (a.matchAt text pos).map Option.isSome = .ok (found pos)) :
    (a.matchAmong text positions).map Option.isSome = .ok (positions.any found) := by
  induction positions with
  | nil => rfl
  | cons pos later ih =>
    obtain ⟨hpos, hlater⟩ := List.forall_mem_cons.1 h
    obtain ⟨m, hm, hfound⟩ := Token.map_eq_ok hpos
    rw [List.any_cons, ← hfound, matchAmong, hm]
    cases m with
    | none => exact ih hlater
    | some m => rfl

/-- A set matches at a position if the next character is in it. -/
theorem isSome_matchAt_oneOf (h : compile o (.oneOf set) = .ok a) (hpos : text.isBoundary pos) :
    (a.matchAt text pos).map Option.isSome =
      .ok ((text.charAt? pos).any (classSet o set).test) := by
  obtain ⟨keys, _, hmatch⟩ := exists_keys_matchAt h text hpos
  rw [hmatch]
  unfold Pattern.meaning Meaning.char
  by_cases hlt : pos < text.size
  · obtain ⟨c, hc⟩ := Subject.exists_charAt? hpos hlt
    rw [if_neg (Nat.not_le.2 hlt), hc]
    simp only [Option.any_some]
    cases (classSet o set).test c <;> rfl
  · have hnone : text.charAt? pos = none := by
      cases hc : text.charAt? pos with
      | none => rfl
      | some c => exact absurd (Subject.lt_size_of_charAt? hc) hlt
    rw [if_pos (Nat.not_lt.1 hlt), hnone]
    rfl

/-- There is a match if there is one in front of some character. -/
theorem isMatch_of_matchAt {found : Char → Bool}
    (h : ∀ pos, text.isBoundary pos →
      (a.matchAt text pos).map Option.isSome = .ok ((text.charAt? pos).any found)) :
    a.isMatch text = .ok (text.chars.any found) := by
  have hmem (pos : Nat) : pos ∈ text.boundariesFrom 0 ↔ text.isBoundary pos := by
    rw [Subject.mem_boundariesFrom]
    exact and_iff_right (Nat.zero_le pos)
  have hany : (text.boundariesFrom 0).any (fun pos => (text.charAt? pos).any found) =
      text.chars.any found := by
    rw [Bool.eq_iff_iff]
    simp only [List.any_eq_true, Option.any_eq_true]
    constructor
    · rintro ⟨pos, _, c, hc, hfound⟩
      obtain ⟨before, after, hchars, _⟩ := Subject.exists_of_charAt? hc
      exact ⟨c, by simp [hchars], hfound⟩
    · rintro ⟨c, hc, hfound⟩
      obtain ⟨before, after, hchars⟩ := List.append_of_mem hc
      have hat := Subject.charAt?_byteLength hchars
      exact ⟨_, (hmem _).2 (Subject.isBoundary_of_charAt? hat), c, hat, hfound⟩
  rw [← hany]
  exact isSome_matchAmong fun pos hpos => h pos ((hmem pos).1 hpos)

/-- The automaton of a set matches a text that has one of its members. -/
theorem exists_ofPattern_oneOf (o : Options) (set : CharSet) :
    ∃ a, ofPattern o (.oneOf set) = .ok a ∧
      ∀ text : Subject, a.isMatch text = .ok (text.chars.any (classSet o set).test) := by
  obtain ⟨a, ha⟩ := (exists_compile_eq_ok_iff (o := o) (p := .oneOf set)).2 rfl
  refine ⟨a.promote, ofPattern_eq_promote ha, fun text => isMatch_of_matchAt fun pos hpos => ?_⟩
  rw [matchAt_promote ha text pos]
  exact isSome_matchAt_oneOf ha hpos

/-- If a pattern text is that of a set, it matches a text of one character just if the character is
in the set. -/
theorem exists_ofText_oneOf {pattern : List Char} (o : Options)
    (h : Pattern.parse pattern = .ok (.oneOf set)) :
    ∃ a, ofText o pattern = .ok a ∧
      ∀ c, a.isMatch (.ofList [c]) = .ok ((classSet o set).test c) := by
  obtain ⟨a, ha, hmatch⟩ := exists_ofPattern_oneOf o set
  refine ⟨a, ?_, fun c => ?_⟩
  · rw [ofText, h]
    exact ha
  · rw [hmatch]
    show Except.ok ((classSet o set).test c || false) = _
    rw [Bool.or_false]

end Automaton

end RegexEngine
