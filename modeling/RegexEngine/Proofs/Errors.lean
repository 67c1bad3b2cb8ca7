import Mathlib
import RegexEngine.Proofs.Offset

/-!
# Errors of whole patterns

A text that is no pattern has an error, and what the error says can be seen at its place: there the
character stands with which the trouble begins, and the place lies between two characters.

* `Pattern.StandsAt` says what stands at a byte offset.
* `Pattern.parse_hasCause` is about all errors.
-/

namespace RegexEngine

namespace Pattern

variable {text rest : List Char} {pos : Nat}

/-- At a byte offset of the text the rest of it begins. -/
def StandsAt (text : List Char) (pos : Nat) (rest : List Char) : Prop :=
  ∃ before, text = before ++ rest ∧ byteLength before = pos

theorem standsAt_offset (h : rest <:+ text) : StandsAt text (offset text rest) rest := by
  obtain ⟨before, rfl⟩ := h
  refine ⟨before, rfl, ?_⟩
  rw [offset, byteLength_append, Nat.add_sub_cancel]

theorem StandsAt.isBoundary (h : StandsAt text pos rest) :
    (Subject.ofList text).isBoundary pos := by
  obtain ⟨before, htext, hpos⟩ := h
  exact Subject.isBoundary_iff.2 ⟨before, rest, htext, hpos⟩

theorem StandsAt.le (h : StandsAt text pos rest) : pos ≤ byteLength text := by
  obtain ⟨before, rfl, rfl⟩ := h
  rw [byteLength_append]
  omega

/-- The error that is reported has its cause at the offset that is reported. -/
theorem hasCause_of_parse {e : ParseError Nat} (h : parse text = .error e) :
    e.HasCause text (StandsAt text) := by
  unfold parse at h
  cases hread : read text with
  | ok p =>
    rw [hread] at h
    cases h
  | error e' =>
    rw [hread] at h
    obtain rfl := Except.error.inj h
    refine (hasCause_of_read hread).map ?_
    rintro place rest ⟨rfl, hrest⟩
    exact standsAt_offset hrest

/-- A text is read from boundary to boundary.  If it is no pattern, then what stands at the place of
the error is what the error says, and the place is a boundary of the text. -/
theorem parse_hasCause (text : List Char) :
    parseFrom text 0 = .ok (parse text) ∧
    (∀ p rest, Partial.Reaches text p rest → (Subject.ofList text).isBoundary (offset text rest)) ∧
    ∀ e, parse text = .error e → e.HasCause text (StandsAt text) ∧
      ∀ place, e.place? = some place → (Subject.ofList text).isBoundary place ∧
        place ≤ byteLength text := by
  refine ⟨parseFrom_zero text, ?_, ?_⟩
  · intro p rest hreaches
    exact (standsAt_offset hreaches.suffix.1).isBoundary
  · intro e he
    have hcause := hasCause_of_parse he
    refine ⟨hcause, ?_⟩
    intro place hplace
    obtain ⟨rest, hstands⟩ := hcause.exists_remains hplace
    exact ⟨hstands.isBoundary, hstands.le⟩

/-- The outer group is not closed, and its parenthesis stands behind the letter. -/
theorem parse_hasCause_outerGroup :
    parse ['é', '(', '(', 'a', '|', 'b', ')'] = .error (.unclosedGroup 2) ∧
      (ParseError.unclosedGroup 2).HasCause ['é', '(', '(', 'a', '|', 'b', ')']
        (StandsAt ['é', '(', '(', 'a', '|', 'b', ')']) ∧
      (Subject.ofList ['é', '(', '(', 'a', '|', 'b', ')']).isBoundary 2 := by
  have hread : parse ['é', '(', '(', 'a', '|', 'b', ')'] = .error (.unclosedGroup 2) := by cbv
  obtain ⟨-, -, herrors⟩ := parse_hasCause ['é', '(', '(', 'a', '|', 'b', ')']
  obtain ⟨hcause, hplaces⟩ := herrors _ hread
  exact ⟨hread, hcause, (hplaces 2 rfl).1⟩

end Pattern

end RegexEngine
