import RegexEngine.Proofs.Text.Boundary

/-!
# Pieces of a subject

The piece between two boundaries is made of the characters between them.

* `Subject.slice_of_eq` cuts out a piece of which one knows what stands before and behind it.
* `Subject.slice_eq_ok_iff` says which pieces there are.
-/

namespace RegexEngine

/-- The cells of a text hold its characters. -/
theorem filterMap_flatMap_charCells (chars : List Char) :
    (chars.flatMap charCells).filterMap id = chars := by
  induction chars with
  | nil => rfl
  | cons c chars ih =>
    have hcell : (charCells c).filterMap id = [c] := by
      simp [charCells]
    rw [List.flatMap_cons, List.filterMap_append, hcell, ih]
    rfl

namespace Subject

variable {s : Subject} {start stop : Nat} {before piece after : List Char}

/-- The cells between two prefixes are those of the characters between them. -/
theorem extract_cells (h : s.chars = before ++ (piece ++ after)) :
    (s.cells.extract (byteLength before) (byteLength before + byteLength piece)).toList =
      piece.flatMap charCells := by
  have hcount : byteLength before + byteLength piece - byteLength before =
    byteLength piece := by omega
  rw [Array.toList_extract, List.extract_eq_take_drop, hcount, s.cells_eq, h, List.flatMap_append,
    List.flatMap_append, ← length_flatMap_charCells before, List.drop_left,
      ← length_flatMap_charCells piece,
    List.take_left]

/-- The piece between two prefixes of the text. -/
theorem slice_of_eq (h : s.chars = before ++ (piece ++ after)) :
    s.slice (byteLength before) (byteLength before + byteLength piece) = .ok piece := by
  have hstart : s.isBoundary (byteLength before) :=
    isBoundary_iff.2 ⟨before, piece ++ after, h, rfl⟩
  have hstop : s.isBoundary (byteLength before + byteLength piece) := by
    refine isBoundary_iff.2 ⟨before ++ piece, after, ?_, byteLength_append before piece⟩
    rw [h, List.append_assoc]
  have hle : byteLength before ≤ byteLength before + byteLength piece := Nat.le_add_right _ _
  rw [slice, extract_cells h, filterMap_flatMap_charCells, hstart, hstop, decide_eq_true hle]
  rfl

/-- A piece can be cut out where both ends are boundaries in order, and it is what stands between
them. -/
theorem slice_eq_ok_iff : s.slice start stop = .ok piece ↔
    ∃ before after, s.chars = before ++ (piece ++ after) ∧ byteLength before = start ∧
      byteLength before + byteLength piece = stop := by
  constructor
  · intro h
    have hends : start ≤ stop ∧ s.isBoundary start ∧ s.isBoundary stop := by
      unfold slice at h
      split at h
      · next hends => simpa [and_assoc] using hends
      · cases h
    obtain ⟨hle, hstart, hstop⟩ := hends
    obtain ⟨before, rest, hchars, rfl⟩ := isBoundary_iff.1 hstart
    obtain ⟨before', after, hchars', rfl⟩ := isBoundary_iff.1 hstop
    -- The first prefix is a prefix of the second one, since it is not longer.
    rcases List.append_eq_append_iff.1 (hchars.symm.trans hchars') with
      ⟨mid, rfl, hrest⟩ | ⟨mid, rfl, hrest⟩
    · rw [hrest] at hchars
      rw [byteLength_append, slice_of_eq hchars] at h
      cases h
      exact ⟨before, after, hchars, rfl, (byteLength_append before piece).symm⟩
    · have hmid : mid = [] := by
        cases mid with
        | nil => rfl
        | cons c mid =>
          have hpos := c.utf8Size_pos
          rw [byteLength_append, byteLength] at hle
          omega
      subst hmid
      rw [List.append_nil] at h hchars ⊢
      have hempty : s.slice (byteLength before') (byteLength before' + byteLength []) = .ok [] :=
        slice_of_eq hchars
      rw [byteLength, Nat.add_zero, h] at hempty
      cases hempty
      exact ⟨before', rest, hchars, rfl, rfl⟩
  · rintro ⟨before, after, hchars, rfl, rfl⟩
    exact slice_of_eq hchars

end Subject

end RegexEngine
