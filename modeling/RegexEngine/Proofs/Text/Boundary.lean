import Mathlib.Data.List.Basic
import RegexEngine.Look

/-!
# Boundaries of a subject

A subject keeps one cell for each byte.  The facts here turn offsets into splits
of the list of its characters, so that no later proof looks at cells.

* `charAt?_byteLength` reads a cell: behind a prefix stands the next character.
* `isBoundary_iff` says that the boundaries are the lengths of the prefixes.
* `isBoundary_add` and `add_le_of_lt` say that the next boundary lies just behind
  the character at a boundary.
-/

namespace RegexEngine

theorem byteLength_append (xs ys : List Char) :
    byteLength (xs ++ ys) = byteLength xs + byteLength ys := by
  induction xs with
  | nil => simp [byteLength]
  | cons x xs ih =>
    simp only [List.cons_append, byteLength, ih]
    omega

theorem length_charCells (c : Char) : (charCells c).length = c.utf8Size := by
  have := c.utf8Size_pos
  simp only [charCells, List.length_cons, List.length_replicate]
  omega

theorem length_flatMap_charCells (chars : List Char) :
    (chars.flatMap charCells).length = byteLength chars := by
  induction chars with
  | nil => rfl
  | cons c chars ih =>
    rw [List.flatMap_cons, List.length_append, length_charCells, ih, byteLength]

namespace Subject

/-! ## Cells and prefixes -/

theorem size_eq (s : Subject) : s.size = byteLength s.chars := by
  rw [size, ← Array.length_toList, s.cells_eq, length_flatMap_charCells]

/-- Behind a prefix stands the first of the other characters. -/
theorem charAt?_byteLength {s : Subject} {before after : List Char}
    (h : s.chars = before ++ after) : s.charAt? (byteLength before) = after.head? := by
  rw [charAt?, ← Array.getElem?_toList, s.cells_eq, h, List.flatMap_append,
    ← length_flatMap_charCells before, List.getElem?_append_right (Nat.le_refl _), Nat.sub_self]
  cases after with
  | nil => rfl
  | cons c after => rfl

/-- The cell of a character belongs to a prefix of the text. -/
theorem exists_of_getElem?_cells {chars : List Char} {pos : Nat} {c : Char}
    (h : (chars.flatMap charCells)[pos]? = some (some c)) :
    ∃ before after, chars = before ++ c :: after ∧ byteLength before = pos := by
  induction chars generalizing pos with
  | nil => simp at h
  | cons d chars ih =>
    rw [List.flatMap_cons] at h
    rcases Nat.lt_or_ge pos (charCells d).length with hlt | hge
    · rw [List.getElem?_append_left hlt] at h
      cases pos with
      | zero =>
        obtain rfl : d = c := by simpa [charCells] using h
        exact ⟨[], chars, rfl, rfl⟩
      | succ pos =>
        simp [charCells, List.getElem?_replicate] at h
    · rw [List.getElem?_append_right hge] at h
      obtain ⟨before, after, rfl, hpos⟩ := ih h
      refine ⟨d :: before, after, rfl, ?_⟩
      rw [length_charCells] at hge hpos
      simp only [byteLength]
      omega

theorem exists_of_charAt? {s : Subject} {pos : Nat} {c : Char} (h : s.charAt? pos = some c) :
    ∃ before after, s.chars = before ++ c :: after ∧ byteLength before = pos := by
  rw [charAt?, Option.join_eq_some_iff, ← Array.getElem?_toList, s.cells_eq] at h
  exact exists_of_getElem?_cells h

/-! ## Boundaries -/

/-- The boundaries are the lengths of the prefixes. -/
theorem isBoundary_iff {s : Subject} {pos : Nat} :
    s.isBoundary pos ↔ ∃ before after, s.chars = before ++ after ∧ byteLength before = pos := by
  simp only [isBoundary, Bool.or_eq_true, beq_iff_eq, Option.isSome_iff_exists]
  constructor
  · rintro (rfl | ⟨c, hc⟩)
    · exact ⟨s.chars, [], by simp, s.size_eq.symm⟩
    · obtain ⟨before, after, hchars, hpos⟩ := exists_of_charAt? hc
      exact ⟨before, c :: after, hchars, hpos⟩
  · rintro ⟨before, after, hchars, rfl⟩
    cases after with
    | nil => exact Or.inl (by rw [size_eq, hchars, List.append_nil])
    | cons c after => exact Or.inr ⟨c, charAt?_byteLength hchars⟩

theorem isBoundary_of_charAt? {s : Subject} {pos : Nat} {c : Char}
    (h : s.charAt? pos = some c) : s.isBoundary pos := by
  simp [isBoundary, h]

theorem isBoundary_size (s : Subject) : s.isBoundary s.size := by
  simp [isBoundary]

theorem le_size_of_isBoundary {s : Subject} {pos : Nat} (h : s.isBoundary pos) :
    pos ≤ s.size := by
  obtain ⟨before, after, hchars, rfl⟩ := isBoundary_iff.1 h
  rw [size_eq, hchars, byteLength_append]
  omega

/-- Behind the character at a boundary is a boundary. -/
theorem isBoundary_add {s : Subject} {pos : Nat} {c : Char} (h : s.charAt? pos = some c) :
    s.isBoundary (pos + c.utf8Size) := by
  obtain ⟨before, after, hchars, rfl⟩ := exists_of_charAt? h
  refine isBoundary_iff.2 ⟨before ++ [c], after, by simp [hchars], ?_⟩
  simp [byteLength_append, byteLength]

theorem exists_charAt? {s : Subject} {pos : Nat} (h : s.isBoundary pos) (hlt : pos < s.size) :
    ∃ c, s.charAt? pos = some c := by
  simp only [isBoundary, Bool.or_eq_true, beq_iff_eq, Option.isSome_iff_exists] at h
  exact h.resolve_left (Nat.ne_of_lt hlt)

/-- No boundary lies within a character. -/
theorem add_le_of_lt {s : Subject} {pos bound : Nat} {c : Char} (h : s.charAt? pos = some c)
    (hbound : s.isBoundary bound) (hlt : pos < bound) : pos + c.utf8Size ≤ bound := by
  obtain ⟨before, after, hchars, rfl⟩ := exists_of_charAt? h
  obtain ⟨before', after', hchars', rfl⟩ := isBoundary_iff.1 hbound
  rcases List.append_eq_append_iff.1 (hchars'.symm.trans hchars) with
    ⟨mid, hmid, _⟩ | ⟨mid, hmid, hafter⟩
  · rw [hmid, byteLength_append] at hlt
    omega
  · cases mid with
    | nil =>
      rw [hmid, List.append_nil] at hlt
      omega
    | cons d mid =>
      obtain ⟨rfl, -⟩ := List.cons.inj hafter
      rw [hmid, byteLength_append, byteLength]
      omega

/-! ## The character before -/

theorem charAt?_eq_none_within {s : Subject} {pos i : Nat} {c : Char} (h : s.charAt? pos = some c)
    (hi : pos < i) (hlt : i < pos + c.utf8Size) : s.charAt? i = none := by
  cases hc : s.charAt? i with
  | none => rfl
  | some d =>
    have := add_le_of_lt h (isBoundary_of_charAt? hc) hi
    omega

/-- The character before the end of a character is that character. -/
theorem charBefore?_add {s : Subject} {pos : Nat} {c : Char} (h : s.charAt? pos = some c) :
    s.charBefore? (pos + c.utf8Size) = some c := by
  have within (k : Nat) (hk : k < c.utf8Size) : s.charBefore? (pos + k + 1) = some c := by
    induction k with
    | zero => simp [charBefore?, h]
    | succ k ih =>
      have hnone : s.charAt? (pos + (k + 1)) = none :=
        charAt?_eq_none_within h (by omega) (by omega)
      rw [charBefore?, hnone, Option.none_or]
      exact ih (by omega)
  have hpos := c.utf8Size_pos
  have := within (c.utf8Size - 1) (by omega)
  rwa [show pos + (c.utf8Size - 1) + 1 = pos + c.utf8Size by omega] at this

theorem mem_boundariesDownFrom {s : Subject} {pos start : Nat}
    (h : start ∈ s.boundariesDownFrom pos) : s.isBoundary start ∧ start ≤ pos := by
  simp only [boundariesDownFrom, List.mem_filter, List.mem_reverse, List.mem_range] at h
  exact ⟨h.2, by omega⟩

end Subject

theorem Category.before_add {text : Subject} {pos : Nat} {c : Char}
    (h : text.charAt? pos = some c) : Category.before text (pos + c.utf8Size) = Category.of c := by
  rw [before, Subject.charBefore?_add h]
  rfl

theorem Category.after_of_charAt? {text : Subject} {pos : Nat} {c : Char}
    (h : text.charAt? pos = some c) : Category.after text pos = Category.of c := by
  rw [after, h]
  rfl

end RegexEngine
