import RegexEngine.Proofs.Text.Boundary

/-!
# The rest of a subject

What remains of a subject behind a prefix is a subject of its own, whose offsets are smaller by
the length of the prefix.  Nothing that is read behind the prefix depends on it, and a fault there
is about offsets that are larger by the length of the prefix.

* `Fault.shift` moves the offsets of a fault.
* `Subject.Rest` says that one subject is the rest of another one.
* `Subject.Rest.charAt?`, `Subject.Rest.isBoundary` and `Subject.Rest.slice` are about what is
  read behind the prefix.
-/

namespace RegexEngine

/-- The fault `n` bytes further on. -/
def Fault.shift (n : Nat) : Fault → Fault
  | badSlice start stop => badSlice (n + start) (n + stop)
  | missingState => missingState
  | missingRegister => missingRegister
  | tooDeep => tooDeep

namespace Subject

/-- What remains of `whole` behind `before` is `rest`. -/
def Rest (before : List Char) (whole rest : Subject) : Prop :=
  whole.chars = before ++ rest.chars

theorem rest_ofList (before after : List Char) :
    Rest before (ofList (before ++ after)) (ofList after) :=
  rfl

namespace Rest

variable {before : List Char} {whole rest : Subject}

theorem cells (h : Rest before whole rest) :
    whole.cells.toList = before.flatMap charCells ++ rest.cells.toList := by
  rw [whole.cells_eq, rest.cells_eq, h, List.flatMap_append]

theorem size (h : Rest before whole rest) : whole.size = byteLength before + rest.size := by
  rw [size_eq, size_eq, h, byteLength_append]

theorem getElem?_cells (h : Rest before whole rest) (pos : Nat) :
    whole.cells[byteLength before + pos]? = rest.cells[pos]? := by
  have hlength : (before.flatMap charCells).length ≤ byteLength before + pos := by
    rw [length_flatMap_charCells]
    omega
  rw [← Array.getElem?_toList, ← Array.getElem?_toList, h.cells, List.getElem?_append_right hlength,
    length_flatMap_charCells, Nat.add_sub_cancel_left]

theorem charAt? (h : Rest before whole rest) (pos : Nat) :
    whole.charAt? (byteLength before + pos) = rest.charAt? pos := by
  rw [Subject.charAt?, Subject.charAt?, h.getElem?_cells]

theorem isBoundary (h : Rest before whole rest) (pos : Nat) :
    whole.isBoundary (byteLength before + pos) = rest.isBoundary pos := by
  have hend : (byteLength before + pos == whole.size) = (pos == rest.size) := by
    rw [h.size, Bool.eq_iff_iff, beq_iff_eq, beq_iff_eq]
    omega
  rw [Subject.isBoundary, Subject.isBoundary, h.charAt?, hend]

/-- Pieces that lie behind the prefix are pieces of the rest. -/
theorem slice (h : Rest before whole rest) (start stop : Nat) :
    whole.slice (byteLength before + start) (byteLength before + stop) =
      (rest.slice start stop).mapError (Fault.shift (byteLength before)) := by
  have hpiece :
    (whole.cells.extract (byteLength before + start) (byteLength before + stop)).toList =
      (rest.cells.extract start stop).toList := by
    have hdrop : (before.flatMap charCells ++ rest.cells.toList).drop (byteLength before + start) =
        rest.cells.toList.drop start := by
      rw [← length_flatMap_charCells, List.drop_length_add_append]
    have hcount : byteLength before + stop - (byteLength before + start) = stop - start := by
      omega
    rw [Array.toList_extract, Array.toList_extract, List.extract_eq_take_drop,
      List.extract_eq_take_drop, h.cells, hdrop, hcount]
  have horder : decide (byteLength before + start ≤ byteLength before + stop) =
      decide (start ≤ stop) := by
    rw [decide_eq_decide]
    omega
  rw [Subject.slice, Subject.slice, h.isBoundary, h.isBoundary, hpiece, horder]
  split
  · rfl
  · rfl

end Rest

end Subject

theorem Category.after_rest {before : List Char} {whole rest : Subject}
    (h : Subject.Rest before whole rest) (pos : Nat) :
    Category.after whole (byteLength before + pos) = Category.after rest pos := by
  rw [after, after, h.charAt?]

end RegexEngine
