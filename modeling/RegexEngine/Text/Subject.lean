import RegexEngine.Fault

/-!
# Subject texts

A `Subject` is a text whose positions are byte offsets into its UTF-8 form.
It keeps one cell for each byte.  The cell of the first byte of a character
holds the character and the other cells are empty, so the character at an
offset is found in one step.

* `Subject.charAt?` and `Subject.charBefore?` read the characters on the two
  sides of an offset.
* `Subject.isBoundary` tells the offsets at which a character starts or the
  text ends; `Subject.boundaries` lists them.
* `Subject.slice` cuts out the text between two boundaries.
-/

namespace RegexEngine

/-- The number of bytes of a text. -/
def byteLength : List Char → Nat
  | [] => 0
  | c :: text => c.utf8Size + byteLength text

/-- The cells of one character: its first byte holds it. -/
def charCells (c : Char) : List (Option Char) :=
  some c :: List.replicate (c.utf8Size - 1) none

/-- A text with its byte positions. -/
structure Subject where
  /-- The characters of the text. -/
  chars : List Char
  /-- One cell for each byte of the text. -/
  cells : Array (Option Char)
  /-- The cells are those of the characters, in order. -/
  cells_eq : cells.toList = chars.flatMap charCells

namespace Subject

/-- The subject made of the given characters. -/
def ofList (chars : List Char) : Subject where
  chars := chars
  cells := (chars.flatMap charCells).toArray
  cells_eq := rfl

/-- The subject made of the characters of a string. -/
def ofString (text : String) : Subject :=
  ofList text.toList

/-- The number of bytes. -/
def size (s : Subject) : Nat :=
  s.cells.size

/-- The character that starts at byte offset `pos`. -/
def charAt? (s : Subject) (pos : Nat) : Option Char :=
  s.cells[pos]?.join

/-- The last character that starts before byte offset `pos`. -/
def charBefore? (s : Subject) : Nat → Option Char
  | 0 => none
  | pos + 1 => (s.charAt? pos).or (s.charBefore? pos)

/-- Whether a character starts at `pos`, or the text ends there. -/
def isBoundary (s : Subject) (pos : Nat) : Bool :=
  pos == s.size || (s.charAt? pos).isSome

/-- The boundaries at `pos` or later, in ascending order. -/
def boundariesFrom (s : Subject) (pos : Nat) : List Nat :=
  (List.range' pos (s.size + 1 - pos)).filter s.isBoundary

/-- All boundaries, in ascending order. -/
def boundaries (s : Subject) : List Nat :=
  s.boundariesFrom 0

/-- The boundaries at `pos` or earlier, in descending order. -/
def boundariesDownFrom (s : Subject) (pos : Nat) : List Nat :=
  (List.range (pos + 1)).reverse.filter s.isBoundary

/-- Insists that the text can be cut at `pos`. -/
def checkBoundary (s : Subject) (pos : Nat) : Except Fault Unit :=
  if s.isBoundary pos then .ok () else .error (.badSlice pos s.size)

/-- The characters between two boundaries. -/
def slice (s : Subject) (start stop : Nat) : Except Fault (List Char) :=
  if start ≤ stop && s.isBoundary start && s.isBoundary stop then
    .ok ((s.cells.extract start stop).toList.filterMap id)
  else
    .error (.badSlice start stop)

/-- A character at an offset lies inside the text. -/
theorem lt_size_of_charAt? {s : Subject} {pos : Nat} {c : Char}
    (h : s.charAt? pos = some c) : pos < s.size := by
  unfold charAt? at h
  unfold size
  rcases Nat.lt_or_ge pos s.cells.size with hlt | hge
  · exact hlt
  · rw [Array.getElem?_eq_none hge] at h
    simp at h

end Subject

end RegexEngine
