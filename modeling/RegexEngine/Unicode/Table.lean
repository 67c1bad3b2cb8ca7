import RegexEngine.CharSet.Basic

/-!
# Tables of character sets

The tables of character properties are texts.  An entry is one hexadecimal
number `a`, a range `a-b`, or `a:b` for every other number from `a` to `b`, and
blanks stand between entries.  `decode` reads such a text.
-/

namespace RegexEngine.Unicode

/-- The value of a hexadecimal digit in lower case. -/
def hexDigit? (c : Char) : Option Nat :=
  if '0' ≤ c && c ≤ '9' then some (c.toNat - '0'.toNat)
  else if 'a' ≤ c && c ≤ 'f' then some (c.toNat - 'a'.toNat + 10)
  else none

/-- What has been read of a table. -/
structure TableReader where
  /-- The ranges of the finished entries, latest first. -/
  ranges : List CharRange := []
  /-- The number before the mark of the current entry, and whether the entry
  takes every other number only. -/
  lower : Option (Nat × Bool) := none
  /-- The number being read. -/
  number : Option Nat := none

namespace TableReader

/-- Ends the current entry. -/
def finish (r : TableReader) : TableReader :=
  match r.lower, r.number with
  | none, some b => { ranges := .single (Char.ofNat b) :: r.ranges }
  | some (a, false), some b => { ranges := .of (Char.ofNat a) (Char.ofNat b) :: r.ranges }
  | some (a, true), some b =>
    let picked := (List.range ((b - a) / 2 + 1)).map fun i =>
      CharRange.single (Char.ofNat (a + 2 * i))
    { ranges := picked.reverse ++ r.ranges }
  | _, none => { ranges := r.ranges }

/-- Reads one character of a table. -/
def read (r : TableReader) (c : Char) : TableReader :=
  match hexDigit? c with
  | some d => { r with number := some (16 * r.number.getD 0 + d) }
  | none =>
    if c = '-' then { r with lower := some (r.number.getD 0, false), number := none }
    else if c = ':' then { r with lower := some (r.number.getD 0, true), number := none }
    else r.finish

end TableReader

/-- The set that a table describes. -/
def decode (table : String) : CharSet :=
  .ofRanges (table.foldl TableReader.read {}).finish.ranges.reverse

/-- The members of any of the sets. -/
def unionAll (sets : List CharSet) : CharSet :=
  .ofRanges ((sets.flatMap (·.ranges.toList)).mergeSort fun r s => r.first ≤ s.first)

/-- The two scalars next to the surrogates, as one range.  A set whose members
include the surrogates has no gap between them. -/
def surrogateBridge : CharSet :=
  .ofRange (Char.ofNat 0xd7ff) (Char.ofNat 0xe000)

/-- A set with the names it is known by. -/
structure NamedSet where
  /-- The names, in their usual spelling. -/
  names : List String
  /-- The set. -/
  members : CharSet

end RegexEngine.Unicode
