/-!
# Lines of bytes

`Text.lines` splits an input at its line feeds.  A carriage return before a line
feed belongs to the end of the line, and the last line need not have an end.
`Text.decode?` reads a line as UTF-8.
-/

namespace RegexEngine.Text

/-- A line feed. -/
def lineFeed : UInt8 :=
  10

/-- A carriage return. -/
def carriageReturn : UInt8 :=
  13

/-- A line without the carriage return at its end. -/
def dropReturn (line : List UInt8) : List UInt8 :=
  if line.getLast? = some carriageReturn then line.dropLast else line

/-- The lines of an input, without their ends. -/
def lines (input : List UInt8) : List (List UInt8) :=
  if input = [] then []
  else
    let line := input.takeWhile (· ≠ lineFeed)
    match _h : input.dropWhile (· ≠ lineFeed) with
    | [] => [line]
    | _ :: rest => dropReturn line :: lines rest
termination_by input.length
decreasing_by
  have := (List.dropWhile_sublist (· ≠ lineFeed) (l := input)).length_le
  rw [_h, List.length_cons] at this
  omega

/-- The characters of bytes that are UTF-8. -/
def decode? (bytes : List UInt8) : Option (List Char) :=
  (String.fromUTF8? ⟨bytes.toArray⟩).map String.toList

end RegexEngine.Text
