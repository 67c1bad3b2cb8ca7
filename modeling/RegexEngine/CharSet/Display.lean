import RegexEngine.Text.Quoted

/-!
# Sets of characters as text

A set is shown as its ranges between brackets.
-/

namespace RegexEngine

/-- The range as text: one character, or the two bounds with a hyphen. -/
def CharRange.display (r : CharRange) : List Char :=
  let bound := Text.escape ['\'', '"']
  if r.first = r.last then bound r.first else bound r.first ++ ['-'] ++ bound r.last

/-- The set as text. -/
def CharSet.display (s : CharSet) : String :=
  .ofList (['['] ++ s.ranges.toList.flatMap CharRange.display ++ [']'])

end RegexEngine
