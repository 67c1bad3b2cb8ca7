import RegexEngine.CharSet.Basic

/-!
# Named character sets

The sets behind the class escapes, the dot and the assertions.
-/

namespace RegexEngine.CharSet

/-- Line feed, carriage return, U+2028 and U+2029. -/
def lineTerminators : CharSet :=
  ofChars ['\n', '\r', '\u2028', '\u2029']

/-- Every character but the line terminators. -/
def anyButLineTerminators : CharSet :=
  lineTerminators.compl

/-- The ASCII digits. -/
def digit : CharSet :=
  ofRange '0' '9'

/-- The ASCII letters, the ASCII digits and the underscore. -/
def word : CharSet :=
  ofRanges [.of 'a' 'z', .of 'A' 'Z', .of '0' '9', .single '_']

/-- Space, tab, carriage return, line feed, form feed and vertical tab. -/
def whitespace : CharSet :=
  ofChars [' ', '\t', '\r', '\n', '\x0c', '\x0b']

end RegexEngine.CharSet
