import RegexEngine.Unicode.Derived

/-!
# Quoted text

Messages show characters and texts in quotation marks.  What would not be seen
as itself there is escaped: control characters and other invisible ones, blanks
other than the space, marks that would attach to what stands before them, the
backslash and the quotation mark in use.
-/

namespace RegexEngine.Text

/-- The lowercase hexadecimal digits of a number. -/
def hexDigits (n : Nat) : List Char :=
  Nat.toDigits 16 n

/-- The characters that are shown as nothing or as a blank. -/
def invisible : CharSet :=
  .diff (Unicode.unionAll [Unicode.unassigned, Unicode.GeneralCategory.membersOf
    [.control, .format, .privateUse, .lineSeparator, .paragraphSeparator, .spaceSeparator]])
    (.ofChar ' ')

/-- A character by its number. -/
def byNumber (c : Char) : List Char :=
  ['\\', 'u', '{'] ++ hexDigits c.toNat ++ ['}']

/-- A character as it is written between quotation marks.  `marks` are the
quotation marks to escape. -/
def escape (marks : List Char) (c : Char) : List Char :=
  match c with
  | '\x00' => ['\\', '0']
  | '\t' => ['\\', 't']
  | '\r' => ['\\', 'r']
  | '\n' => ['\\', 'n']
  | '\\' => ['\\', '\\']
  | c =>
    if marks.contains c then ['\\', c]
    else if Unicode.graphemeExtend.test c || invisible.test c then byNumber c
    else [c]

/-- A character in single quotation marks. -/
def quotedChar (c : Char) : String :=
  .ofList (['\''] ++ escape ['\''] c ++ ['\''])

/-- A text in double quotation marks. -/
def quoted (text : List Char) : String :=
  .ofList (['"'] ++ text.flatMap (escape ['"']) ++ ['"'])

end RegexEngine.Text
