import RegexEngine.Proofs.Parsing.Form
import RegexEngine.Proofs.Parsing.Numeral

/-!
# Writing patterns

`Pattern.render` writes a pattern as a text.  Every character of a pattern is written as an
escape, so it cannot be taken for a character of the syntax.

A number goes on as long as there are digits, and a quantifier takes the mode that follows it.
`Starts` says of a text that it can follow either, and `Pattern.starts_render` that each pattern
can.
-/

namespace RegexEngine

/-! ## Pieces of patterns -/

namespace Render

/-- A character, as `\u{h..}`. -/
def char (c : Char) : List Char :=
  '\\' :: 'u' :: '{' :: (Nat.toDigits 16 c.toNat ++ ['}'])

/-- A range of a class, as its first and its last character. -/
def range (r : CharRange) : List Char :=
  char r.first ++ '-' :: char r.last

/-- What stands between the brackets of a class.  The empty class is the complement of all
characters. -/
def ranges (s : CharSet) : List Char :=
  if s.isEmpty then '^' :: range (.of Scalar.least Scalar.greatest)
  else s.ranges.toList.flatMap range

/-- A class, range by range. -/
def set (s : CharSet) : List Char :=
  '[' :: (ranges s ++ [']'])

/-- An assertion. -/
def assertion : Assertion → List Char
  | .inputStart => ['^']
  | .inputEnd => ['$']
  | .wordBoundary => ['\\', 'b']
  | .notWordBoundary => ['\\', 'B']

/-- A reference to a group. -/
def reference : GroupKey → List Char
  | .index n => '\\' :: Nat.toDigits 10 n
  | .name s => '\\' :: 'k' :: '<' :: (s.toList ++ ['>'])

/-- The letters of the flags that have a value. -/
def letters (flags : FlagOverride) (value : Bool) : List Char :=
  (if flags.ignoreCase = some value then ['i'] else []) ++
    (if flags.multiline = some value then ['m'] else []) ++
      (if flags.dotAll = some value then ['s'] else [])

/-- Flags, those to be set before a dash and those to be cleared after it. -/
def flags (f : FlagOverride) : List Char :=
  letters f true ++ (if letters f false = [] then [] else '-' :: letters f false) ++ [':']

/-- What stands between the parenthesis of a group and its inside. -/
def kind : GroupKind → List Char
  | .capture none => []
  | .capture (some s) => '?' :: '<' :: (s.toList ++ ['>'])
  | .withFlags f => '?' :: flags f
  | .lookAround .ahead false => ['?', '=']
  | .lookAround .ahead true => ['?', '!']
  | .lookAround .behind false => ['?', '<', '=']
  | .lookAround .behind true => ['?', '<', '!']
  | .atomic => ['?', '>']

/-- A group with the given inside. -/
def group (k : GroupKind) (inside : List Char) : List Char :=
  '(' :: (kind k ++ inside ++ [')'])

/-- The bounds of a quantifier. -/
def bounds (min : Nat) : Option Nat → List Char
  | none => Nat.toDigits 10 min ++ [',', '}']
  | some max => Nat.toDigits 10 min ++ ',' :: (Nat.toDigits 10 max ++ ['}'])

/-- The mode of a quantifier. -/
def mode : Mode → List Char
  | .greedy => []
  | .lazy => ['?']
  | .possessive => ['+']

/-- A quantifier. -/
def quantifier (min : Nat) (max : Option Nat) (m : Mode) : List Char :=
  '{' :: (bounds min max ++ mode m)

end Render

namespace Pattern

mutual

/-- The text of a pattern. -/
def render : Pattern → List Char
  | text cs => cs.flatMap Render.char
  | concat parts => renderAll parts
  | alt branches => renderAny branches
  | repeated body min max mode => render body ++ Render.quantifier min max mode
  | oneOf set => Render.set set
  | assert assertion => Render.assertion assertion
  | withFlags flags body => Render.group (.withFlags flags) (render body)
  | lookAround direction negated body => Render.group (.lookAround direction negated) (render body)
  | atomic body => Render.group .atomic (render body)
  | capture name body => Render.group (.capture name) (render body)
  | reference group => Render.reference group

/-- The text of patterns, one after the other. -/
def renderAll : List Pattern → List Char
  | [] => []
  | part :: parts => render part ++ renderAll parts

/-- The text of patterns with bars between them. -/
def renderAny : List Pattern → List Char
  | [] => []
  | [branch] => render branch
  | branch :: branches => render branch ++ '|' :: renderAny branches

end

end Pattern

/-! ## What follows a piece -/

/-- The text does not go on with a digit or with the mode of a quantifier. -/
def Starts (s : List Char) : Prop :=
  ∀ c ∈ s.head?, c.isDigit = false ∧ c ≠ '?' ∧ c ≠ '+'

namespace Starts

variable {s rest : List Char} {c : Char}

theorem nil : Starts [] :=
  nofun

theorem cons (h : c.isDigit = false ∧ c ≠ '?' ∧ c ≠ '+') : Starts (c :: s) := by
  rintro _ ⟨⟩
  exact h

theorem append (hs : Starts s) (hrest : Starts rest) : Starts (s ++ rest) := by
  cases s with
  | nil => exact hrest
  | cons c s => exact cons (hs c rfl)

theorem char : Starts (Render.char c) :=
  cons (by decide)

theorem chars (cs : List Char) : Starts (cs.flatMap Render.char) := by
  induction cs with
  | nil => exact nil
  | cons c cs ih => exact append char ih

theorem set (s : CharSet) : Starts (Render.set s) :=
  cons (by decide)

theorem assertion (a : Assertion) : Starts (Render.assertion a) := by
  cases a <;> exact cons (by decide)

theorem reference (group : GroupKey) : Starts (Render.reference group) := by
  cases group <;> exact cons (by decide)

theorem group (k : GroupKind) (inside : List Char) : Starts (Render.group k inside) :=
  cons (by decide)

theorem quantifier (min : Nat) (max : Option Nat) (m : Mode) :
    Starts (Render.quantifier min max m) :=
  cons (by decide)

end Starts

namespace Pattern

mutual

/-- A pattern does not start with what could belong to a number or a quantifier before it. -/
theorem starts_render : (p : Pattern) → Starts p.render
  | text cs => .chars cs
  | concat parts => starts_renderAll parts
  | alt branches => starts_renderAny branches
  | repeated body min max mode => (starts_render body).append (.quantifier min max mode)
  | oneOf s => .set s
  | assert a => .assertion a
  | withFlags _ _ | lookAround _ _ _ | atomic _ | capture _ _ => .group _ _
  | reference group => .reference group

theorem starts_renderAll : (parts : List Pattern) → Starts (renderAll parts)
  | [] => .nil
  | part :: parts => (starts_render part).append (starts_renderAll parts)

theorem starts_renderAny : (branches : List Pattern) → Starts (renderAny branches)
  | [] => .nil
  | [branch] => starts_render branch
  | branch :: _ :: _ => (starts_render branch).append (.cons (by decide))

end

end Pattern

end RegexEngine
