import RegexEngine.Fault

/-!
# Numerals in pattern texts

Readers take a text and give back what they read together with the rest of the
text.  `decimal?` reads a decimal number as long as it gets; `hexadecimal?`
reads a number of a fixed count of hexadecimal digits.
-/

namespace RegexEngine.Numeral

/-- The value of digits in the given base, the most significant one first. -/
def value (base : Nat) (digits : List Nat) : Nat :=
  digits.foldl (fun n d => base * n + d) 0

/-- The value of a decimal digit. -/
def ofDigit (c : Char) : Nat :=
  c.toNat - '0'.toNat

/-- The value of a hexadecimal digit in either case. -/
def hexDigit? (c : Char) : Option Nat :=
  if c.isDigit then some (ofDigit c)
  else if 'a' ≤ c ∧ c ≤ 'f' then some (c.toNat - 'a'.toNat + 10)
  else if 'A' ≤ c ∧ c ≤ 'F' then some (c.toNat - 'A'.toNat + 10)
  else none

/-- The value of a text of hexadecimal digits. -/
def hexValue? (digits : List Char) : Option Nat :=
  (digits.mapM hexDigit?).map (value 16)

/-- Reads all decimal digits that follow.  There has to be one, and the number
has to be below `sizeLimit`. -/
def decimal? (s : List Char) : Option (Nat × List Char) :=
  let digits := s.takeWhile Char.isDigit
  let n := value 10 (digits.map ofDigit)
  if digits ≠ [] ∧ n < sizeLimit then some (n, s.dropWhile Char.isDigit) else none

/-- Reads `count` hexadecimal digits. -/
def hexadecimal? (count : Nat) (s : List Char) : Option (Nat × List Char) :=
  if count ≤ s.length then
    (hexValue? (s.take count)).map fun n => (n, s.drop count)
  else
    none

/-- Reads up to `count` octal digits. -/
def octal (count : Nat) (s : List Char) : Nat × List Char :=
  let digits := (s.take count).takeWhile fun c => '0' ≤ c && c ≤ '7'
  (value 8 (digits.map ofDigit), s.drop digits.length)

/-- The scalar value of a number. -/
def scalar? (n : Nat) : Option Char :=
  if n.isValidChar then some (Char.ofNat n) else none

theorem length_dropWhile_le {α : Type} (p : α → Bool) (s : List α) :
    (s.dropWhile p).length ≤ s.length :=
  (List.dropWhile_sublist p).length_le

theorem length_le_of_decimal? {s rest : List Char} {n : Nat}
    (h : decimal? s = some (n, rest)) : rest.length ≤ s.length := by
  simp only [decimal?, Option.ite_none_right_eq_some, Option.some.injEq, Prod.mk.injEq] at h
  exact h.2.2 ▸ length_dropWhile_le _ _

theorem length_le_of_hexadecimal? {count : Nat} {s rest : List Char} {n : Nat}
    (h : hexadecimal? count s = some (n, rest)) : rest.length ≤ s.length := by
  simp only [hexadecimal?, Option.ite_none_right_eq_some, Option.map_eq_some_iff,
    Prod.mk.injEq] at h
  obtain ⟨_, _, _, _, rfl⟩ := h
  simp

theorem length_octal_le (count : Nat) (s : List Char) :
    (octal count s).2.length ≤ s.length := by
  simp [octal]

end RegexEngine.Numeral
