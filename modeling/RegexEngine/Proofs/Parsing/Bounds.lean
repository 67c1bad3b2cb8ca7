import RegexEngine.Proofs.Parsing.Numeral
import RegexEngine.Pattern.Token

/-!
# Bounds of quantifiers

The bounds of a quantifier are one number or two, of any count of digits.  They are read as these
numbers if each number is below `sizeLimit`.  Otherwise they are read as no bounds, in the same way
as a brace with something else behind it.
-/

namespace RegexEngine

open Numeral (Digits)

/-- The bounds of a quantifier as they are written. -/
inductive WrittenBounds where
  /-- `{n}` -/
  | exactly (n : Digits)
  /-- `{n,}` -/
  | atLeast (n : Digits)
  /-- `{n,m}` -/
  | between (n m : Digits)

namespace WrittenBounds

/-- What stands behind the opening brace. -/
def text : WrittenBounds → List Char
  | exactly n => n.chars ++ ['}']
  | atLeast n => n.chars ++ [',', '}']
  | between n m => n.chars ++ ',' :: (m.chars ++ ['}'])

/-- The least number of repetitions. -/
def min : WrittenBounds → Nat
  | exactly n | atLeast n | between n _ => n.value

/-- The greatest number of repetitions, if there is one. -/
def max : WrittenBounds → Option Nat
  | exactly n => some n.value
  | atLeast _ => none
  | between _ m => some m.value

/-- Each number is below the limit. -/
def Fits (b : WrittenBounds) : Prop :=
  b.min < sizeLimit ∧ ∀ m ∈ b.max, m < sizeLimit

instance (b : WrittenBounds) : Decidable b.Fits :=
  inferInstanceAs (Decidable (_ ∧ _))

variable {b : WrittenBounds} {c : Char}

/-- Apart from digits there are a comma and a brace. -/
theorem eq_of_mem_text (h : c ∈ b.text) : c.isDigit ∨ c = ',' ∨ c = '}' := by
  cases b with
  | exactly n =>
    rcases List.mem_append.1 h with h | h
    · exact .inl (n.isDigit c h)
    · exact .inr (.inr (List.mem_singleton.1 h))
  | atLeast n =>
    rcases List.mem_append.1 h with h | h
    · exact .inl (n.isDigit c h)
    · simpa using Or.inr h
  | between n m =>
    rcases List.mem_append.1 h with h | h
    · exact .inl (n.isDigit c h)
    · rcases List.mem_cons.1 h with rfl | h
      · exact .inr (.inl rfl)
      · rcases List.mem_append.1 h with h | h
        · exact .inl (m.isDigit c h)
        · exact .inr (.inr (List.mem_singleton.1 h))

end WrittenBounds

namespace Token

variable {rest : List Char}

theorem digits_append_ne_cons (n : Digits) {c : Char} (hc : c.isDigit = false) :
    ∀ tail, n.chars ++ rest ≠ c :: tail := by
  intro tail heq
  obtain ⟨d, digits, hdigits⟩ := List.exists_cons_of_ne_nil n.ne_nil
  have hd : d.isDigit := n.isDigit d (hdigits ▸ List.mem_cons_self)
  rw [hdigits] at heq
  obtain ⟨rfl, -⟩ := List.cons_eq_cons.1 heq
  rw [hc] at hd
  cases hd

/-- Written bounds are read as their numbers if the numbers fit, and otherwise not at all. -/
theorem bounds?_text (b : WrittenBounds) (rest : List Char) :
    bounds? (b.text ++ rest) = if b.Fits then some (b.min, b.max, rest) else none := by
  have hclose (rest : List Char) : ∀ c ∈ ('}' :: rest).head?, c.isDigit = false := by
    rintro _ ⟨⟩
    rfl
  have hcomma (rest : List Char) : ∀ c ∈ (',' :: rest).head?, c.isDigit = false := by
    rintro _ ⟨⟩
    rfl
  cases b with
  | exactly n =>
    rw [WrittenBounds.text, List.append_assoc, List.singleton_append, bounds?,
      Numeral.decimal?_digits n (hclose rest)]
    by_cases hn : n.value < sizeLimit
    · have hfits : (WrittenBounds.exactly n).Fits := ⟨hn, fun m hm => Option.some.inj hm ▸ hn⟩
      rw [if_pos hn, if_pos hfits]
      rfl
    · rw [if_neg hn, if_neg fun hfits => hn hfits.1]
  | atLeast n =>
    rw [WrittenBounds.text, List.append_assoc, List.cons_append, List.singleton_append, bounds?,
      Numeral.decimal?_digits n (hcomma _)]
    by_cases hn : n.value < sizeLimit
    · have hfits : (WrittenBounds.atLeast n).Fits := ⟨hn, nofun⟩
      rw [if_pos hn, if_pos hfits]
      rfl
    · rw [if_neg hn, if_neg fun hfits => hn hfits.1]
  | between n m =>
    have htext : (WrittenBounds.between n m).text ++ rest = n.chars ++ ',' ::
        (m.chars ++ '}' :: rest) := by
      simp [WrittenBounds.text]
    have hmax := Numeral.decimal?_digits m (hclose rest)
    -- The text after the comma does not start with the brace of a quantifier without maximum.
    have hbrace : ∀ tail, m.chars ++ '}' :: rest ≠ '}' :: tail := digits_append_ne_cons m rfl
    rw [htext, bounds?, Numeral.decimal?_digits n (hcomma _)]
    by_cases hn : n.value < sizeLimit
    · rw [if_pos hn]
      by_cases hm : m.value < sizeLimit
      · have hfits : (WrittenBounds.between n m).Fits := ⟨hn, fun k hk => Option.some.inj hk ▸ hm⟩
        rw [if_pos hm] at hmax
        rw [if_pos hfits]
        simp only [hmax]
        rfl
      · rw [if_neg hm] at hmax
        rw [if_neg fun hfits => hm (hfits.2 m.value rfl)]
        simp only [hmax]
    · rw [if_neg hn, if_neg fun hfits => hn hfits.1]

end Token

end RegexEngine
