import RegexEngine.Pattern.Token
import RegexEngine.Proofs.Parsing.Hexadecimal
import RegexEngine.Proofs.Parsing.Remainder
import RegexEngine.Proofs.Parsing.Tokens

/-!
# Numbers behind a backslash

An escape may give a character by its number: octal digits behind a zero, two or four hexadecimal
digits, a surrogate pair, or a number in braces.  Each reader reads just these texts.

* `Numeral.octal_eq_iff` is about octal digits.
* `Escape.byte?_eq_some_iff`, `Escape.utf16?_eq_some_iff` and `Escape.braced?_eq_some_iff` are about
  hexadecimal digits, and `Escape.control?_eq_some_iff` about letters.
-/

namespace RegexEngine

/-! ## Octal digits -/

namespace Numeral

/-- A digit of an octal number. -/
def IsOctalDigit (c : Char) : Prop :=
  '0' ≤ c ∧ c ≤ '7'

instance (c : Char) : Decidable (IsOctalDigit c) :=
  inferInstanceAs (Decidable (_ ∧ _))

/-- The text starts with a number of at most two octal digits, and the second text follows.  There
is no digit that could have been read too. -/
inductive OctalAt : List Char → Nat → List Char → Prop
  | none {rest : List Char} (hrest : ∀ c ∈ rest.head?, ¬IsOctalDigit c) : OctalAt rest 0 rest
  | one {c : Char} {rest : List Char} (hc : IsOctalDigit c)
      (hrest : ∀ d ∈ rest.head?, ¬IsOctalDigit d) : OctalAt (c :: rest) (ofDigit c) rest
  | two {c d : Char} {rest : List Char} (hc : IsOctalDigit c) (hd : IsOctalDigit d) :
      OctalAt (c :: d :: rest) (8 * ofDigit c + ofDigit d) rest

variable {s rest : List Char} {n : Nat}

theorem IsOctalDigit.ofDigit_lt {c : Char} (h : IsOctalDigit c) : ofDigit c < 8 := by
  have hlast : c.toNat ≤ '7'.toNat := h.2
  have hseven : '7'.toNat = 55 := rfl
  have hzero : '0'.toNat = 48 := rfl
  unfold ofDigit
  omega

theorem OctalAt.lt (h : OctalAt s n rest) : n < 64 := by
  cases h with
  | none => omega
  | one hc =>
    have := hc.ofDigit_lt
    omega
  | two hc hd =>
    have := hc.ofDigit_lt
    have := hd.ofDigit_lt
    omega

/-- As many digits are read as there are, but not more than two. -/
theorem octal_eq_iff : octal 2 s = (n, rest) ↔ OctalAt s n rest := by
  have hdigit (c : Char) : (decide ('0' ≤ c) && decide (c ≤ '7')) = decide (IsOctalDigit c) := by
    rw [← Bool.decide_and]
    rfl
  have hnone {s : List Char} (hs : ∀ c ∈ s.head?, ¬IsOctalDigit c) : octal 2 s = (0, s) := by
    cases s with
    | nil => rfl
    | cons c s => simp [octal, hdigit, hs c rfl, value]
  have hone {c : Char} {s : List Char} (hc : IsOctalDigit c) (hs : ∀ d ∈ s.head?, ¬IsOctalDigit d) :
      octal 2 (c :: s) = (ofDigit c, s) := by
    cases s with
    | nil => simp [octal, hdigit, hc, value]
    | cons d s => simp [octal, hdigit, hc, hs d rfl, value]
  have htwo {c d : Char} (s : List Char) (hc : IsOctalDigit c) (hd : IsOctalDigit d) :
      octal 2 (c :: d :: s) = (8 * ofDigit c + ofDigit d, s) := by
    simp [octal, hdigit, hc, hd, value]
  constructor
  · intro h
    by_cases hfirst : ∀ c ∈ s.head?, ¬IsOctalDigit c
    · rw [hnone hfirst] at h
      cases h
      exact .none hfirst
    · obtain ⟨c, tail, rfl⟩ : ∃ c tail, s = c :: tail := by
        cases s with
        | nil => exact absurd (fun c hc => by cases hc) hfirst
        | cons c tail => exact ⟨c, tail, rfl⟩
      have hc : IsOctalDigit c := by simpa using hfirst
      by_cases hsecond : ∀ d ∈ tail.head?, ¬IsOctalDigit d
      · rw [hone hc hsecond] at h
        cases h
        exact .one hc hsecond
      · obtain ⟨d, tail, rfl⟩ : ∃ d tail', tail = d :: tail' := by
          cases tail with
          | nil => exact absurd (fun c hc => by cases hc) hsecond
          | cons d tail => exact ⟨d, tail, rfl⟩
        have hd : IsOctalDigit d := by simpa using hsecond
        rw [htwo tail hc hd] at h
        cases h
        exact .two hc hd
  · intro h
    cases h with
    | none hrest => exact hnone hrest
    | one hc hrest => exact hone hc hrest
    | two hc hd => exact htwo rest hc hd

end Numeral

open Numeral (Hexadecimal)

namespace Escape

/-! ## Hexadecimal digits -/

/-- The first half of a surrogate pair. -/
def IsHighSurrogate (n : Nat) : Prop :=
  0xD800 ≤ n ∧ n < 0xDC00

/-- The second half of a surrogate pair. -/
def IsLowSurrogate (n : Nat) : Prop :=
  0xDC00 ≤ n ∧ n < 0xE000

instance (n : Nat) : Decidable (IsHighSurrogate n) :=
  inferInstanceAs (Decidable (_ ∧ _))

/-- The number of the character that two surrogates stand for. -/
def supplementary (high low : Nat) : Nat :=
  0x10000 + (high - 0xD800) * 0x400 + (low - 0xDC00)

/-- What stands between the braces is the number of the character, perhaps behind a plus sign. -/
def Numbers (body : List Char) (c : Char) : Prop :=
  Hexadecimal body c.toNat ∨ ∃ digits, body = '+' :: digits ∧ Hexadecimal digits c.toNat

/-- The text goes on with the second half of a surrogate pair, written as an escape. -/
def LowFollows (s : List Char) : Prop :=
  ∃ digits low rest, s = '\\' :: 'u' :: (digits ++ rest) ∧ digits.length = 4 ∧
    Hexadecimal digits low ∧
    IsLowSurrogate low

variable {s rest : List Char} {c : Char}

/-- A text in braces is read as the character whose number it is. -/
theorem braced?_eq_some_iff {body : List Char} : braced? body = some c ↔ Numbers body c := by
  have hplus : Numeral.hexDigit? '+' = none := rfl
  have hdigits {digits : List Char} : (if digits = [] then none else
      (Numeral.hexValue? digits).bind Numeral.scalar?) = some c ↔ Hexadecimal digits c.toNat := by
    rw [Option.ite_none_left_eq_some]
    constructor
    · rintro ⟨hne, h⟩
      obtain ⟨n, hn, hscalar⟩ := Option.bind_eq_some_iff.1 h
      rw [Numeral.scalar?_eq_some_iff.1 hscalar]
      exact (Numeral.hexValue?_eq_some_iff hne).1 hn
    · intro h
      refine ⟨h.1, ?_⟩
      rw [h.hexValue?]
      exact Numeral.scalar?_toNat c
  unfold braced? Numbers
  dsimp only
  split
  · next digits =>
    rw [hdigits]
    constructor
    · intro h
      exact .inr ⟨digits, rfl, h⟩
    · rintro (h | ⟨digits', heq, h⟩)
      · exact absurd rfl (h.ne_cons hplus digits)
      · rwa [(List.cons.inj heq).2]
  · next hnot =>
    rw [hdigits]
    constructor
    · exact .inl
    · rintro (h | ⟨digits, rfl, -⟩)
      · exact h
      · exact absurd rfl (hnot digits)

theorem lowSurrogate?_eq_some_iff {low : Nat} : lowSurrogate? s = some (low, rest) ↔
    ∃ digits, s = '\\' :: 'u' :: (digits ++ rest) ∧ digits.length = 4 ∧ Hexadecimal digits low ∧
      IsLowSurrogate low := by
  constructor
  · intro h
    unfold lowSurrogate? at h
    split at h
    · next s =>
      obtain ⟨hread, hlow⟩ := Option.filter_eq_some_iff.1 h
      obtain ⟨digits, rfl, hlength, hdigits⟩ :=
        (Numeral.hexadecimal?_eq_some_iff (by decide)).1 hread
      exact ⟨digits, rfl, hlength, hdigits, by simpa [IsLowSurrogate] using hlow⟩
    · cases h
  · rintro ⟨digits, rfl, hlength, hdigits, hlow⟩
    have hread : Numeral.hexadecimal? 4 (digits ++ rest) = some (low, rest) :=
      (Numeral.hexadecimal?_eq_some_iff (by decide)).2 ⟨digits, rfl, hlength, hdigits⟩
    show (Numeral.hexadecimal? 4 (digits ++ rest)).filter _ = _
    rw [hread]
    exact Option.filter_eq_some_iff.2 ⟨rfl, by simpa [IsLowSurrogate] using hlow⟩

section

variable {digits : List Char} {n : Nat} (hlength : digits.length = 4)
    (hdigits : Hexadecimal digits n)

include hlength hdigits

/-- Four digits are the number of a character, or the first half of a pair. -/
theorem utf16?_of_digits (rest : List Char) : utf16? (digits ++ rest) =
    if IsHighSurrogate n then
      match lowSurrogate? rest with
      | none => none
      | some (low, rest) => (Numeral.scalar? (supplementary n low)).map (·, rest)
    else (Numeral.scalar? n).map (·, rest) := by
  have hread : Numeral.hexadecimal? 4 (digits ++ rest) = some (n, rest) :=
    (Numeral.hexadecimal?_eq_some_iff (by decide)).2 ⟨digits, rfl, hlength, hdigits⟩
  rw [utf16?, hread]
  rfl

/-- Four digits that are no surrogate. -/
theorem utf16?_of_toNat_eq (hc : c.toNat = n) (rest : List Char) :
    utf16? (digits ++ rest) = some (c, rest) := by
  have hvalid : c.toNat < 0xD800 ∨ 0xDFFF < c.toNat ∧ c.toNat < 0x110000 := c.valid
  have hnot : ¬IsHighSurrogate n := by
    unfold IsHighSurrogate
    omega
  rw [utf16?_of_digits hlength hdigits, if_neg hnot, Numeral.scalar?_eq_some_iff.2 hc]
  rfl

/-- Four digits that are a high surrogate, before a low one. -/
theorem utf16?_of_pair {second : List Char} {low : Nat} (hsecond : second.length = 4)
    (hlow : Hexadecimal second low) (hishigh : IsHighSurrogate n) (hislow : IsLowSurrogate low)
    (hc : c.toNat = supplementary n low) (rest : List Char) :
    utf16? (digits ++ '\\' :: 'u' :: (second ++ rest)) = some (c, rest) := by
  have hread : lowSurrogate? ('\\' :: 'u' :: (second ++ rest)) = some (low, rest) :=
    lowSurrogate?_eq_some_iff.2 ⟨second, rfl, hsecond, hlow, hislow⟩
  rw [utf16?_of_digits hlength hdigits, if_pos hishigh, hread]
  dsimp only
  rw [Numeral.scalar?_eq_some_iff.2 hc]
  rfl

/-- A surrogate that is not the first half of a pair. -/
theorem utf16?_eq_none (hn : IsHighSurrogate n ∧ ¬LowFollows rest ∨ IsLowSurrogate n) :
    utf16? (digits ++ rest) = none := by
  rw [utf16?_of_digits hlength hdigits]
  rcases hn with ⟨hhigh, hfollows⟩ | hlow
  · rw [if_pos hhigh]
    cases hread : lowSurrogate? rest with
    | none => rfl
    | some result =>
      obtain ⟨low, tail⟩ := result
      obtain ⟨second, hrest⟩ := lowSurrogate?_eq_some_iff.1 hread
      exact absurd ⟨second, low, tail, hrest⟩ hfollows
  · obtain ⟨hfirst, hlast⟩ := hlow
    have hnot : ¬IsHighSurrogate n := by
      unfold IsHighSurrogate
      omega
    have hinvalid : ¬n.isValidChar := by
      unfold Nat.isValidChar
      omega
    rw [if_neg hnot, Numeral.scalar?, if_neg hinvalid]
    rfl

end

/-- Four digits that are no surrogate are read, or two times four digits that are a pair. -/
theorem utf16?_eq_some_iff : utf16? s = some (c, rest) ↔
    (∃ digits, s = digits ++ rest ∧ digits.length = 4 ∧ Hexadecimal digits c.toNat) ∨
      ∃ first second high low, s = first ++ '\\' :: 'u' :: (second ++ rest) ∧ first.length = 4 ∧
        second.length = 4 ∧ Hexadecimal first high ∧ Hexadecimal second low ∧
        IsHighSurrogate high ∧ IsLowSurrogate low ∧ c.toNat = supplementary high low := by
  constructor
  · intro h
    cases hread : Numeral.hexadecimal? 4 s with
    | none => simp [utf16?, hread] at h
    | some result =>
      obtain ⟨n, mid⟩ := result
      obtain ⟨digits, rfl, hlength, hdigits⟩ :=
        (Numeral.hexadecimal?_eq_some_iff (by decide)).1 hread
      rw [utf16?_of_digits hlength hdigits] at h
      split at h
      · next hhigh =>
        cases hlow : lowSurrogate? mid with
        | none => simp [hlow] at h
        | some result =>
          obtain ⟨low, tail⟩ := result
          rw [hlow] at h
          obtain ⟨c', hc', heq⟩ := Option.map_eq_some_iff.1 h
          cases heq
          obtain ⟨second, rfl, hsecond, hlow, hislow⟩ := lowSurrogate?_eq_some_iff.1 hlow
          exact .inr ⟨digits, second, n, low, rfl, hlength, hsecond, hdigits, hlow, hhigh, hislow,
            Numeral.scalar?_eq_some_iff.1 hc'⟩
      · obtain ⟨c', hc', heq⟩ := Option.map_eq_some_iff.1 h
        cases heq
        rw [← Numeral.scalar?_eq_some_iff.1 hc'] at hdigits
        exact .inl ⟨digits, rfl, hlength, hdigits⟩
  · rintro (⟨digits, rfl, hlength, hdigits⟩ | ⟨first, second, high, low, rfl, hfirst,
      hsecond, hhigh, hlow, hishigh, hislow, hc⟩)
    · exact utf16?_of_toNat_eq hlength hdigits rfl rest
    · exact utf16?_of_pair hfirst hhigh hsecond hlow hishigh hislow hc rest

/-- Two digits are read as the character with that number. -/
theorem byte?_eq_some_iff : byte? s = some (c, rest) ↔
    ∃ digits, s = digits ++ rest ∧ digits.length = 2 ∧ Hexadecimal digits c.toNat := by
  unfold byte?
  rw [Option.map_eq_some_iff]
  constructor
  · rintro ⟨⟨n, tail⟩, hread, heq⟩
    cases heq
    obtain ⟨digits, rfl, hlength, hdigits⟩ := (Numeral.hexadecimal?_eq_some_iff (by decide)).1 hread
    have hlt := hdigits.lt
    rw [hlength] at hlt
    have hnumber : (Char.ofNat n).toNat = n := Scalar.toNat_ofNat (by unfold Nat.isValidChar; omega)
    exact ⟨digits, rfl, hlength, hnumber.symm ▸ hdigits⟩
  · rintro ⟨digits, rfl, hlength, hdigits⟩
    refine ⟨(c.toNat, rest), ?_, Prod.ext (Char.ofNat_toNat c) rfl⟩
    exact (Numeral.hexadecimal?_eq_some_iff (by decide)).2 ⟨digits, rfl, hlength, hdigits⟩

/-- A letter is read as the character that it is with the control key held down. -/
theorem control?_eq_some_iff : control? s = some (c, rest) ↔
    ∃ letter : Char, s = letter :: rest ∧ letter.isAlpha ∧ c.toNat = letter.toNat % 32 := by
  have hnumber (n : Nat) : (Char.ofNat (n % 32)).toNat = n % 32 :=
    Scalar.toNat_ofNat (by unfold Nat.isValidChar; omega)
  unfold control?
  split
  · next letter tail =>
    rw [Option.ite_none_right_eq_some]
    constructor
    · rintro ⟨hletter, heq⟩
      cases heq
      exact ⟨letter, rfl, hletter, hnumber _⟩
    · rintro ⟨_, heq, hletter, hc⟩
      cases heq
      rw [← hc, Char.ofNat_toNat]
      exact ⟨hletter, rfl⟩
  · simp

/-! ## Escapes with a number -/

theorem named?_eq_none (inClass : Bool) (hc : c = 'x' ∨ c = 'u') : named? inClass c = none := by
  rcases hc with rfl | rfl <;> cases inClass <;> rfl

theorem read_byte (inClass : Bool) (s : List Char) :
    read inClass ('x' :: s) = numbered ('x' :: s) (byte? s) := by
  rw [read, named?_eq_none inClass (.inl rfl)]

theorem read_unit (inClass : Bool) (hs : ∀ tail, s ≠ '{' :: tail) :
    read inClass ('u' :: s) = numbered ('u' :: s) (utf16? s) := by
  rw [read, named?_eq_none inClass (.inr rfl)]
  exact hs

theorem read_braced (inClass : Bool) {body : List Char} (hbody : '}' ∉ body) (rest : List Char) :
    read inClass ('u' :: '{' :: (body ++ '}' :: rest)) =
      numbered ('u' :: '{' :: (body ++ '}' :: rest)) ((braced? body).map (·, rest)) := by
  rw [read, named?_eq_none inClass (.inr rfl)]
  simp only [untilBrace_append hbody]

end Escape

end RegexEngine
