import Mathlib
import RegexEngine.CharSet.Range
import RegexEngine.Proofs.Parsing.Numeral

/-!
# Hexadecimal numbers

A hexadecimal number is written in digits of either case, and it may begin with zeros.

* `Numeral.Hexadecimal` says which number a text of digits is.
* `Numeral.hexValue?_eq_some_iff` and `Numeral.hexadecimal?_eq_some_iff` say what the readers read.
-/

namespace RegexEngine.Numeral

/-! ## Digits -/

/-- The character is the digit, in lower or upper case. -/
def IsHexDigit (c : Char) (d : Nat) : Prop :=
  d < 16 ∧ (c = d.digitChar ∨ c = d.digitChar.toUpper)

theorem IsHexDigit.hexDigit? {c : Char} {d : Nat} (h : IsHexDigit c d) : hexDigit? c = some d := by
  have hall : ∀ d < 16, Numeral.hexDigit? d.digitChar = some d ∧
      Numeral.hexDigit? d.digitChar.toUpper = some d := by decide
  obtain ⟨hlt, rfl | rfl⟩ := h
  · exact (hall d hlt).1
  · exact (hall d hlt).2

theorem isHexDigit_of_hexDigit? {c : Char} {d : Nat} (h : hexDigit? c = some d) :
    IsHexDigit c d := by
  have hdecimal : ∀ d < 10, d.digitChar.toNat = '0'.toNat + d := by decide
  have hlower : ∀ d < 6, (d + 10).digitChar.toNat = 'a'.toNat + d := by decide
  have hupper : ∀ d < 6, (d + 10).digitChar.toUpper.toNat = 'A'.toNat + d := by decide
  have hzero : '0'.toNat = 48 := rfl
  have ha : 'a'.toNat = 97 := rfl
  have hA : 'A'.toNat = 65 := rfl
  unfold Numeral.hexDigit? at h
  split at h
  · next hdigit =>
    obtain rfl := Option.some.inj h
    simp only [Char.isDigit, Bool.and_eq_true, decide_eq_true_eq] at hdigit
    have hfirst : '0'.toNat ≤ c.toNat := hdigit.1
    have hlast : c.toNat ≤ '9'.toNat := hdigit.2
    have hnine : '9'.toNat = 57 := rfl
    have hlt : ofDigit c < 10 := by
      unfold ofDigit
      omega
    refine ⟨by omega, .inl (Char.toNat_inj.1 ?_)⟩
    rw [hdecimal _ hlt]
    unfold ofDigit
    omega
  · split at h
    · next hletter =>
      obtain rfl := Option.some.inj h
      have hfirst : 'a'.toNat ≤ c.toNat := hletter.1
      have hlast : c.toNat ≤ 'f'.toNat := hletter.2
      have hf : 'f'.toNat = 102 := rfl
      refine ⟨by omega, .inl (Char.toNat_inj.1 ?_)⟩
      rw [hlower _ (by omega)]
      omega
    · split at h
      · next hletter =>
        obtain rfl := Option.some.inj h
        have hfirst : 'A'.toNat ≤ c.toNat := hletter.1
        have hlast : c.toNat ≤ 'F'.toNat := hletter.2
        have hF : 'F'.toNat = 70 := rfl
        refine ⟨by omega, .inr (Char.toNat_inj.1 ?_)⟩
        rw [hupper _ (by omega)]
        omega
      · cases h

theorem hexDigit?_eq_some_iff {c : Char} {d : Nat} : hexDigit? c = some d ↔ IsHexDigit c d :=
  ⟨isHexDigit_of_hexDigit?, IsHexDigit.hexDigit?⟩

/-! ## Numbers -/

/-- The text is the number in hexadecimal digits, of which there is at least one. -/
def Hexadecimal (digits : List Char) (n : Nat) : Prop :=
  digits ≠ [] ∧ ∃ values, List.Forall₂ IsHexDigit digits values ∧ value 16 values = n

theorem mapM_hexDigit?_eq_some_iff {digits : List Char} {values : List Nat} :
    digits.mapM hexDigit? = some values ↔ List.Forall₂ IsHexDigit digits values := by
  induction digits generalizing values with
  | nil => simp [eq_comm]
  | cons c digits ih =>
    simp only [List.mapM_cons, Option.bind_eq_bind, Option.bind_eq_some_iff, Option.pure_def,
      Option.some.injEq, List.forall₂_cons_left_iff, hexDigit?_eq_some_iff, ih]
    constructor
    · rintro ⟨d, hd, values, hvalues, rfl⟩
      exact ⟨d, values, hd, hvalues, rfl⟩
    · rintro ⟨d, values, hd, hvalues, rfl⟩
      exact ⟨d, hd, values, hvalues, rfl⟩

/-- A text has a value if it is a hexadecimal number, and the value is the number. -/
theorem hexValue?_eq_some_iff {digits : List Char} (hne : digits ≠ []) {n : Nat} :
    hexValue? digits = some n ↔ Hexadecimal digits n := by
  simp only [hexValue?, Option.map_eq_some_iff, mapM_hexDigit?_eq_some_iff]
  exact ⟨fun h => ⟨hne, h⟩, fun h => h.2⟩

theorem Hexadecimal.hexValue? {digits : List Char} {n : Nat} (h : Hexadecimal digits n) :
    hexValue? digits = some n :=
  (hexValue?_eq_some_iff h.1).2 h

/-- No number begins with what is not a digit. -/
theorem Hexadecimal.ne_cons {digits : List Char} {n : Nat} (h : Hexadecimal digits n) {c : Char}
    (hc : hexDigit? c = none) : ∀ tail, digits ≠ c :: tail := by
  rintro tail rfl
  obtain ⟨-, values, hvalues, -⟩ := h
  obtain ⟨d, values, hd, -, -⟩ := List.forall₂_cons_left_iff.1 hvalues
  rw [hd.hexDigit?] at hc
  cases hc

theorem Hexadecimal.append_ne_cons {digits : List Char} {n : Nat} (h : Hexadecimal digits n)
    {c : Char}
    (hc : hexDigit? c = none) (rest : List Char) : ∀ tail, digits ++ rest ≠ c :: tail := by
  intro tail heq
  obtain ⟨d, digits, rfl⟩ := List.exists_cons_of_ne_nil h.1
  obtain ⟨rfl, -⟩ := List.cons.inj heq
  exact h.ne_cons hc digits rfl

/-- A character that is no digit stands nowhere in a number. -/
theorem Hexadecimal.notMem {digits : List Char} {n : Nat} (h : Hexadecimal digits n) {c : Char}
    (hc : hexDigit? c = none) : c ∉ digits := by
  intro hmem
  obtain ⟨-, values, hvalues, -⟩ := h
  obtain ⟨i, hi, rfl⟩ := List.mem_iff_getElem.1 hmem
  have hdigit := (List.forall₂_iff_get.1 hvalues).2 i hi (hvalues.length_eq ▸ hi)
  rw [List.get_eq_getElem] at hdigit
  rw [hdigit.hexDigit?] at hc
  cases hc

theorem foldl_value_lt (base : Nat) {values : List Nat} (h : ∀ d ∈ values, d < base) (n : Nat) :
    values.foldl (fun n d => base * n + d) n < (n + 1) * base ^ values.length := by
  induction values generalizing n with
  | nil =>
    rw [List.foldl_nil, List.length_nil, Nat.pow_zero]
    omega
  | cons d values ih =>
    obtain ⟨hd, hvalues⟩ := List.forall_mem_cons.1 h
    have hstep : base * n + d + 1 ≤ (n + 1) * base := by
      rw [Nat.add_one_mul, Nat.mul_comm n base]
      omega
    calc (d :: values).foldl (fun n d => base * n + d) n
      _ < (base * n + d + 1) * base ^ values.length := ih hvalues (base * n + d)
      _ ≤ (n + 1) * base * base ^ values.length := Nat.mul_le_mul_right _ hstep
      _ = (n + 1) * base ^ (d :: values).length := by
        rw [List.length_cons, Nat.pow_succ, Nat.mul_assoc, Nat.mul_comm base]

/-- A number is bounded by the count of its digits. -/
theorem Hexadecimal.lt {digits : List Char} {n : Nat} (h : Hexadecimal digits n) :
    n < 16 ^ digits.length := by
  obtain ⟨-, values, hvalues, rfl⟩ := h
  have hdigits : ∀ d ∈ values, d < 16 := by
    intro d hd
    obtain ⟨i, hi, rfl⟩ := List.mem_iff_getElem.1 hd
    exact (List.forall₂_iff_get.1 hvalues).2 i (hvalues.length_eq ▸ hi) hi |>.1
  have hlt := foldl_value_lt 16 hdigits 0
  rwa [Nat.zero_add, Nat.one_mul, ← hvalues.length_eq] at hlt

/-! ## What is read -/

/-- A fixed count of digits is read if there are as many. -/
theorem hexadecimal?_eq_some_iff {count n : Nat} (hcount : 0 < count) {s rest : List Char} :
    hexadecimal? count s = some (n, rest) ↔
      ∃ digits, s = digits ++ rest ∧ digits.length = count ∧ Hexadecimal digits n := by
  constructor
  · intro h
    simp only [hexadecimal?, Option.ite_none_right_eq_some, Option.map_eq_some_iff,
      Prod.mk.injEq] at h
    obtain ⟨hle, value, hvalue, rfl, rfl⟩ := h
    have hlength : (s.take count).length = count := List.length_take_of_le hle
    have hne : s.take count ≠ [] := List.ne_nil_of_length_pos (by omega)
    exact ⟨s.take count, (List.take_append_drop count s).symm, hlength,
      (hexValue?_eq_some_iff hne).1 hvalue⟩
  · rintro ⟨digits, rfl, rfl, hdigits⟩
    have hle : digits.length ≤ (digits ++ rest).length := by simp
    rw [hexadecimal?, if_pos hle, List.take_left, List.drop_left, hdigits.hexValue?]
    rfl

/-- The scalar values are the numbers below the limit but the surrogates. -/
theorem scalar?_eq_some_iff {n : Nat} {c : Char} : scalar? n = some c ↔ c.toNat = n := by
  constructor
  · intro h
    obtain ⟨hvalid, heq⟩ := Option.ite_none_right_eq_some.1 h
    obtain rfl := Option.some.inj heq
    exact Scalar.toNat_ofNat hvalid
  · rintro rfl
    exact scalar?_toNat c

end RegexEngine.Numeral
