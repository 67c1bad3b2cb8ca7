import RegexEngine.Pattern.Numeral
import Mathlib.Data.List.TakeWhile

/-!
# Numbers that have been written

A number that has been written in decimal or hexadecimal digits is read as that number.
-/

namespace RegexEngine.Numeral

/-- Characters that pass a test are taken as before if the next one does not pass it. -/
theorem takeWhile_and_dropWhile_append {test : Char → Bool} {t : List Char}
    (ht : ∀ c ∈ t.head?, test c = false) (s : List Char) :
    (s ++ t).takeWhile test = s.takeWhile test ∧
      (s ++ t).dropWhile test = s.dropWhile test ++ t := by
  induction s with
  | nil =>
    cases t with
    | nil => exact ⟨rfl, rfl⟩
    | cons c t =>
      have hc := ht c rfl
      exact ⟨by simp [hc], by simp [hc]⟩
  | cons c s ih =>
    obtain ⟨htake, hdrop⟩ := ih
    rw [List.cons_append, List.takeWhile_cons, List.takeWhile_cons, List.dropWhile_cons,
      List.dropWhile_cons, htake, hdrop]
    split
    · exact ⟨rfl, rfl⟩
    · exact ⟨rfl, rfl⟩

/-- The digits that have been written are read as the number. -/
theorem value_map_toDigits (n : Nat) : value 10 ((Nat.toDigits 10 n).map ofDigit) = n := by
  calc value 10 ((Nat.toDigits 10 n).map ofDigit) = Nat.ofDigitChars 10 (Nat.toDigits 10 n) 0 := by
        rw [Nat.ofDigitChars_eq_foldl, value, List.foldl_map]
        rfl
    _ = n := Nat.ofDigitChars_toDigits (by decide) (by decide)

theorem isDigit_of_mem_toDigits {n : Nat} {c : Char} (h : c ∈ Nat.toDigits 10 n) : c.isDigit :=
  Nat.isDigit_of_mem_toDigits (by decide) (by decide) h

/-- A number as it is written in decimal digits.  It may begin with zeros. -/
structure Digits where
  /-- The digits. -/
  chars : List Char
  /-- There is one. -/
  ne_nil : chars ≠ []
  /-- There is nothing else. -/
  isDigit : ∀ c ∈ chars, c.isDigit

namespace Digits

/-- The number. -/
def value (n : Digits) : Nat :=
  Numeral.value 10 (n.chars.map ofDigit)

/-- The digits of a number, with no zeros before them. -/
def ofNat (n : Nat) : Digits where
  chars := Nat.toDigits 10 n
  ne_nil := Nat.toDigits_ne_nil
  isDigit _ := isDigit_of_mem_toDigits

theorem value_ofNat (n : Nat) : (ofNat n).value = n :=
  value_map_toDigits n

end Digits

/-- Digits are read up to the first character that is none, unless the number reaches the limit. -/
theorem decimal?_digits (n : Digits) {rest : List Char}
    (hrest : ∀ c ∈ rest.head?, c.isDigit = false) :
    decimal? (n.chars ++ rest) = if n.value < sizeLimit then some (n.value, rest) else none := by
  obtain ⟨htake, hdrop⟩ := takeWhile_and_dropWhile_append hrest n.chars
  have hself : n.chars.takeWhile Char.isDigit = n.chars := List.takeWhile_eq_self_iff.2 n.isDigit
  have hnil : n.chars.dropWhile Char.isDigit = [] := List.dropWhile_eq_nil_iff.2 n.isDigit
  unfold decimal?
  rw [htake, hself, hdrop, hnil]
  simp only [n.ne_nil, ne_eq, not_false_eq_true, true_and]
  rfl

/-- A number that has been written is read as the number. -/
theorem decimal?_toDigits {n : Nat} (hlt : n < sizeLimit) {rest : List Char}
    (hrest : ∀ c ∈ rest.head?, c.isDigit = false) :
    decimal? (Nat.toDigits 10 n ++ rest) = some (n, rest) := by
  have hread := decimal?_digits (.ofNat n) hrest
  rw [Digits.value_ofNat, if_pos hlt] at hread
  exact hread

/-- What has been read is a number below the limit. -/
theorem lt_of_decimal? {s rest : List Char} {n : Nat} (h : decimal? s = some (n, rest)) :
    n < sizeLimit := by
  simp only [decimal?, Option.ite_none_right_eq_some, Option.some.injEq, Prod.mk.injEq] at h
  exact h.2.1 ▸ h.1.2

/-- What is read as a number are digits that stand there. -/
theorem exists_digits_of_decimal? {s rest : List Char} {n : Nat} (h : decimal? s = some (n, rest)) :
    ∃ digits : Digits, s = digits.chars ++ rest ∧ digits.value = n := by
  simp only [decimal?, Option.ite_none_right_eq_some, Option.some.injEq, Prod.mk.injEq] at h
  obtain ⟨⟨hne, -⟩, hvalue, rfl⟩ := h
  refine ⟨⟨s.takeWhile Char.isDigit, hne, fun c hc => List.mem_takeWhile_imp hc⟩, ?_, hvalue⟩
  exact List.takeWhile_append_dropWhile.symm

/-- The digits of a number that is not zero do not begin with a zero. -/
theorem exists_toDigits_eq_cons {n : Nat} (hn : 0 < n) :
    ∃ c digits, Nat.toDigits 10 n = c :: digits ∧ c ≠ '0' := by
  induction n using Nat.strongRecOn with
  | ind n ih =>
    rw [Nat.toDigits_eq_if (by decide)]
    split
    · rename_i hlt
      have hzero : ∀ n < 10, 0 < n → n.digitChar ≠ '0' := by decide
      exact ⟨_, [], rfl, hzero n hlt hn⟩
    · obtain ⟨c, digits, hdigits, hc⟩ := ih (n / 10) (by omega) (by omega)
      exact ⟨c, digits ++ [(n % 10).digitChar], by rw [hdigits]; rfl, hc⟩

theorem foldl_value_mono (base : Nat) (hbase : 0 < base) (digits : List Nat) (n : Nat) :
    n ≤ digits.foldl (fun n d => base * n + d) n := by
  induction digits generalizing n with
  | nil => exact Nat.le_refl n
  | cons d digits ih =>
    have hle : n ≤ base * n + d :=
      Nat.le_trans (Nat.le_mul_of_pos_left n hbase) (Nat.le_add_right _ _)
    exact Nat.le_trans hle (ih _)

/-- A number that does not begin with a zero is not zero. -/
theorem pos_of_decimal? {c : Char} {s rest : List Char} {n : Nat} (hc : c.isDigit) (hzero : c ≠ '0')
    (h : decimal? (c :: s) = some (n, rest)) : 0 < n := by
  simp only [decimal?, Option.ite_none_right_eq_some, Option.some.injEq, Prod.mk.injEq] at h
  obtain ⟨-, rfl, -⟩ := h
  rw [List.takeWhile_cons, if_pos hc, List.map_cons, value, List.foldl_cons]
  have hpos : 0 < 10 * 0 + ofDigit c := by
    have hdigit : '0'.toNat ≤ c.toNat := by
      simp only [Char.isDigit, Bool.and_eq_true, decide_eq_true_eq] at hc
      exact hc.1
    have hne : c.toNat ≠ '0'.toNat := fun h => hzero (Char.toNat_inj.1 h)
    unfold ofDigit
    omega
  exact Nat.lt_of_lt_of_le hpos (foldl_value_mono 10 (by decide) _ _)

/-! ## Hexadecimal digits -/

theorem hexDigit?_digitChar {d : Nat} (h : d < 16) : hexDigit? d.digitChar = some d := by
  have hall : ∀ d < 16, hexDigit? d.digitChar = some d := by decide
  exact hall d h

/-- The hexadecimal digits that have been written are read as the number. -/
theorem hexValue?_toDigits (n : Nat) : hexValue? (Nat.toDigits 16 n) = some n := by
  induction n using Nat.strongRecOn with
  | ind n ih =>
    rw [Nat.toDigits_eq_if (by decide)]
    split
    · rename_i hlt
      simp [hexValue?, hexDigit?_digitChar hlt, value]
    · have hrest := ih (n / 16) (by omega)
      obtain ⟨digits, hdigits, hvalue⟩ := Option.map_eq_some_iff.1 hrest
      have hlast := hexDigit?_digitChar (Nat.mod_lt n (show 0 < 16 by decide))
      have hvalue' : value 16 (digits ++ [n % 16]) = n := by
        rw [value, List.foldl_append, ← value, hvalue]
        simp only [List.foldl_cons, List.foldl_nil]
        omega
      simp [hexValue?, List.mapM_append, hdigits, hlast, hvalue']

/-- A hexadecimal digit in lower case. -/
theorem exists_digitChar_of_mem_toDigits {n : Nat} {c : Char} (h : c ∈ Nat.toDigits 16 n) :
    ∃ d < 16, c = d.digitChar := by
  induction n using Nat.strongRecOn with
  | ind n ih =>
    rw [Nat.toDigits_eq_if (by decide)] at h
    split at h
    · rename_i hlt
      exact ⟨n, hlt, List.mem_singleton.1 h⟩
    · rcases List.mem_append.1 h with h | h
      · exact ih (n / 16) (by omega) h
      · exact ⟨n % 16, Nat.mod_lt n (by decide), List.mem_singleton.1 h⟩

theorem scalar?_toNat (c : Char) : scalar? c.toNat = some c := by
  have hvalid : c.toNat.isValidChar := c.valid
  rw [scalar?, if_pos hvalid, Char.ofNat_toNat]

end RegexEngine.Numeral
