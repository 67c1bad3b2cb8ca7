import RegexEngine.Pattern.Token
import RegexEngine.Proofs.CharSet.Membership

/-!
# Letters and digits in ASCII

The tables of letters and numbers are long texts, but among the ASCII characters they list only
letters and digits, all small letters among them.  So the characters with a meaning in the opening
of a group stand in no name.

`isClear` checks a table without building its set, entry by entry: what has been read of an entry is
all that it keeps.
-/

namespace RegexEngine.Unicode

/-- All ASCII members of a set are letters and digits. -/
def PlainAscii (s : CharSet) : Prop :=
  ∀ c, s.test c → c.toNat < 0x80 → c.isAlphanum

/-! ## Entries -/

/-- The numbers of the digits, of the letters, and of the characters outside ASCII. -/
def plainBlocks : List (Nat × Nat) :=
  [(0x30, 0x39), (0x41, 0x5A), (0x61, 0x7A), (0x80, 0xD7FF), (0xE000, 0x10FFFF)]

/-- Whether the numbers from `a` to `b` lie in one block. -/
def inBlock (a b : Nat) : Bool :=
  plainBlocks.any fun (first, last) => first ≤ a && a ≤ b && b ≤ last

/-- Whether an entry is clear that ends with the number after its mark, or without one. -/
def endsClear : Option (Nat × Bool) → Option Nat → Bool
  | none, some b => inBlock b b
  | some (a, _), some b => inBlock a b
  | _, none => true

/-- Whether the rest of a table lists numbers of the blocks only, after what has been read of the
current entry. -/
def isClear (lower : Option (Nat × Bool)) (number : Option Nat) : List Char → Bool
  | [] => endsClear lower number
  | c :: rest =>
    match hexDigit? c with
    | some d => isClear lower (some (16 * number.getD 0 + d)) rest
    | none =>
      if c = '-' then isClear (some (number.getD 0, false)) none rest
      else if c = ':' then isClear (some (number.getD 0, true)) none rest
      else endsClear lower number && isClear none none rest

/-- A range without ASCII characters other than letters and digits. -/
def PlainRange (r : CharRange) : Prop :=
  ∀ c ∈ r, c.toNat < 0x80 → c.isAlphanum

theorem le_of_inBlock {a b : Nat} (h : inBlock a b) : a ≤ b := by
  simp only [inBlock, plainBlocks, List.any_cons, List.any_nil, Bool.or_false, Bool.or_eq_true,
    Bool.and_eq_true, decide_eq_true_eq] at h
  omega

theorem inBlock_cases {a b n : Nat} (h : inBlock a b) (ha : a ≤ n) (hb : n ≤ b) :
    n.isValidChar ∧ (n < 0x80 → (Char.ofNat n).isAlphanum) := by
  have hascii : ∀ n < 0x80, (0x30 ≤ n ∧ n ≤ 0x39 ∨ 0x41 ≤ n ∧ n ≤ 0x5A ∨ 0x61 ≤ n ∧ n ≤ 0x7A) →
      (Char.ofNat n).isAlphanum := by
    decide
  simp only [inBlock, plainBlocks, List.any_cons, List.any_nil, Bool.or_false, Bool.or_eq_true,
    Bool.and_eq_true, decide_eq_true_eq] at h
  refine ⟨?_, fun hlt => hascii n hlt ?_⟩
  · simp only [Nat.isValidChar]
    omega
  · omega

theorem plainRange_of {a b : Nat} (h : inBlock a b) :
    PlainRange (.of (Char.ofNat a) (Char.ofNat b)) := by
  have hle := le_of_inBlock h
  have ha := Scalar.toNat_ofNat (inBlock_cases h (Nat.le_refl a) hle).1
  have hb := Scalar.toNat_ofNat (inBlock_cases h hle (Nat.le_refl b)).1
  have hordered : Char.ofNat a ≤ Char.ofNat b := by
    show (Char.ofNat a).toNat ≤ (Char.ofNat b).toNat
    omega
  intro c hc hlt
  rw [CharRange.mem_of hordered] at hc
  have hfirst : (Char.ofNat a).toNat ≤ c.toNat := hc.1
  have hlast : c.toNat ≤ (Char.ofNat b).toNat := hc.2
  have hplain := (inBlock_cases h (n := c.toNat) (by omega) (by omega)).2 hlt
  rwa [Char.ofNat_toNat] at hplain

theorem plainRange_single {a b n : Nat} (h : inBlock a b) (ha : a ≤ n) (hb : n ≤ b) :
    PlainRange (.single (Char.ofNat n)) := by
  obtain ⟨hvalid, hplain⟩ := inBlock_cases h ha hb
  have hn := Scalar.toNat_ofNat hvalid
  intro c hc hlt
  obtain rfl : c = Char.ofNat n := Char.le_antisymm hc.2 hc.1
  exact hplain (by omega)

/-! ## Tables -/

namespace TableReader

/-- A clear entry adds plain ranges. -/
theorem plainRange_finish {r : TableReader} (hranges : ∀ range ∈ r.ranges, PlainRange range)
    (h : endsClear r.lower r.number) : ∀ range ∈ r.finish.ranges, PlainRange range := by
  fun_cases finish r with
  | case1 b hlower hnumber =>
    rw [hlower, hnumber] at h
    exact List.forall_mem_cons.2 ⟨plainRange_single h (Nat.le_refl b) (Nat.le_refl b), hranges⟩
  | case2 a b hlower hnumber =>
    rw [hlower, hnumber] at h
    exact List.forall_mem_cons.2 ⟨plainRange_of h, hranges⟩
  | case3 a b hlower hnumber =>
    rw [hlower, hnumber] at h
    have hle := le_of_inBlock h
    intro range hrange
    rcases List.mem_append.1 hrange with hrange | hrange
    · rw [List.mem_reverse, List.mem_map] at hrange
      obtain ⟨i, hi, rfl⟩ := hrange
      rw [List.mem_range] at hi
      exact plainRange_single h (by omega) (by omega)
    · exact hranges range hrange
  | case4 => exact hranges

/-- What is read of a clear text is plain. -/
theorem plainRange_foldl {chars : List Char} {r : TableReader}
    (hranges : ∀ range ∈ r.ranges, PlainRange range) (h : isClear r.lower r.number chars) :
    ∀ range ∈ (chars.foldl read r).finish.ranges, PlainRange range := by
  induction chars generalizing r with
  | nil => exact plainRange_finish hranges h
  | cons c chars ih =>
    rw [List.foldl_cons]
    cases hdigit : hexDigit? c with
    | some d =>
      simp only [isClear, hdigit] at h
      have hread : r.read c = { r with number := some (16 * r.number.getD 0 + d) } := by
        simp only [read, hdigit]
      rw [hread]
      exact ih hranges h
    | none =>
      simp only [isClear, hdigit] at h
      by_cases hdash : c = '-'
      · have hread : r.read c =
            { r with lower := some (r.number.getD 0, false), number := none } := by
          simp only [read, hdigit, if_pos hdash]
        rw [if_pos hdash] at h
        rw [hread]
        exact ih hranges h
      · rw [if_neg hdash] at h
        by_cases hcolon : c = ':'
        · have hread : r.read c =
              { r with lower := some (r.number.getD 0, true), number := none } := by
            simp only [read, hdigit, if_neg hdash, if_pos hcolon]
          rw [if_pos hcolon] at h
          rw [hread]
          exact ih hranges h
        · have hread : r.read c = r.finish := by
            simp only [read, hdigit, if_neg hdash, if_neg hcolon]
          rw [if_neg hcolon] at h
          obtain ⟨hends, hrest⟩ := (Bool.and_eq_true _ _).mp h
          have hfresh : r.finish.lower = none ∧ r.finish.number = none := by
            fun_cases finish r <;> exact ⟨rfl, rfl⟩
          rw [hread]
          apply ih (plainRange_finish hranges hends)
          rw [hfresh.1, hfresh.2]
          exact hrest

end TableReader

theorem plainAscii_decode {table : String} {chars : List Char} (htable : table = .ofList chars)
    (h : isClear none none chars) : PlainAscii (decode table) := by
  intro c hc
  unfold decode at hc
  rw [CharSet.test_ofRanges, String.foldl_eq_foldl_toList, htable, String.toList_ofList] at hc
  obtain ⟨range, hrange, hmem⟩ := hc
  have hranges := TableReader.plainRange_foldl (r := {}) (by simp) h
  exact hranges range (List.mem_reverse.1 hrange) c hmem

theorem plainAscii_unionAll {sets : List CharSet} (h : ∀ s ∈ sets, PlainAscii s) :
    PlainAscii (unionAll sets) := by
  intro c hc
  unfold unionAll at hc
  rw [CharSet.test_ofRanges] at hc
  obtain ⟨range, hrange, hmem⟩ := hc
  rw [List.mem_mergeSort, List.mem_flatMap] at hrange
  obtain ⟨s, hs, hrange⟩ := hrange
  exact h s hs c ((CharSet.test_iff s c).2 ⟨range, Array.mem_toList_iff.1 hrange, hmem⟩)

/-! ## Letters and numbers -/

open GeneralCategory

set_option maxRecDepth 60000

/-- The categories of letters and numbers. -/
def isLetterOrNumber : GeneralCategory → Bool
  | uppercaseLetter | lowercaseLetter | titlecaseLetter | modifierLetter | otherLetter => true
  | decimalNumber | letterNumber | otherNumber => true
  | _ => false

theorem plainAscii_members (g : GeneralCategory) (h : isLetterOrNumber g) :
    PlainAscii g.members := by
  cases g
  case uppercaseLetter | lowercaseLetter | titlecaseLetter | modifierLetter | otherLetter |
      decimalNumber | letterNumber | otherNumber =>
    exact plainAscii_decode rfl (by decide +kernel)
  all_goals cases h

theorem plainAscii_membersOf {categories : List GeneralCategory}
    (h : ∀ g ∈ categories, isLetterOrNumber g) :
    PlainAscii (membersOf categories) := by
  apply plainAscii_unionAll
  intro s hs
  obtain ⟨g, hg, rfl⟩ := List.mem_map.1 hs
  exact plainAscii_members g (h g hg)

theorem plainAscii_alphabetic : PlainAscii alphabetic := by
  have hlowercase : PlainAscii otherLowercase := plainAscii_decode rfl (by decide +kernel)
  have huppercase : PlainAscii otherUppercase := plainAscii_decode rfl (by decide +kernel)
  have halphabetic : PlainAscii otherAlphabetic := plainAscii_decode rfl (by decide +kernel)
  have hletter : PlainAscii letter := plainAscii_membersOf (by decide)
  apply plainAscii_unionAll
  simp only [List.forall_mem_cons, List.not_mem_nil, false_imp_iff, implies_true, and_true]
  refine ⟨?_, ?_, hletter, plainAscii_members letterNumber rfl, halphabetic⟩
  · exact plainAscii_unionAll (by simp [plainAscii_members lowercaseLetter rfl, hlowercase])
  · exact plainAscii_unionAll (by simp [plainAscii_members uppercaseLetter rfl, huppercase])

theorem plainAscii_alphanumeric : PlainAscii alphanumeric := by
  have hnumber : PlainAscii (membersOf [decimalNumber, letterNumber, otherNumber]) :=
    plainAscii_membersOf (by decide)
  exact plainAscii_unionAll (by simp [plainAscii_alphabetic, hnumber])

/-! ## What tables list -/

/-- The set of a table has the members of each range that is read. -/
theorem test_decode {table : String} {chars : List Char} (htable : table = .ofList chars)
    {range : CharRange}
    (h : range ∈ (chars.foldl TableReader.read {}).finish.ranges) {c : Char} (hc : c ∈ range) :
    (decode table).test c := by
  unfold decode
  rw [CharSet.test_ofRanges, String.foldl_eq_foldl_toList, htable, String.toList_ofList]
  exact ⟨range, List.mem_reverse.2 h, hc⟩

theorem test_unionAll {sets : List CharSet} {s : CharSet} (hs : s ∈ sets) {c : Char}
    (hc : s.test c) :
    (unionAll sets).test c := by
  obtain ⟨range, hrange, hmem⟩ := (CharSet.test_iff s c).1 hc
  unfold unionAll
  rw [CharSet.test_ofRanges]
  exact ⟨range,
    List.mem_mergeSort.2 (List.mem_flatMap.2 ⟨s, hs, Array.mem_toList_iff.2 hrange⟩), hmem⟩

theorem test_alphanumeric {c : Char} (hc : c ∈ CharRange.of 'a' 'z') : alphanumeric.test c := by
  have hletter : lowercaseLetter.members.test c := test_decode rfl (by decide +kernel) hc
  have hlowercase : lowercase.test c := test_unionAll List.mem_cons_self hletter
  have halphabetic : alphabetic.test c := test_unionAll List.mem_cons_self hlowercase
  exact test_unionAll List.mem_cons_self halphabetic

end RegexEngine.Unicode

namespace RegexEngine.Token

/-- The ASCII characters of a name are letters, digits, underscores and dollar signs. -/
theorem isNameChar_eq_false {c : Char} (hc : c.toNat < 0x80) (hplain : c.isAlphanum = false)
    (hother : c ≠ '_' ∧ c ≠ '$') : isNameChar c = false := by
  rw [Bool.eq_false_iff]
  intro h
  simp only [isNameChar, Bool.or_eq_true, beq_iff_eq] at h
  rcases h with (h | h) | h
  · rw [Unicode.plainAscii_alphanumeric c h hc] at hplain
    cases hplain
  · exact hother.1 h
  · exact hother.2 h

/-- A small letter may stand in a name. -/
theorem isNameChar_of_mem {c : Char} (hc : c ∈ CharRange.of 'a' 'z') : isNameChar c := by
  simp [isNameChar, Unicode.test_alphanumeric hc]

end RegexEngine.Token
