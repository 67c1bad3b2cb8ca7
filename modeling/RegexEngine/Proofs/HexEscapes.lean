import Mathlib
import RegexEngine.Proofs.Class.Grammar
import RegexEngine.Proofs.Composition
import RegexEngine.Proofs.Offset
import RegexEngine.Proofs.RoundTrip

/-!
# Characters by their numbers

An escape can give a character by its number in hexadecimal digits: two digits, four digits, two
times four digits for the two halves of a surrogate pair, or any count of digits in braces.

* `Escape.Spells` lists these forms.
* `Escape.StandsFor` says that an escape is read as a character, outside a class and inside one, and
  `Escape.Malformed` that it cannot be read.
* `Escape.standsFor_or_malformed` is about all texts in braces, all groups of four digits and all
  texts that are spelled in this way.
-/

namespace RegexEngine

open Numeral (Hexadecimal)

namespace Escape

/-! ## The forms -/

/-- The text behind a backslash gives the character by its number. -/
inductive Spells : List Char → Char → Prop where
  /-- `xhh` -/
  | byte {digits : List Char} {c : Char} (hlength : digits.length = 2)
      (hdigits : Hexadecimal digits c.toNat) : Spells ('x' :: digits) c
  /-- `uhhhh` -/
  | unit {digits : List Char} {c : Char} (hlength : digits.length = 4)
      (hdigits : Hexadecimal digits c.toNat) : Spells ('u' :: digits) c
  /-- `uhhhh\uhhhh` -/
  | pair {first second : List Char} {high low : Nat} {c : Char} (hfirst : first.length = 4)
      (hsecond : second.length = 4) (hhigh : Hexadecimal first high) (hlow : Hexadecimal second low)
      (hishigh : IsHighSurrogate high) (hislow : IsLowSurrogate low)
      (hc : c.toNat = supplementary high low) :
      Spells ('u' :: (first ++ '\\' :: 'u' :: second)) c
  /-- `u{h..}` -/
  | braced {digits : List Char} {c : Char} (hdigits : Hexadecimal digits c.toNat) :
      Spells ('u' :: '{' :: (digits ++ ['}'])) c

variable {s rest : List Char} {c : Char}

/-! ## Escapes outside a class and inside one -/

/-- A character that is spelled is read, whatever follows. -/
theorem read_of_spells (h : Spells s c) (inClass : Bool) (rest : List Char) :
    read inClass (s ++ rest) = .ok (.char c, rest) := by
  have hbrace : Numeral.hexDigit? '{' = none := rfl
  cases h with
  | @byte digits _ hlength hdigits =>
    have hread : Numeral.hexadecimal? 2 (digits ++ rest) = some (c.toNat, rest) :=
      (Numeral.hexadecimal?_eq_some_iff (by decide)).2 ⟨digits, rfl, hlength, hdigits⟩
    rw [List.cons_append, read_byte, byte?, hread]
    show Except.ok (ClassAtom.char (Char.ofNat c.toNat), rest) = _
    rw [Char.ofNat_toNat]
  | @unit digits _ hlength hdigits =>
    rw [List.cons_append, read_unit inClass (hdigits.append_ne_cons hbrace rest),
      utf16?_of_toNat_eq hlength hdigits rfl]
    rfl
  | @pair first second high low _ hfirst hsecond hhigh hlow hishigh hislow hc =>
    have htext : 'u' :: (first ++ '\\' :: 'u' :: second) ++ rest =
        'u' :: (first ++ '\\' :: 'u' :: (second ++ rest)) := by simp
    rw [htext, read_unit inClass (hhigh.append_ne_cons hbrace _),
      utf16?_of_pair hfirst hhigh hsecond hlow hishigh hislow hc]
    rfl
  | @braced digits _ hdigits =>
    have hclose : '}' ∉ digits := hdigits.notMem rfl
    have htext : 'u' :: '{' :: (digits ++ ['}']) ++ rest = 'u' :: '{' ::
      (digits ++ '}' :: rest) := by simp
    rw [htext, read_braced inClass hclose, braced?_eq_some_iff.2 (.inl hdigits)]
    rfl

/-- Behind a backslash, outside a class and inside one, the text is read as the character, whatever
follows it. -/
structure StandsFor (s : List Char) (c : Char) : Prop where
  /-- Outside a class it is an atom. -/
  outside : ∀ rest, Token.read '\\' (s ++ rest) = .ok (.atom (.text [c]), rest)
  /-- Inside a class it is listed. -/
  inside : ∀ rest, Class.readAtom ('\\' :: (s ++ rest)) = .ok (.char c, rest)
  /-- Alone it is a text. -/
  alone : Pattern.parse ('\\' :: s) = .ok (.text [c])
  /-- Alone in a class it is the only member. -/
  aloneInClass : Pattern.parse ('[' :: '\\' :: (s ++ [']'])) = .ok (.oneOf (.ofChar c))

/-- Behind a backslash, outside a class and inside one, there is no escape that can be read.  The
error is about the place behind the backslash. -/
structure Malformed (s : List Char) : Prop where
  /-- Outside a class there is no atom. -/
  outside : Token.read '\\' s = .error (.badEscape s)
  /-- Inside a class nothing is listed. -/
  inside : Class.readAtom ('\\' :: s) = .error (.badEscape s)
  /-- At the beginning of a pattern. -/
  first : Pattern.parse ('\\' :: s) = .error (.badEscape 1)
  /-- At the beginning of a class. -/
  firstInClass : Pattern.parse ('[' :: '\\' :: s) = .error (.badEscape 2)

theorem members_range_self (c : Char) : Class.members [.range c c] = .ofChar c := by
  have hcanonical : (CharSet.ofChar c).Canonical := List.pairwise_singleton _ _
  have hranges : (CharSet.ofChar c).ranges.toList.map ClassItem.ofRange = [.range c c] := by
    simp [CharSet.ofChar, CharSet.ofRange, CharRange.of, ClassItem.ofRange]
  rw [← hranges]
  exact Class.members_ranges hcanonical

theorem readNegation_backslash (s : List Char) :
    Class.readNegation ('\\' :: s) = (false, '\\' :: s) :=
  rfl

theorem readFirst_backslash (s : List Char) : Class.readFirst ('\\' :: s) = ([], '\\' :: s) :=
  rfl

section

variable {d : Char} (hd : d = 'x' ∨ d = 'u')

include hd

theorem token_of_read (h : read false (d :: s) = .ok (.char c, rest)) :
    Token.read '\\' (d :: s) = .ok (.atom (.text [c]), rest) := by
  rcases hd with rfl | rfl <;> simp [Token.read, Token.readEscape, h, Except.map]

/-- An escape that is read in the same way outside a class and inside one. -/
theorem standsFor_of_read
    (h : ∀ inClass rest, read inClass (d :: s ++ rest) = .ok (.char c, rest)) :
    StandsFor (d :: s) c where
  outside := fun rest => token_of_read hd (h false rest)
  inside := h true
  alone := by
    have hread := h false []
    rw [List.append_nil] at hread
    rw [Pattern.parse_eq_ok_iff, Partial.readAll_cons (token_of_read hd hread) rfl, Partial.readAll]
    rfl
  aloneInClass := by
    have hitem : Class.readItem ('\\' :: (d :: s ++ [']'])) = .ok (.range c c, [']']) := by
      rw [Class.readItem, show Class.readAtom ('\\' :: (d :: s ++ [']'])) = _ from h true [']']]
      rfl
    have hitems : Class.readItems ('[' :: '\\' :: (d :: s ++ [']'])) ('\\' :: (d :: s ++ [']'])) =
        .ok ([.range c c], []) := by
      refine Class.readItems_cons (by decide) hitem ?_
      rw [Class.readItems]
    have hclass : Class.read ('[' :: '\\' :: (d :: s ++ [']'])) ('\\' :: (d :: s ++ [']'])) =
        .ok (.ofChar c, []) := by
      simp only [Class.read, readNegation_backslash, readFirst_backslash, hitems]
      rw [← members_range_self]
      rfl
    have hread : Token.read '[' ('\\' :: (d :: s ++ [']'])) =
        .ok (.atom (.oneOf (.ofChar c)), []) := by
      rw [Token.read, hclass]
      rfl
    rw [Pattern.parse_eq_ok_iff, Partial.readAll_cons hread rfl, Partial.readAll]
    rfl

/-- An escape that cannot be read in the same way outside a class and inside one. -/
theorem malformed_of_read (h : ∀ inClass, read inClass (d :: s) = .error (.badEscape (d :: s))) :
    Malformed (d :: s) := by
  have houtside : Token.read '\\' (d :: s) = .error (.badEscape (d :: s)) := by
    have hread := h false
    rcases hd with rfl | rfl <;> simp [Token.read, Token.readEscape, hread, Except.map]
  have hinside : Class.readAtom ('\\' :: d :: s) = .error (.badEscape (d :: s)) := h true
  have hitem : Class.readItem ('\\' :: d :: s) = .error (.badEscape (d :: s)) := by
    rw [Class.readItem, hinside]
  have hitems : Class.readItems ('[' :: '\\' :: d :: s)
      ('\\' :: d :: s) = .error (.badEscape (d :: s)) := by
    rw [Class.readItems]
    · split
      · next heq =>
        rw [hitem] at heq
        cases heq
        rfl
      · next heq =>
        rw [hitem] at heq
        cases heq
    · decide
  have hclass : Token.read '[' ('\\' :: d :: s) = .error (.badEscape (d :: s)) := by
    have hread : Class.read ('[' :: '\\' :: d :: s)
        ('\\' :: d :: s) = .error (.badEscape (d :: s)) := by
      simp only [Class.read, readNegation_backslash, readFirst_backslash, hitems]
    rw [Token.read, hread]
    rfl
  have hparse (before : List Char)
    (hread : Pattern.read (before ++ d :: s) = .error (.badEscape (d :: s))) :
      Pattern.parse (before ++ d :: s) = .error (.badEscape (byteLength before)) := by
    have hoffset := Pattern.offset_append (List.suffix_refl (d :: s)) before
    have hself : Pattern.offset (d :: s) (d :: s) = 0 := Nat.sub_self _
    rw [hself, Nat.add_zero] at hoffset
    rw [Pattern.parse, hread, ← hoffset]
    rfl
  exact ⟨houtside, hinside, hparse ['\\'] (Partial.readAll_of_error houtside),
    hparse ['[', '\\'] (Partial.readAll_of_error hclass)⟩

end

/-- A character that is spelled stands for itself. -/
theorem Spells.standsFor (h : Spells s c) : StandsFor s c := by
  have hread (inClass : Bool) (rest : List Char) := read_of_spells h inClass rest
  cases h with
  | byte => exact standsFor_of_read (.inl rfl) hread
  | unit => exact standsFor_of_read (.inr rfl) hread
  | pair => exact standsFor_of_read (.inr rfl) hread
  | braced => exact standsFor_of_read (.inr rfl) hread

/-! ## Braces and surrogates -/

/-- A number in braces that a plus sign precedes stands for its character as well. -/
theorem standsFor_of_numbers {body : List Char} (hbody : '}' ∉ body) (h : Numbers body c) :
    StandsFor ('u' :: '{' :: (body ++ ['}'])) c := by
  refine standsFor_of_read (.inr rfl) ?_
  intro inClass rest
  have htext : 'u' :: '{' :: (body ++ ['}']) ++ rest = 'u' :: '{' ::
    (body ++ '}' :: rest) := by simp
  rw [htext, read_braced inClass hbody, braced?_eq_some_iff.2 h]
  rfl

theorem malformed_of_not_numbers {body : List Char} (hbody : '}' ∉ body) (h : ∀ c, ¬Numbers body c)
    (rest : List Char) : Malformed ('u' :: '{' :: (body ++ '}' :: rest)) := by
  have hnone : braced? body = none := by
    rw [Option.eq_none_iff_forall_ne_some]
    intro c hc
    exact h c (braced?_eq_some_iff.1 hc)
  refine malformed_of_read (.inr rfl) ?_
  intro inClass
  rw [read_braced inClass hbody, hnone]
  rfl

/-- A number below the limit that is no surrogate is that of a character. -/
theorem exists_toNat_eq {n : Nat} (hlt : n < 0x110000) (hhigh : ¬IsHighSurrogate n)
    (hlow : ¬IsLowSurrogate n) :
    ∃ c : Char, c.toNat = n := by
  refine ⟨Char.ofNat n, Scalar.toNat_ofNat ?_⟩
  unfold IsHighSurrogate at hhigh
  unfold IsLowSurrogate at hlow
  unfold Nat.isValidChar
  omega

theorem supplementary_bounds {high low : Nat} (hhigh : IsHighSurrogate high)
    (hlow : IsLowSurrogate low) :
    0x10000 ≤ supplementary high low ∧ supplementary high low < 0x110000 := by
  unfold IsHighSurrogate at hhigh
  unfold IsLowSurrogate at hlow
  unfold supplementary
  omega

theorem malformed_of_surrogate {digits : List Char} {n : Nat} (hlength : digits.length = 4)
    (hdigits : Hexadecimal digits n)
    (hn : IsHighSurrogate n ∧ ¬LowFollows rest ∨ IsLowSurrogate n) :
    Malformed ('u' :: (digits ++ rest)) := by
  refine malformed_of_read (.inr rfl) ?_
  intro inClass
  rw [read_unit inClass (hdigits.append_ne_cons rfl rest), utf16?_eq_none hlength hdigits hn]
  rfl

/-! ## Texts -/

/-- Characters that are spelled, one after the other, are read as one text. -/
theorem parse_pieces {pieces : List (List Char)} {cs : List Char}
    (h : List.Forall₂ Spells pieces cs)
    (hne : cs ≠ []) : Pattern.parse (pieces.flatMap ('\\' :: ·)) = .ok (.text cs) := by
  have hpieces : List.Forall₂ (fun s c => (Token.atom (.text [c])).IsReadFrom s ∧ Starts s)
      (pieces.map ('\\' :: ·)) cs := by
    refine List.forall₂_map_left_iff.2 (h.imp ?_)
    intro s c hspells
    exact ⟨⟨'\\', s, rfl, fun rest _ => hspells.standsFor.outside rest⟩, .cons (by decide)⟩
  obtain ⟨l, htakes, -, hbranches, hsettled⟩ := Level.exists_takes_pieces hpieces hne {}
  rw [← List.flatMap_def] at htakes
  have hpattern : l.pattern = .text cs := by
    rw [Level.pattern, Level.branch, hbranches, hsettled]
    rfl
  rw [Pattern.parse_eq_ok_iff]
  calc Partial.readAll {} (pieces.flatMap ('\\' :: ·))
    _ = Partial.readAll ⟨{}, []⟩ (pieces.flatMap ('\\' :: ·) ++ []) := by rw [List.append_nil]
    _ = Partial.readAll ⟨l, []⟩ [] := htakes [] [] .nil
    _ = .ok (.text cs) := by rw [Partial.readAll, Partial.finish, hpattern]

/-- Outside a class and inside one, `\u{h..}` stands for the character whose number is in the
braces, and it is malformed if there is no such number.  A plus sign may precede the number.  Four
digits stand for their character, and two surrogates in order for that of the pair; any other
surrogate is malformed.  A text may be spelled in any of these forms, character by character. -/
theorem standsFor_or_malformed (body digits : List Char) (n : Nat) (pieces : List (List Char))
    (cs : List Char) :
    ('}' ∉ body →
      (∀ c, Numbers body c → StandsFor ('u' :: '{' :: (body ++ ['}'])) c) ∧
      ((∀ c, ¬Numbers body c) → ∀ rest, Malformed ('u' :: '{' :: (body ++ '}' :: rest)))) ∧
    (digits.length = 4 → Hexadecimal digits n →
      (¬IsHighSurrogate n → ¬IsLowSurrogate n → ∃ c : Char, c.toNat = n ∧
        StandsFor ('u' :: digits) c) ∧
      (∀ second low, second.length = 4 → Hexadecimal second low → IsHighSurrogate n →
        IsLowSurrogate low →
        ∃ c : Char, c.toNat = supplementary n low ∧
          StandsFor ('u' :: (digits ++ '\\' :: 'u' :: second)) c) ∧
      (∀ rest, IsHighSurrogate n ∧ ¬LowFollows rest ∨ IsLowSurrogate n →
        Malformed ('u' :: (digits ++ rest)))) ∧
    (List.Forall₂ Spells pieces cs → cs ≠ [] →
      Pattern.parse (pieces.flatMap ('\\' :: ·)) = .ok (.text cs)) := by
  refine ⟨?_, ?_, parse_pieces⟩
  · intro hbody
    exact ⟨fun c => standsFor_of_numbers hbody, malformed_of_not_numbers hbody⟩
  · intro hlength hdigits
    refine ⟨?_, ?_, ?_⟩
    · intro hhigh hlow
      have hlt := hdigits.lt
      rw [hlength] at hlt
      obtain ⟨c, rfl⟩ := exists_toNat_eq (by omega) hhigh hlow
      exact ⟨c, rfl, (Spells.unit hlength hdigits).standsFor⟩
    · intro second low hsecond hlow hishigh hislow
      obtain ⟨hfirst, hlast⟩ := supplementary_bounds hishigh hislow
      obtain ⟨c, hc⟩ := exists_toNat_eq hlast (fun h => by unfold IsHighSurrogate at h; omega)
        (fun h => by unfold IsLowSurrogate at h; omega)
      exact ⟨c, hc, (Spells.pair hlength hsecond hdigits hlow hishigh hislow hc).standsFor⟩
    · intro rest hn
      exact malformed_of_surrogate hlength hdigits hn

theorem hexadecimal_of_eq_some {digits : List Char} {n : Nat} (hne : digits ≠ [])
    (h : Numeral.hexValue? digits = some n) : Hexadecimal digits n :=
  (Numeral.hexValue?_eq_some_iff hne).1 h

/-- Zeros before a number, a number of no character, a pair, half of one, and a text in all
forms. -/
theorem standsFor_or_malformed_someForms :
    StandsFor ['u', '{', '0', '0', '0', '0', '0', '4', '1', '}'] 'A' ∧
    Malformed ['u', '{', 'D', '8', '0', '0', '}', 'a'] ∧
    StandsFor ['u', '0', '0', 'e', '9'] 'é' ∧
    StandsFor ['u', 'D', '8', '3', 'D', '\\', 'u', 'd', 'e', '0', '0'] '😀' ∧
    Malformed ['u', 'D', 'E', '0', '0'] ∧
    Pattern.parse "\\x41\\uD83D\\uDE00\\u\x7b43\x7d".toList = .ok (.text ['A', '😀', 'C']) := by
  have hbraces body hbody := (standsFor_or_malformed body [] 0 [] []).1 hbody
  have hunits digits n hlength hdigits :=
    (standsFor_or_malformed [] digits n [] []).2.1 hlength hdigits
  have htexts pieces cs := (standsFor_or_malformed [] [] 0 pieces cs).2.2
  have hA : Hexadecimal ['0', '0', '0', '0', '0', '4', '1'] 'A'.toNat :=
    hexadecimal_of_eq_some (by decide) (by decide)
  have hacute : Hexadecimal ['0', '0', 'e', '9'] 'é'.toNat :=
    hexadecimal_of_eq_some (by decide) (by decide)
  have hhigh : Hexadecimal ['D', '8', '3', 'D'] 0xD83D :=
    hexadecimal_of_eq_some (by decide) (by decide)
  have hlow : Hexadecimal ['d', 'e', '0', '0'] 0xDE00 :=
    hexadecimal_of_eq_some (by decide) (by decide)
  have hupper : Hexadecimal ['D', 'E', '0', '0'] 0xDE00 :=
    hexadecimal_of_eq_some (by decide) (by decide)
  have hnone : ∀ c, ¬Numbers ['D', '8', '0', '0'] c := by
    intro c h
    have hread : braced? ['D', '8', '0', '0'] = none := by decide
    rw [← braced?_eq_some_iff, hread] at h
    cases h
  have hishigh : IsHighSurrogate 0xD83D := by decide
  have hislow : IsLowSurrogate 0xDE00 := ⟨by decide, by decide⟩
  have hpair : Spells ('u' :: (['D', '8', '3', 'D'] ++ '\\' :: 'u' :: ['D', 'E', '0', '0'])) '😀' :=
    .pair rfl rfl hhigh hupper hishigh hislow rfl
  have hbraced : Spells ('u' :: '{' :: (['4', '3'] ++ ['}'])) 'C' :=
    .braced (hexadecimal_of_eq_some (by decide) (by decide))
  refine ⟨?_, ?_, ?_, ?_, ?_, ?_⟩
  · exact (hbraces _ (by decide)).1 'A' (.inl hA)
  · exact (hbraces _ (by decide)).2 hnone ['a']
  · obtain ⟨c, hc, hstands⟩ :=
      (hunits _ _ rfl hacute).1 (by decide) (by rintro ⟨h, -⟩; exact absurd h (by decide))
    rwa [Char.toNat_inj.1 hc] at hstands
  · obtain ⟨c, hc, hstands⟩ := (hunits _ _ rfl hhigh).2.1 _ _ rfl hlow hishigh hislow
    have hemoji : c = '😀' := Char.toNat_inj.1 hc
    rwa [hemoji] at hstands
  · exact (hunits _ _ rfl hupper).2.2 [] (.inr hislow)
  · refine htexts [['x', '4', '1'], ['u', 'D', '8', '3', 'D', '\\', 'u', 'D', 'E', '0', '0'],
      ['u', '{', '4', '3', '}']] ['A', '😀', 'C'] ?_ (by decide)
    refine .cons ?_ (.cons ?_ (.cons ?_ .nil))
    · exact .byte rfl (hexadecimal_of_eq_some (by decide) (by decide))
    · exact hpair
    · exact hbraced

/-- A plus sign is no hexadecimal digit, but it is read before the digits in braces. -/
theorem parse_plusSign : (∀ n, ¬Hexadecimal ['+', '4', '1'] n) ∧
    Pattern.parse ['\\', 'u', '{', '+', '4', '1', '}'] = .ok (.text ['A']) := by
  constructor
  · intro n h
    exact h.ne_cons (c := '+') rfl ['4', '1'] rfl
  · cbv

end Escape

end RegexEngine
