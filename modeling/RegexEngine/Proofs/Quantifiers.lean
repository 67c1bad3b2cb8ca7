import Mathlib
import RegexEngine.Proofs.Composition
import RegexEngine.Proofs.Parsing.Tokens
import RegexEngine.Proofs.Text.Boundary

/-!
# Quantifiers in braces

A quantifier in braces applies to the atom before it and means the numbers that are written, as long
as each of them is below `sizeLimit`.  With a greater number it is no quantifier: its brace, its
digits and all that follows are read as if there was a backslash before the brace.

* `Level.Sound.eq_of_isAtom` is about the text before the brace.
* `Partial.exists_readAll_text` is about bounds that are read as characters.
* `Pattern.parse_bounds` is about whole patterns.
-/

namespace RegexEngine

/-! ## The atom before the brace -/

namespace Level

variable {l : Level}

/-- Where the pattern of a level is an atom, it is the only part of the only branch. -/
theorem settled_of_isAtom (hatom : l.pattern.IsAtom) :
    l.branches = [] ∧ l.settled = [l.pattern] := by
  have hbranches : l.branches = [] := by
    by_contra hne
    have hlength : (l.branch :: l.branches).reverse.length ≠ 1 := by simpa using hne
    rw [pattern, Pattern.choice_of_length_ne hlength] at hatom
    exact hatom
  have hpattern : l.pattern = .seq l.settled.reverse := by
    rw [pattern, hbranches]
    rfl
  have hlength : l.settled.length = 1 := by
    by_contra hne
    have hne' : l.settled.reverse.length ≠ 1 := by rwa [List.length_reverse]
    rw [hpattern, Pattern.seq_of_length_ne hne'] at hatom
    exact hatom
  obtain ⟨p, hp⟩ := List.length_eq_one_iff.1 hlength
  rw [hp] at hpattern
  refine ⟨hbranches, ?_⟩
  rw [hp, hpattern]
  rfl

/-- An atom that is the only part after it has been added was added to none, since a text that two
texts have become is longer than a character. -/
theorem Sound.push_of_isAtom (h : l.Sound) {a p : Pattern} (ha : l.atom = some a) (hp : p.IsAtom)
    (hpush : push a l.parts = [p]) : a = p ∧ l.parts = [] := by
  have hbody := h.atom a ha
  have hparts := h.parts
  revert hpush hparts
  fun_cases push a l.parts with
  | case1 t s parts =>
    intro hpush hparts
    obtain ⟨rfl, -⟩ := List.cons.inj hpush
    have hs : s ≠ [] := by
      cases hparts (.text s) List.mem_cons_self with
      | text hne => exact hne
    have ht : t ≠ [] := by
      cases hbody with
      | text hne => exact hne
    have hlength : (s ++ t).length = 1 := hp
    have := List.length_pos_iff.2 hs
    have := List.length_pos_iff.2 ht
    rw [List.length_append] at hlength
    omega
  | case2 =>
    intro hpush _
    exact List.cons.inj hpush

/-- Where the pattern of a level is an atom, it waits for a quantifier and nothing else has been
read. -/
theorem Sound.eq_of_isAtom (h : l.Sound) (hatom : l.pattern.IsAtom) :
    l = { atom := some l.pattern } := by
  obtain ⟨hbranches, hsettled⟩ := settled_of_isAtom hatom
  cases ha : l.atom with
  | none =>
    rw [settled, ha] at hsettled
    have hparts : l.parts = [l.pattern] := hsettled
    have hlast : l.parts.head? = some l.pattern := List.head?_eq_some_iff.2 ⟨[], hparts⟩
    exact absurd hatom (h.last ha l.pattern hlast)
  | some a =>
    rw [settled, ha] at hsettled
    obtain ⟨ha', hparts⟩ := h.push_of_isAtom ha hatom hsettled
    rw [← ha']
    calc l = ⟨l.branches, l.parts, l.atom⟩ := rfl
      _ = ⟨[], [], some a⟩ := by rw [hbranches, hparts, ha]

end Level

namespace Partial

variable {A t : List Char} {P : Pattern}

/-- An atom waits for what follows it. -/
theorem readAll_append_of_isAtom (hA : readAll {} A = .ok P) (hP : P.IsAtom) (ht : EndsToken t) :
    readAll {} (A ++ t) = readAll ⟨{ atom := some P }, []⟩ t := by
  have haround : Around [] [] {} ⟨Level.after {} [], []⟩ := .level {}
  obtain ⟨l, hl, rfl, hread⟩ := exists_readAll_append ht sound_empty haround hA
  calc readAll {} (A ++ t)
    _ = readAll ⟨l.after [], []⟩ t := hread
    _ = readAll ⟨l, []⟩ t := by rw [Level.after_nil]
    _ = readAll ⟨{ atom := some l.pattern }, []⟩ t := by rw [← hl.eq_of_isAtom hP]

end Partial

/-! ## Bounds that are read as characters -/

/-- The characters with a meaning of their own.  Any other character is a token that stands
for it. -/
def Token.starters : List Char :=
  ['(', ')', '|', '*', '+', '?', '{', '[', '\\', '.', '^', '$']

theorem Token.read_of_notMem_starters {c : Char} (hc : c ∉ starters) (s : List Char) :
    read c s = .ok (.atom (.text [c]), s) := by
  fun_cases read c s with
  | case13 => rfl
  | _ => exact absurd (by decide) hc

theorem WrittenBounds.notMem_starters {b : WrittenBounds} {c : Char} (h : c ∈ b.text) :
    c ∉ Token.starters := by
  rcases eq_of_mem_text h with hdigit | rfl | rfl
  · have hstarters : Token.starters.all (fun c => !c.isDigit) := rfl
    intro hc
    have hnot := List.all_eq_true.1 hstarters c hc
    rw [hdigit] at hnot
    cases hnot
  · decide
  · decide

namespace Partial

variable {s : List Char} {l : Level}

/-- Characters without a meaning of their own become atoms, one after the other. -/
theorem exists_readAll_chars (hs : ∀ c ∈ s, c ∉ Token.starters) (hl : l.atom.isSome)
    (t : List Char) :
    ∃ l' : Level, l'.atom.isSome ∧ readAll ⟨l, []⟩ (s ++ t) = readAll ⟨l', []⟩ t := by
  induction s generalizing l with
  | nil => exact ⟨l, hl, rfl⟩
  | cons c s ih =>
    obtain ⟨hc, hs⟩ := List.forall_mem_cons.1 hs
    obtain ⟨l', hl', hread⟩ := ih hs (l := l.addAtom (.text [c])) rfl
    refine ⟨l', hl', ?_⟩
    rw [← hread]
    exact readAll_cons (Token.read_of_notMem_starters hc (s ++ t)) rfl

/-- A mode behind an atom is a quantifier itself. -/
theorem exists_readAll_mode (hl : l.atom.isSome) (mode : Mode) :
    ∃ Q, readAll ⟨l, []⟩ (Render.mode mode) = .ok Q := by
  obtain ⟨a, ha⟩ := Option.isSome_iff_exists.1 hl
  have hquantifier {c : Char} {min : Nat} {max : Option Nat}
      (hread : Token.read c [] = .ok (.quantifier min max .greedy, [])) :
      ∃ Q, readAll ⟨l, []⟩ [c] = .ok Q := by
    have hadd : add ⟨l, []⟩ [c] (.quantifier min max .greedy) =
        .ok ⟨{ l with parts := .repeated a min max .greedy :: l.parts, atom := none }, []⟩ := by
      rw [add, ha]
    rw [readAll_cons hread hadd, readAll]
    exact ⟨_, rfl⟩
  cases mode with
  | greedy =>
    rw [Render.mode, readAll]
    exact ⟨_, rfl⟩
  | lazy => exact hquantifier (c := '?') rfl
  | possessive => exact hquantifier (c := '+') rfl

/-- What stands behind the brace of a quantifier can be read as characters. -/
theorem exists_readAll_text (b : WrittenBounds) (mode : Mode) (hl : l.atom.isSome) :
    ∃ Q, readAll ⟨l, []⟩ (b.text ++ Render.mode mode) = .ok Q := by
  obtain ⟨l', hl', hread⟩ := exists_readAll_chars (fun _ => b.notMem_starters) hl (Render.mode mode)
  rw [hread]
  exact exists_readAll_mode hl' mode

end Partial

/-! ## Whole patterns -/

/-- A brace with bounds and a mode behind it, up to the end of the text. -/
theorem Token.read_brace (b : WrittenBounds) (mode : Mode) :
    read '{' (b.text ++ Render.mode mode) =
      if b.Fits then
        if b.max.any (· < b.min) then .error (.badRepetition ('{' :: (b.text ++ Render.mode mode)))
        else .ok (.quantifier b.min b.max mode, [])
      else .ok (.atom (.text ['{']), b.text ++ Render.mode mode) := by
  have hmode : readMode (Render.mode mode) = (mode, []) := by
    rw [← List.append_nil (Render.mode mode)]
    exact readMode_mode mode .nil
  show readBrace _ (b.text ++ Render.mode mode) = _
  rw [readBrace, bounds?_text]
  by_cases hfits : b.Fits
  · rw [if_pos hfits, if_pos hfits]
    dsimp only
    rw [quantified, hmode]
  · rw [if_neg hfits, if_neg hfits]

namespace Pattern

variable {A t : List Char} {P : Pattern}

/-- The place of the error is where what remains begins. -/
theorem parse_append_of_badRepetition
    (h : Partial.readAll {} (A ++ t) = .error (.badRepetition t)) :
    parse (A ++ t) = .error (.badRepetition (byteLength A)) := by
  have hoffset : offset (A ++ t) t = byteLength A := by
    rw [offset, byteLength_append, Nat.add_sub_cancel]
  rw [parse, read, h, ← hoffset]
  rfl

/-- An atom with a quantifier in braces behind it is repeated as often as the numbers say, if they
fit and are in order.  If they are not in order, the place of the error is the brace.  If one of
them does not fit, the brace is a character like one with a backslash before it. -/
theorem parse_bounds (hA : parse A = .ok P) (hP : P.IsAtom) (b : WrittenBounds) (mode : Mode) :
    (b.Fits → parse (A ++ '{' :: (b.text ++ Render.mode mode)) =
      if b.max.any (· < b.min) then .error (.badRepetition (byteLength A))
      else .ok (.repeated P b.min b.max mode)) ∧
    (¬b.Fits → ∃ Q, parse (A ++ '{' :: (b.text ++ Render.mode mode)) = .ok Q ∧
      parse (A ++ '\\' :: '{' :: (b.text ++ Render.mode mode)) = .ok Q) := by
  rw [parse_eq_ok_iff] at hA
  have hread := Token.read_brace b mode
  have hbrace (t : List Char) := Partial.readAll_append_of_isAtom hA hP
    (endsToken_cons (by decide : '{' ∈ tokenEnds) t)
  have hbackslash (t : List Char) := Partial.readAll_append_of_isAtom hA hP
    (endsToken_cons (by decide : '\\' ∈ tokenEnds) t)
  constructor
  · intro hfits
    rw [if_pos hfits] at hread
    split
    · next horder =>
      rw [if_pos horder] at hread
      apply parse_append_of_badRepetition
      rw [hbrace]
      exact Partial.readAll_of_error hread
    · next horder =>
      rw [if_neg horder] at hread
      rw [parse_eq_ok_iff, hbrace, Partial.readAll_cons hread rfl, Partial.readAll]
      rfl
  · intro hfits
    rw [if_neg hfits] at hread
    -- Both texts are read up to the same level, in which the brace is an atom.
    obtain ⟨Q, hQ⟩ := Partial.exists_readAll_text b mode
      (l := Level.addAtom { atom := some P } (.text ['{'])) rfl
    refine ⟨Q, ?_, ?_⟩
    · rw [parse_eq_ok_iff, hbrace, Partial.readAll_cons hread rfl]
      exact hQ
    · have hread : Token.read '\\' ('{' :: (b.text ++ Render.mode mode)) =
          .ok (.atom (.text ['{']), b.text ++ Render.mode mode) := rfl
      rw [parse_eq_ok_iff, hbackslash, Partial.readAll_cons hread rfl]
      exact hQ

/-- The place of an error is counted in bytes, and zeros before a number do not matter. -/
theorem parse_bounds_accent :
    parse ['é'] = .ok (.text ['é']) ∧ IsAtom (.text ['é']) ∧
      parse ['é', '{', '2', ',', '0', '0', '7', '}', '?'] =
        .ok (.repeated (.text ['é']) 2 (some 7) .lazy) ∧
      parse ['é', '{', '3', ',', '2', '}', '+'] = .error (.badRepetition 2) ∧
      ∃ Q, parse ('é' :: '{' :: ("18446744073709551616".toList ++ ['}'])) = .ok Q ∧
        parse ('é' :: '\\' :: '{' :: ("18446744073709551616".toList ++ ['}'])) = .ok Q := by
  have hread : parse ['é'] = .ok (.text ['é']) := by cbv
  have hatom : IsAtom (.text ['é']) := rfl
  have hordered := (parse_bounds hread hatom (.between ⟨['2'], by decide, List.all_eq_true.1 rfl⟩
    ⟨['0', '0', '7'], by decide, List.all_eq_true.1 rfl⟩) .lazy).1 (by decide)
  have hreversed := (parse_bounds hread hatom (.between ⟨['3'], by decide, List.all_eq_true.1 rfl⟩
    ⟨['2'], by decide, List.all_eq_true.1 rfl⟩) .possessive).1 (by decide)
  have hgreat := (parse_bounds hread hatom
    (.exactly ⟨"18446744073709551616".toList, by decide, List.all_eq_true.1 rfl⟩) .greedy).2
      (by decide)
  exact ⟨hread, hatom, hordered, hreversed, hgreat⟩

/-- Bounds that are not in order are a text if one of them reaches the limit. -/
theorem parse_greatBounds :
    parse "a".toList = .ok (.text ['a']) ∧
      parse "a\x7b18446744073709551616,1\x7d".toList =
        .ok (.text "a\x7b18446744073709551616,1\x7d".toList) := by
  constructor
  · cbv
  · cbv

end Pattern

end RegexEngine
