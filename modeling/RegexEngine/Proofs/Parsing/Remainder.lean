import Mathlib.Data.List.TakeWhile
import RegexEngine.Pattern.Token

/-!
# What remains of a text

What remains of a text after something has been read is a suffix of it, so each place at which a
reader stands or stops is a place in the text.

There is one lemma for each reader, and `Token.suffix_of_read` is about tokens.
-/

namespace RegexEngine

variable {s rest : List Char}

/-! ## Numbers -/

namespace Numeral

theorem suffix_of_decimal? {n : Nat} (h : decimal? s = some (n, rest)) : rest <:+ s := by
  simp only [decimal?, Option.ite_none_right_eq_some, Option.some.injEq, Prod.mk.injEq] at h
  rw [← h.2.2]
  exact List.dropWhile_suffix Char.isDigit

theorem suffix_of_hexadecimal? {count n : Nat} (h : hexadecimal? count s = some (n, rest)) :
    rest <:+ s := by
  simp only [hexadecimal?, Option.ite_none_right_eq_some, Option.map_eq_some_iff,
    Prod.mk.injEq] at h
  obtain ⟨-, value, -, -, hrest⟩ := h
  rw [← hrest]
  exact List.drop_suffix count s

theorem suffix_octal (count : Nat) (s : List Char) : (octal count s).2 <:+ s :=
  List.drop_suffix _ s

end Numeral

/-! ## Escapes -/

namespace Escape

/-- What stands before the first closing brace is read, and what stands behind it remains. -/
theorem eq_of_untilBrace {body : List Char} (h : untilBrace s = .ok (body, rest)) :
    s = body ++ '}' :: rest ∧ '}' ∉ body := by
  unfold untilBrace at h
  split at h
  · cases h
  · next c tail hdrop =>
    cases h
    have hc : c = '}' := by
      have hhead := List.head?_dropWhile_not (fun c => decide (c ≠ '}')) s
      rw [hdrop] at hhead
      simpa using hhead
    have hmem : '}' ∉ s.takeWhile (· ≠ '}') := by
      intro h
      have := List.mem_takeWhile_imp h
      simp at this
    rw [hc] at hdrop
    rw [← hdrop, List.takeWhile_append_dropWhile]
    exact ⟨rfl, hmem⟩

theorem suffix_of_untilBrace {body : List Char} (h : untilBrace s = .ok (body, rest)) :
    rest <:+ s := by
  rw [(eq_of_untilBrace h).1]
  exact (List.suffix_cons '}' rest).trans (List.suffix_append body _)

theorem suffix_of_lowSurrogate? {n : Nat} (h : lowSurrogate? s = some (n, rest)) : rest <:+ s := by
  unfold lowSurrogate? at h
  split at h
  · next s =>
    rw [Option.filter_eq_some_iff] at h
    have hrest := Numeral.suffix_of_hexadecimal? h.1
    exact hrest.trans ((List.suffix_cons 'u' s).trans (List.suffix_cons '\\' _))
  · cases h

theorem suffix_of_utf16? {c : Char} (h : utf16? s = some (c, rest)) : rest <:+ s := by
  unfold utf16? at h
  split at h
  · cases h
  · next unit mid hread =>
    have hmid := Numeral.suffix_of_hexadecimal? hread
    split at h
    · split at h
      · cases h
      · next low tail hlow =>
        have htail := suffix_of_lowSurrogate? hlow
        obtain ⟨c', -, heq⟩ := Option.map_eq_some_iff.1 h
        cases heq
        exact htail.trans hmid
    · obtain ⟨c', -, heq⟩ := Option.map_eq_some_iff.1 h
      cases heq
      exact hmid

theorem suffix_of_property {negated : Bool} {atom : ClassAtom}
    (h : property negated s = .ok (atom, rest)) :
    rest <:+ s := by
  unfold property at h
  split at h
  · next s =>
    split at h
    · cases h
    · next name tail hname =>
      have htail := suffix_of_untilBrace hname
      split at h
      · cases h
      · cases h
        exact htail.trans (List.suffix_cons '{' s)
  · cases h

theorem suffix_of_control? {c : Char} (h : control? s = some (c, rest)) : rest <:+ s := by
  cases s with
  | nil => cases h
  | cons d s =>
    obtain ⟨-, heq⟩ := Option.ite_none_right_eq_some.1 h
    cases heq
    exact List.suffix_cons d rest

theorem suffix_of_byte? {c : Char} (h : byte? s = some (c, rest)) : rest <:+ s := by
  obtain ⟨⟨n, tail⟩, hread, heq⟩ := Option.map_eq_some_iff.1 h
  cases heq
  exact Numeral.suffix_of_hexadecimal? hread

/-- What remains behind an escape. -/
theorem suffix_of_read {inClass : Bool} {atom : ClassAtom} (h : read inClass s = .ok (atom, rest)) :
    rest <:+ s := by
  unfold read at h
  split at h
  · cases h
  · next c s =>
    have hs : s <:+ c :: s := List.suffix_cons c s
    split at h
    · cases h
      exact hs
    · split at h
      · cases h
        exact (Numeral.suffix_octal 2 s).trans hs
      · obtain ⟨c', hread⟩ := numbered_eq_ok h
        exact (suffix_of_control? hread).trans hs
      · obtain ⟨c', hread⟩ := numbered_eq_ok h
        exact (suffix_of_byte? hread).trans hs
      · split at h
        · next body =>
          split at h
          · cases h
          · next digits tail hbody =>
            have htail := suffix_of_untilBrace hbody
            obtain ⟨c', hread⟩ := numbered_eq_ok h
            obtain ⟨c'', -, heq⟩ := Option.map_eq_some_iff.1 hread
            cases heq
            exact htail.trans ((List.suffix_cons '{' body).trans hs)
        · obtain ⟨c', hread⟩ := numbered_eq_ok h
          exact (suffix_of_utf16? hread).trans hs
      · exact (suffix_of_property h).trans hs
      · exact (suffix_of_property h).trans hs
      · cases h
        exact hs

end Escape

/-! ## Classes -/

namespace Class

theorem suffix_of_readAtom {atom : ClassAtom} (h : readAtom s = .ok (atom, rest)) : rest <:+ s := by
  unfold readAtom at h
  split at h
  · cases h
  · next s =>
    exact (Escape.suffix_of_read h).trans (List.suffix_cons '\\' s)
  · next c s hc =>
    cases h
    exact List.suffix_cons c rest

theorem suffix_of_afterDash? (h : afterDash? s = some rest) : rest <:+ s := by
  unfold afterDash? at h
  split at h
  · next c s =>
    obtain ⟨-, heq⟩ := Option.ite_none_left_eq_some.1 h
    cases heq
    exact List.suffix_cons '-' (c :: s)
  · cases h

theorem suffix_of_readRange {first : Char} {item : ClassItem}
    (h : readRange first s = .ok (item, rest)) :
    rest <:+ s := by
  unfold readRange at h
  split at h
  · cases h
  · cases h
  · next last tail hlast =>
    split at h
    · cases h
      exact suffix_of_readAtom hlast
    · cases h

theorem suffix_of_readItem {item : ClassItem} (h : readItem s = .ok (item, rest)) : rest <:+ s := by
  unfold readItem at h
  split at h
  · cases h
  · next members tail hatom =>
    cases h
    exact suffix_of_readAtom hatom
  · next c mid hatom =>
    have hmid := suffix_of_readAtom hatom
    split at h
    · next tail hdash =>
      have htail := suffix_of_afterDash? hdash
      exact (suffix_of_readRange h).trans (htail.trans hmid)
    · cases h
      exact hmid

theorem suffix_of_readItems {opening : List Char} {items : List ClassItem}
    (h : readItems opening s = .ok (items, rest)) : rest <:+ s := by
  fun_induction readItems opening s generalizing items rest with
  | case1 => cases h
  | case2 tail =>
    cases h
    exact List.suffix_cons ']' tail
  | case3 => cases h
  | case4 => cases h
  | case5 c s hc item mid hitem items' tail htail ih =>
    cases h
    exact (ih htail).trans (suffix_of_readItem hitem)

theorem suffix_readFirst (s : List Char) : (readFirst s).2 <:+ s := by
  fun_cases readFirst s with
  | case1 s => exact List.suffix_cons ']' s
  | case2 s => exact List.suffix_cons '-' s
  | case3 => exact List.suffix_refl _

theorem suffix_readNegation (s : List Char) : (readNegation s).2 <:+ s := by
  fun_cases readNegation s with
  | case1 s => exact List.suffix_cons '^' s
  | case2 => exact List.suffix_refl _

/-- What remains behind a class. -/
theorem suffix_of_read {opening : List Char} {set : CharSet}
    (h : read opening s = .ok (set, rest)) :
    rest <:+ s := by
  simp only [read] at h
  split at h
  · cases h
  · next items tail hitems =>
    cases h
    have hbody : (readFirst (readNegation s).2).2 <:+ s :=
      (suffix_readFirst (readNegation s).2).trans (suffix_readNegation s)
    exact (suffix_of_readItems hitems).trans hbody

end Class

/-! ## Tokens -/

namespace Token

theorem suffix_of_bounds? {min : Nat} {max : Option Nat} (h : bounds? s = some (min, max, rest)) :
    rest <:+ s := by
  unfold bounds? at h
  split at h
  · next hmin =>
    cases h
    exact (List.suffix_cons '}' rest).trans (Numeral.suffix_of_decimal? hmin)
  · next hmin =>
    cases h
    have hbrace : rest <:+ ',' :: '}' :: rest :=
      (List.suffix_cons '}' rest).trans (List.suffix_cons ',' _)
    exact hbrace.trans (Numeral.suffix_of_decimal? hmin)
  · next s hcomma hmin =>
    have hs := (List.suffix_cons ',' s).trans (Numeral.suffix_of_decimal? hmin)
    split at h
    · next hmax =>
      cases h
      have hrest := (List.suffix_cons '}' rest).trans (Numeral.suffix_of_decimal? hmax)
      exact hrest.trans hs
    · cases h
  · cases h

theorem suffix_readMode (s : List Char) : (readMode s).2 <:+ s := by
  fun_cases readMode s with
  | case1 s => exact List.suffix_cons '?' s
  | case2 s => exact List.suffix_cons '+' s
  | case3 => exact List.suffix_refl _

theorem suffix_of_quantified {min : Nat} {max : Option Nat} {token : Token}
    (h : quantified min max s = .ok (token, rest)) : rest <:+ s := by
  cases h
  exact suffix_readMode s

theorem suffix_of_readBrace {start : List Char} {token : Token}
    (h : readBrace start s = .ok (token, rest)) :
    rest <:+ s := by
  unfold readBrace at h
  split at h
  · cases h
    exact List.suffix_refl _
  · next hbounds =>
    split at h
    · cases h
    · exact (suffix_of_quantified h).trans (suffix_of_bounds? hbounds)

theorem suffix_of_readName {name : String} (h : readName s = .ok (name, rest)) : rest <:+ s := by
  simp only [readName] at h
  split at h
  · cases h
  · split at h
    · next tail hdrop =>
      cases h
      have hclose : '>' :: rest <:+ s := by
        rw [← hdrop]
        exact List.dropWhile_suffix isNameChar
      exact (List.suffix_cons '>' rest).trans hclose
    · cases h

theorem suffix_of_readFlags {on : Bool} {flags result : FlagOverride}
    (h : readFlags on flags s = .ok (result, rest)) : rest <:+ s := by
  fun_induction readFlags on flags s with
  | case1 on flags s =>
    cases h
    exact List.suffix_cons ':' rest
  | case2 _ _ s ih | case3 _ _ s ih | case4 _ _ s ih => exact (ih h).trans (List.suffix_cons _ s)
  | case5 _ s ih => exact (ih h).trans (List.suffix_cons '-' s)
  | case6 => cases h
  | case7 => cases h

theorem suffix_of_readKind {kind : GroupKind} (h : readKind s = .ok (kind, rest)) : rest <:+ s := by
  have hmark (t : List Char) : t <:+ '?' :: t := List.suffix_cons '?' t
  have hmarked (c : Char) (t : List Char) : t <:+ '?' :: c :: t :=
    (List.suffix_cons c t).trans (hmark _)
  unfold readKind at h
  split at h
  case h_1 | h_2 | h_5 =>
    cases h
    exact hmarked _ rest
  case h_3 | h_4 =>
    cases h
    exact (List.suffix_cons _ rest).trans (hmarked '<' _)
  case h_6 =>
    obtain ⟨⟨name, tail⟩, hname, heq⟩ := map_eq_ok h
    cases heq
    exact (suffix_of_readName hname).trans (hmarked '<' _)
  case h_7 =>
    obtain ⟨⟨flags, tail⟩, hflags, heq⟩ := map_eq_ok h
    cases heq
    exact (suffix_of_readFlags hflags).trans (hmark _)
  case h_8 =>
    cases h
    exact List.suffix_refl _

theorem suffix_of_readEscape {pattern : Pattern} (h : readEscape s = .ok (pattern, rest)) :
    rest <:+ s := by
  unfold readEscape at h
  split at h
  · cases h
    exact List.suffix_cons 'b' rest
  · cases h
    exact List.suffix_cons 'B' rest
  · next s =>
    obtain ⟨⟨name, tail⟩, hname, heq⟩ := map_eq_ok h
    cases heq
    have hs : s <:+ 'k' :: '<' :: s := (List.suffix_cons '<' s).trans (List.suffix_cons 'k' _)
    exact (suffix_of_readName hname).trans hs
  · split at h
    · split at h
      · cases h
      · next hread =>
        cases h
        exact Numeral.suffix_of_decimal? hread
    · split at h
      · cases h
      · next hread =>
        cases h
        exact Escape.suffix_of_read hread
      · next hread =>
        cases h
        exact Escape.suffix_of_read hread
  · cases h

/-- What remains behind a token. -/
theorem suffix_of_read {c : Char} {token : Token} (h : read c s = .ok (token, rest)) :
    rest <:+ s := by
  unfold read at h
  split at h
  case h_1 =>
    obtain ⟨⟨kind, tail⟩, hkind, heq⟩ := map_eq_ok h
    cases heq
    exact suffix_of_readKind hkind
  case h_4 | h_5 | h_6 => exact suffix_of_quantified h
  case h_7 => exact suffix_of_readBrace h
  case h_8 =>
    obtain ⟨⟨set, tail⟩, hset, heq⟩ := map_eq_ok h
    cases heq
    exact Class.suffix_of_read hset
  case h_9 =>
    obtain ⟨⟨pattern, tail⟩, hpattern, heq⟩ := map_eq_ok h
    cases heq
    exact suffix_of_readEscape hpattern
  all_goals
    cases h
    exact List.suffix_refl _

end Token

end RegexEngine
