import RegexEngine.Proofs.Class.Grammar
import RegexEngine.Proofs.Parsing.Outcome
import RegexEngine.Proofs.Parsing.Remainder

/-!
# Tokens before the end of a token

What has been read at the end of a text is read in the same way if a bar, a closing parenthesis, an
opening brace or a backslash follows, and the rest is longer by what follows.  Not any text would
do: a digit may go on with a number, a comma or a closing brace with the bounds of a quantifier, and
`<` with a reference.

There is one lemma for each reader, and `Token.read_append` is about tokens.
-/

namespace RegexEngine

/-- The characters that no token goes on with that could have ended before them. -/
def tokenEnds : List Char :=
  ['|', ')', '{', '\\']

/-- A token that ends before the text does not go on with it: there is nothing more, or a bar, a
closing parenthesis, an opening brace or a backslash comes next. -/
def EndsToken (t : List Char) : Prop :=
  ∀ c ∈ t.head?, c ∈ tokenEnds

theorem endsToken_nil : EndsToken [] := by
  intro c hc
  cases hc

theorem endsToken_cons {c : Char} (hc : c ∈ tokenEnds) (t : List Char) : EndsToken (c :: t) := by
  intro d hd
  obtain rfl := Option.some.inj hd
  exact hc

variable {s t rest : List Char}

/-- The next character does not satisfy a predicate that none of the ends does. -/
theorem EndsToken.head?_eq_false (ht : EndsToken t) (test : Char → Bool)
    (htest : tokenEnds.all fun c => !test c) : ∀ c ∈ t.head?, test c = false := by
  intro c hc
  have hnot := List.all_eq_true.1 htest c (ht c hc)
  rwa [Bool.not_eq_true'] at hnot

/-- A character that ends no token does not come first where it has not come first before. -/
theorem EndsToken.append_ne_cons (ht : EndsToken t) {c : Char} (hc : c ∉ tokenEnds)
    (hs : ∀ tail, s ≠ c :: tail) : ∀ tail, s ++ t ≠ c :: tail := by
  intro tail heq
  cases s with
  | nil =>
    rw [List.nil_append] at heq
    exact hc (ht c (by rw [heq]; rfl))
  | cons d s =>
    obtain ⟨rfl, -⟩ := List.cons.inj heq
    exact hs s rfl

theorem EndsToken.ne_cons (ht : EndsToken t) {c : Char} (hc : c ∉ tokenEnds) :
    ∀ tail, t ≠ c :: tail :=
  ht.append_ne_cons (s := []) hc nofun

/-! ## Numbers -/

namespace Numeral

theorem decimal?_append (ht : EndsToken t) (s : List Char) :
    decimal? (s ++ t) = (decimal? s).map fun (n, rest) => (n, rest ++ t) := by
  obtain ⟨htake, hdrop⟩ := takeWhile_and_dropWhile_append (ht.head?_eq_false Char.isDigit rfl) s
  unfold decimal?
  rw [htake, hdrop]
  dsimp only
  split
  · rfl
  · rfl

theorem octal_append (ht : EndsToken t) (count : Nat) (s : List Char) :
    octal count (s ++ t) = ((octal count s).1, (octal count s).2 ++ t) := by
  have hhead : ∀ c ∈ (t.take (count - s.length)).head?, decide ('0' ≤ c ∧ c ≤ '7') = false := by
    intro c hc
    apply ht.head?_eq_false (fun c => decide ('0' ≤ c ∧ c ≤ '7')) rfl c
    cases t with
    | nil => simp at hc
    | cons d t =>
      cases hcount : count - s.length with
      | zero => simp [hcount] at hc
      | succ n => simpa [hcount] using hc
  simp only [Bool.decide_and] at hhead
  obtain ⟨htake, -⟩ := takeWhile_and_dropWhile_append hhead (s.take count)
  have hlength : ((s.take count).takeWhile fun c => '0' ≤ c && c ≤ '7').length ≤ s.length := by
    have hwhile :=
      (List.takeWhile_sublist (fun c => decide ('0' ≤ c) && decide (c ≤ '7'))
      (l := s.take count)).length_le
    have htake := List.length_take_le' count s
    omega
  unfold octal
  rw [List.take_append, htake]
  dsimp only
  rw [List.drop_append_of_le_length hlength]

theorem hexadecimal?_append {count n : Nat} (h : hexadecimal? count s = some (n, rest))
    (t : List Char) :
    hexadecimal? count (s ++ t) = some (n, rest ++ t) := by
  unfold hexadecimal? at h ⊢
  split at h
  · next hle =>
    obtain ⟨n', hvalue, heq⟩ := Option.map_eq_some_iff.1 h
    cases heq
    have hle' : count ≤ (s ++ t).length := by
      rw [List.length_append]
      omega
    rw [if_pos hle', List.take_append_of_le_length hle, List.drop_append_of_le_length hle, hvalue]
    rfl
  · cases h

end Numeral

/-! ## Escapes -/

namespace Escape

theorem untilBrace_append_of_eq_ok {body : List Char} (h : untilBrace s = .ok (body, rest))
    (t : List Char) :
    untilBrace (s ++ t) = .ok (body, rest ++ t) := by
  obtain ⟨rfl, hbody⟩ := eq_of_untilBrace h
  rw [List.append_assoc, List.cons_append]
  exact untilBrace_append hbody

theorem lowSurrogate?_append {n : Nat} (h : lowSurrogate? s = some (n, rest)) (t : List Char) :
    lowSurrogate? (s ++ t) = some (n, rest ++ t) := by
  unfold lowSurrogate? at h
  split at h
  · next s =>
    obtain ⟨hread, hlow⟩ := Option.filter_eq_some_iff.1 h
    have hread' := Numeral.hexadecimal?_append hread t
    show (Numeral.hexadecimal? 4 (s ++ t)).filter _ = _
    rw [hread']
    exact Option.filter_eq_some_iff.2 ⟨rfl, hlow⟩
  · cases h

theorem utf16?_append {c : Char} (h : utf16? s = some (c, rest)) (t : List Char) :
    utf16? (s ++ t) = some (c, rest ++ t) := by
  unfold utf16? at h ⊢
  split at h
  · cases h
  · next unit mid hread =>
    rw [Numeral.hexadecimal?_append hread t]
    dsimp only
    split at h
    · next hhigh =>
      rw [if_pos hhigh]
      split at h
      · cases h
      · next low tail hlow =>
        obtain ⟨c', hscalar, heq⟩ := Option.map_eq_some_iff.1 h
        cases heq
        rw [lowSurrogate?_append hlow t]
        dsimp only
        rw [hscalar]
        rfl
    · next hhigh =>
      obtain ⟨c', hscalar, heq⟩ := Option.map_eq_some_iff.1 h
      cases heq
      rw [if_neg hhigh, hscalar]
      rfl

theorem property_append {negated : Bool} {atom : ClassAtom}
    (h : property negated s = .ok (atom, rest))
    (t : List Char) : property negated (s ++ t) = .ok (atom, rest ++ t) := by
  unfold property at h
  split at h
  · next s =>
    split at h
    · cases h
    · next name tail hname =>
      have hname' := untilBrace_append_of_eq_ok hname t
      split at h
      · cases h
      · next members hmembers =>
        cases h
        show property negated ('{' :: (s ++ t)) = _
        simp only [property, hname', hmembers]
  · cases h

theorem control?_append {c : Char} (h : control? s = some (c, rest)) (t : List Char) :
    control? (s ++ t) = some (c, rest ++ t) := by
  cases s with
  | nil => cases h
  | cons d s =>
    obtain ⟨halpha, heq⟩ := Option.ite_none_right_eq_some.1 h
    cases heq
    exact if_pos halpha

theorem byte?_append {c : Char} (h : byte? s = some (c, rest)) (t : List Char) :
    byte? (s ++ t) = some (c, rest ++ t) := by
  obtain ⟨⟨n, tail⟩, hread, heq⟩ := Option.map_eq_some_iff.1 h
  cases heq
  rw [byte?, Numeral.hexadecimal?_append hread t]
  rfl

theorem numbered_append {start start' : List Char} {read read' : Option (Char × List Char)}
    {atom : ClassAtom} (h : numbered start read = .ok (atom, rest))
    (hread : ∀ c, read = some (c, rest) → read' = some (c, rest ++ t)) :
    numbered start' read' = .ok (atom, rest ++ t) := by
  unfold numbered at h
  split at h
  · cases h
  · next c tail =>
    cases h
    rw [hread c rfl]
    rfl

/-- What an escape stands for does not depend on what follows it.  Only the number of octal
digits is not fixed. -/
theorem read_append {inClass : Bool} {atom : ClassAtom} (ht : EndsToken t)
    (h : read inClass s = .ok (atom, rest)) : read inClass (s ++ t) = .ok (atom, rest ++ t) := by
  unfold read at h
  split at h
  · cases h
  · next c s =>
    rw [List.cons_append]
    unfold read
    dsimp only
    split at h
    · cases h
      rfl
    · split at h
      · cases h
        rw [Numeral.octal_append ht]
      · exact numbered_append h fun c hread => control?_append hread t
      · exact numbered_append h fun c hread => byte?_append hread t
      · split at h
        · next body =>
          split at h
          · cases h
          · next digits tail hbody =>
            rw [List.cons_append]
            split
            · next body' heq =>
              obtain ⟨-, rfl⟩ := List.cons.inj heq
              rw [untilBrace_append_of_eq_ok hbody t]
              refine numbered_append h ?_
              intro c hread
              obtain ⟨c', hbraced, heq⟩ := Option.map_eq_some_iff.1 hread
              cases heq
              rw [hbraced]
              rfl
            · next hbrace => exact absurd rfl (hbrace (body ++ t))
        · next hbrace =>
          split
          · next body heq =>
            -- A brace would go on with the escape, but not with one that is complete.
            cases s with
            | nil => cases h
            | cons d s =>
              obtain ⟨rfl, -⟩ := List.cons.inj heq
              exact absurd rfl (hbrace s)
          · exact numbered_append h fun c hread => utf16?_append hread t
      · exact property_append h t
      · exact property_append h t
      · next hzero hcontrol hbyte hunicode hproperty hcomplement =>
        cases h
        rfl

end Escape

/-! ## Classes -/

namespace Class

variable {atom : ClassAtom} {item : ClassItem} {items : List ClassItem} {set : CharSet}

theorem AtomAt.append (ht : EndsToken t) (h : AtomAt s atom rest) :
    AtomAt (s ++ t) atom (rest ++ t) := by
  cases h with
  | char hc => exact .char hc
  | escape h => exact .escape (read_escape_iff.1 (Escape.read_append ht (read_escape_iff.2 h)))

theorem ItemAt.append (ht : EndsToken t) (h : ItemAt s item rest) (hrest : rest ≠ ['-']) :
    ItemAt (s ++ t) item (rest ++ t) := by
  cases h with
  | set h => exact .set (h.append ht)
  | range hfirst hmid hlast hle =>
    refine .range (hfirst.append ht) ?_ (hlast.append ht) hle
    obtain ⟨c, tail, heq⟩ := List.exists_cons_of_ne_nil hlast.ne_nil
    rw [heq] at hmid ⊢
    exact hmid
  | char h hdash =>
    refine .char (h.append ht) ?_
    intro tail heq
    cases rest with
    | nil => exact absurd heq (ht.ne_cons (by decide) tail)
    | cons d rest =>
      obtain ⟨rfl, rfl⟩ := List.cons.inj heq
      rcases hdash rest rfl with rfl | hbracket
      · exact absurd rfl hrest
      · obtain ⟨tail, rfl⟩ := List.head?_eq_some_iff.1 hbracket
        exact .inr rfl

theorem not_itemsAt_nil : ¬ItemsAt [] items rest := by
  intro h
  cases h with
  | item _ hitem _ => exact hitem.ne_nil rfl

/-- Behind a dash there is the bracket that closes the class, at the latest. -/
theorem not_itemsAt_dash : ¬ItemsAt ['-'] items rest := by
  intro h
  cases h with
  | item _ hitem hitems =>
    have hlt := length_lt_of_readItem (readItem_iff.2 hitem)
    rw [List.length_singleton, Nat.lt_one_iff, List.length_eq_zero_iff] at hlt
    rw [hlt] at hitems
    exact not_itemsAt_nil hitems

/-- The items of a class are read up to its bracket, whatever follows. -/
theorem ItemsAt.append (ht : EndsToken t) (h : ItemsAt s items rest) :
    ItemsAt (s ++ t) items (rest ++ t) := by
  induction h with
  | close => exact .close
  | @item s mid rest item items hs hitem hitems ih =>
    have hmid : mid ≠ ['-'] := by
      rintro rfl
      exact not_itemsAt_dash hitems
    refine .item ?_ (hitem.append ht hmid) ih
    obtain ⟨c, tail, rfl⟩ := List.exists_cons_of_ne_nil hitem.ne_nil
    exact hs

theorem readFirst_append (ht : EndsToken t) (s : List Char) :
    readFirst (s ++ t) = ((readFirst s).1, (readFirst s).2 ++ t) := by
  fun_cases readFirst s with
  | case1 => rfl
  | case2 => rfl
  | case3 s hbracket hdash =>
    exact readFirst.eq_3 _ (ht.append_ne_cons (by decide) hbracket)
      (ht.append_ne_cons (by decide) hdash)

theorem readNegation_append (ht : EndsToken t) (s : List Char) :
    readNegation (s ++ t) = ((readNegation s).1, (readNegation s).2 ++ t) := by
  fun_cases readNegation s with
  | case1 => rfl
  | case2 s hcaret => exact readNegation.eq_2 _ (ht.append_ne_cons (by decide) hcaret)

theorem read_append {opening opening' : List Char} (ht : EndsToken t)
    (h : read opening s = .ok (set, rest)) :
    read opening' (s ++ t) = .ok (set, rest ++ t) := by
  unfold read at h ⊢
  rw [readNegation_append ht]
  dsimp only at h ⊢
  rw [readFirst_append ht]
  dsimp only
  split at h
  · cases h
  · next items tail hitems =>
    have hitems' := ((readItems_iff opening).1 hitems).append ht
    rw [(readItems_iff opening').2 hitems']
    cases h
    rfl

end Class

/-! ## Tokens -/

namespace Token

/-- What ends a token completes no bounds of a quantifier, and bounds that are complete end at
their brace. -/
theorem bounds?_append (ht : EndsToken t) (s : List Char) :
    bounds? (s ++ t) = (bounds? s).map fun (min, max, rest) => (min, max, rest ++ t) := by
  have hbrace := fun s => ht.append_ne_cons (s := s) (c := '}') (by decide)
  have hcomma := fun s => ht.append_ne_cons (s := s) (c := ',') (by decide)
  fun_cases bounds? s with
  | case1 min tail hmin | case2 min tail hmin =>
    rw [bounds?, Numeral.decimal?_append ht, hmin]
    rfl
  | case3 min tail htail hmin max rest hmax =>
    have htail' := hbrace tail htail
    rw [bounds?, Numeral.decimal?_append ht, hmin]
    simp only [Option.map_some, List.cons_append, Numeral.decimal?_append ht, hmax]
  | case4 min tail htail hmin hmax =>
    have htail' := hbrace tail htail
    rw [bounds?, Numeral.decimal?_append ht, hmin]
    simp only [Option.map_some, List.cons_append, Numeral.decimal?_append ht]
    cases hread : Numeral.decimal? tail with
    | none => rfl
    | some result =>
      have hrest := hbrace result.2 (fun rest heq => hmax result.1 rest (by rw [hread, ← heq]))
      dsimp only [Option.map_some, Option.map_none]
      split
      · next heq => exact absurd (congrArg Prod.snd (Option.some.inj heq)) (hrest _)
      · rfl
  | case5 hfixed hopen hrange =>
    rw [bounds?, Numeral.decimal?_append ht]
    cases hread : Numeral.decimal? s with
    | none => rfl
    | some result =>
      have hrest := hbrace result.2 (fun rest heq => hfixed result.1 rest (by rw [hread, ← heq]))
      have hrest' := hcomma result.2 (fun rest heq => hrange result.1 rest (by rw [hread, ← heq]))
      dsimp only [Option.map_some, Option.map_none]
      split
      · next heq => exact absurd (congrArg Prod.snd (Option.some.inj heq)) (hrest _)
      · next heq => exact absurd (congrArg Prod.snd (Option.some.inj heq)) (hrest' _)
      · next heq => exact absurd (congrArg Prod.snd (Option.some.inj heq)) (hrest' _)
      · rfl

theorem readMode_append (ht : EndsToken t) (s : List Char) :
    readMode (s ++ t) = ((readMode s).1, (readMode s).2 ++ t) := by
  fun_cases readMode s with
  | case1 => rfl
  | case2 => rfl
  | case3 s hlazy hpossessive =>
    exact readMode.eq_3 _ (ht.append_ne_cons (by decide) hlazy)
      (ht.append_ne_cons (by decide) hpossessive)

theorem quantified_append (ht : EndsToken t) {min : Nat} {max : Option Nat} {token : Token}
    (h : quantified min max s = .ok (token, rest)) :
      quantified min max (s ++ t) = .ok (token, rest ++ t) := by
  cases h
  rw [quantified, readMode_append ht]

theorem readBrace_append (ht : EndsToken t) {start start' : List Char} {token : Token}
    (h : readBrace start s = .ok (token, rest)) :
      readBrace start' (s ++ t) = .ok (token, rest ++ t) := by
  unfold readBrace at h ⊢
  rw [bounds?_append ht]
  split at h
  · next hbounds =>
    rw [hbounds]
    cases h
    rfl
  · next min max tail hbounds =>
    rw [hbounds]
    dsimp only [Option.map_some]
    split at h
    · cases h
    · next hmax =>
      rw [if_neg hmax]
      exact quantified_append ht h

/-! ### Groups -/

theorem readName_append {name : String} (h : readName s = .ok (name, rest)) (t : List Char) :
    readName (s ++ t) = .ok (name, rest ++ t) := by
  obtain ⟨-, hname, hdrop⟩ := eq_of_readName h
  have hs : s = name.toList ++ '>' :: rest := by
    rw [hname, String.toList_ofList, ← hdrop, List.takeWhile_append_dropWhile]
  rw [hs, List.append_assoc, List.cons_append]
  exact isGroupName_of_readName h (rest ++ t)

theorem readFlags_append {on : Bool} {flags result : FlagOverride}
    (h : readFlags on flags s = .ok (result, rest))
    (t : List Char) : readFlags on flags (s ++ t) = .ok (result, rest ++ t) := by
  fun_induction readFlags on flags s with
  | case1 =>
    cases h
    rfl
  | case2 _ _ _ ih | case3 _ _ _ ih | case4 _ _ _ ih => exact ih h
  | case5 _ _ ih => exact ih h
  | case6 => cases h
  | case7 => cases h

theorem readKind_append (ht : EndsToken t) {kind : GroupKind} (h : readKind s = .ok (kind, rest)) :
    readKind (s ++ t) = .ok (kind, rest ++ t) := by
  fun_cases readKind s with
  | case1 | case2 | case3 | case4 | case5 =>
    cases h
    rfl
  | case6 s hequal hbang =>
    rw [readKind.eq_6 _ hequal hbang] at h
    obtain ⟨⟨name, tail⟩, hname, heq⟩ := map_eq_ok h
    cases heq
    show readKind ('?' :: '<' :: (s ++ t)) = _
    rw [readKind.eq_6 _ (ht.append_ne_cons (by decide) hequal)
      (ht.append_ne_cons (by decide) hbang), readName_append hname]
    rfl
  | case7 s hequal hbang hbehind hnotBehind hatomic hangle =>
    rw [readKind.eq_7 _ hequal hbang hbehind hnotBehind hatomic hangle] at h
    obtain ⟨⟨flags, tail⟩, hflags, heq⟩ := map_eq_ok h
    cases heq
    have hangle' := ht.append_ne_cons (c := '<') (by decide) hangle
    show readKind ('?' :: (s ++ t)) = _
    rw [readKind.eq_7 _ (ht.append_ne_cons (by decide) hequal) (ht.append_ne_cons (by decide) hbang)
      (fun _ => hangle' _) (fun _ => hangle' _) (ht.append_ne_cons (by decide) hatomic) hangle',
      readFlags_append hflags]
    rfl
  | case8 s _ _ _ _ _ _ hmark =>
    rw [readKind.eq_8 _ (fun _ => hmark _) (fun _ => hmark _) (fun _ => hmark _) (fun _ => hmark _)
      (fun _ => hmark _) (fun _ => hmark _) hmark] at h
    cases h
    have hmark' := ht.append_ne_cons (c := '?') (by decide) hmark
    exact readKind.eq_8 _ (fun _ => hmark' _) (fun _ => hmark' _) (fun _ => hmark' _)
      (fun _ => hmark' _) (fun _ => hmark' _) (fun _ => hmark' _) hmark'

/-! ### Atoms and all tokens -/

theorem readEscape_append (ht : EndsToken t) {pattern : Pattern}
    (h : readEscape s = .ok (pattern, rest)) :
    readEscape (s ++ t) = .ok (pattern, rest ++ t) := by
  unfold readEscape at h
  split at h
  · cases h
    rfl
  · cases h
    rfl
  · next s =>
    obtain ⟨⟨name, tail⟩, hname, heq⟩ := map_eq_ok h
    cases heq
    show (readName (s ++ t)).map _ = _
    rw [readName_append hname]
    rfl
  · next c s hb hB hk =>
    have hk' : ∀ tail, c = 'k' → s ++ t = '<' :: tail → False := fun tail hc =>
      ht.append_ne_cons (by decide) (fun tail => hk tail hc) tail
    rw [List.cons_append, readEscape.eq_4 _ _ hb hB hk']
    split at h
    · next hdigit =>
      rw [if_pos hdigit, ← List.cons_append, Numeral.decimal?_append ht]
      split at h
      · cases h
      · next n tail hread =>
        cases h
        rw [hread]
        rfl
    · next hdigit =>
      rw [if_neg hdigit, ← List.cons_append]
      split at h
      · cases h
      · next hread =>
        cases h
        rw [Escape.read_append ht hread]
      · next hread =>
        cases h
        rw [Escape.read_append ht hread]
  · cases h

/-- A token that has been read is read before what ends it. -/
theorem read_append (ht : EndsToken t) {c : Char} {token : Token}
    (h : read c s = .ok (token, rest)) :
    read c (s ++ t) = .ok (token, rest ++ t) := by
  unfold read at h ⊢
  split at h
  case h_1 =>
    obtain ⟨⟨kind, tail⟩, hkind, heq⟩ := map_eq_ok h
    cases heq
    rw [readKind_append ht hkind]
    rfl
  case h_4 | h_5 | h_6 => exact quantified_append ht h
  case h_7 => exact readBrace_append ht h
  case h_8 =>
    obtain ⟨⟨set, tail⟩, hset, heq⟩ := map_eq_ok h
    cases heq
    rw [Class.read_append ht hset]
    rfl
  case h_9 =>
    obtain ⟨⟨pattern, tail⟩, hpattern, heq⟩ := map_eq_ok h
    cases heq
    rw [readEscape_append ht hpattern]
    rfl
  all_goals
    cases h
    rfl

end Token

end RegexEngine
