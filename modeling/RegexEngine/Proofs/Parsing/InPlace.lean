import RegexEngine.Proofs.Parsing.Places
import RegexEngine.Proofs.Parsing.Prefix

/-!
# What is read in place

A reader that keeps the whole text and an offset in it reads what the reader of the rest alone
reads.  There is one lemma for each reader, named after it: at the offset at which a rest begins, it
answers what is read of the rest, with the places told by offsets of the whole text.

* `Scan.escape_offset` is about escapes, `Scan.charClass_offset` about classes and
  `Scan.token_offset` about tokens.
* `Scan.pattern_offset` is about all tokens up to the end, by induction on what remains.
* `Pattern.parseFrom_offset` is about whole patterns.
-/

namespace RegexEngine

open Pattern (offset)

namespace Numeral

theorem eq_of_decimal? {s rest : List Char} {n : Nat} (h : decimal? s = some (n, rest)) :
    s.dropWhile Char.isDigit = rest := by
  simp only [decimal?, Option.ite_none_right_eq_some, Option.some.injEq, Prod.mk.injEq] at h
  exact h.2.2

theorem decimal?_takeWhile (s : List Char) :
    (decimal? (s.takeWhile Char.isDigit)).map Prod.fst = (decimal? s).map Prod.fst := by
  have hself : (s.takeWhile Char.isDigit).takeWhile Char.isDigit = s.takeWhile Char.isDigit :=
    List.takeWhile_eq_self_iff.2 fun c hc => List.mem_takeWhile_imp hc
  unfold decimal?
  dsimp only
  rw [hself]
  split <;> rfl

theorem isSome_hexadecimal?_succ (count : Nat) (c : Char) (s : List Char) :
    (hexadecimal? (count + 1) (c :: s)).isSome =
      ((hexDigit? c).isSome && (hexadecimal? count s).isSome) := by
  unfold hexadecimal? hexValue?
  cases hc : hexDigit? c with
  | none => simp [hc]
  | some d =>
    by_cases hcount : count ≤ s.length
    · cases hdigits : (s.take count).mapM hexDigit? <;> simp [hc, hcount, hdigits]
    · simp [hcount]

end Numeral

namespace Scan

variable {α β : Type} {s : Subject} {rest : List Char} {c : Char}

/-! ## Numbers -/

theorem decimal_offset (h : rest <:+ s.chars) :
    decimal s (offset s.chars rest) =
      .ok ((Numeral.decimal? rest).map Prod.fst, offset s.chars (rest.dropWhile Char.isDigit)) := by
  simp [decimal, h, Numeral.decimal?_takeWhile]

/-- What a reader of a number answers in place. -/
def given (text : List Char) (start : Nat) : Option (α × List Char) → Except Halt (α × Nat)
  | none => .error (.error (.badEscape start))
  | some (a, rest) => .ok (a, offset text rest)

@[simp]
theorem given_none (text : List Char) (start : Nat) :
    (given text start none : Except Halt (α × Nat)) = .error (.error (.badEscape start)) :=
  rfl

@[simp]
theorem given_some (text : List Char) (start : Nat) (a : α) (rest : List Char) :
    given text start (some (a, rest)) = .ok (a, offset text rest) :=
  rfl

theorem skipHex_offset (start count : Nat) (h : rest <:+ s.chars) :
    skipHex start count s (offset s.chars rest) =
      if (Numeral.hexadecimal? count rest).isSome then .ok ((), offset s.chars (rest.drop count))
      else .error (.error (.badEscape start)) := by
  induction count generalizing rest with
  | zero => rfl
  | succ count ih =>
    cases rest with
    | nil => simp [skipHex, Numeral.hexadecimal?]
    | cons c rest =>
      have hrest : rest <:+ s.chars := (List.suffix_cons c rest).trans h
      simp only [skipHex, bind_apply, peek_offset h, List.head?_cons,
        Numeral.isSome_hexadecimal?_succ]
      cases (Numeral.hexDigit? c).isSome with
      | false => rfl
      | true => simp [h, ih hrest]

theorem hexadecimal_offset (count start : Nat) (h : rest <:+ s.chars) :
    hexadecimal count start s (offset s.chars rest) =
      given s.chars start (Numeral.hexadecimal? count rest) := by
  simp only [hexadecimal, bind_apply, place_apply, skipHex_offset start count h]
  cases hhex : Numeral.hexadecimal? count rest with
  | none => rfl
  | some read =>
    obtain ⟨n, tail⟩ := read
    simp only [Numeral.hexadecimal?, Option.ite_none_right_eq_some, Option.map_eq_some_iff,
      Prod.mk.injEq] at hhex
    obtain ⟨-, _, hvalue, rfl, rfl⟩ := hhex
    simp [h, hvalue, given]

theorem octal_offset_foldl (n count : Nat) (h : rest <:+ s.chars) :
    octal n count s (offset s.chars rest) =
      .ok ((((rest.take count).takeWhile fun c => '0' ≤ c && c ≤ '7').map Numeral.ofDigit).foldl
          (fun n d => 8 * n + d) n,
        offset s.chars
          (rest.drop ((rest.take count).takeWhile fun c => '0' ≤ c && c ≤ '7').length)) := by
  induction count generalizing n rest with
  | zero => simp [octal]
  | succ count ih =>
    cases rest with
    | nil => simp [octal]
    | cons c rest =>
      have hrest : rest <:+ s.chars := (List.suffix_cons c rest).trans h
      simp only [octal, bind_apply, peek_offset h, List.head?_cons, List.take_succ_cons,
        List.takeWhile_cons]
      by_cases hc : '0' ≤ c ∧ c ≤ '7'
      · simp [hc, h, ih _ hrest]
      · rw [if_neg hc]
        simp only [← Bool.decide_and, hc]
        rfl

theorem octal_offset (count : Nat) (h : rest <:+ s.chars) :
    octal 0 count s (offset s.chars rest) =
      .ok ((Numeral.octal count rest).1, offset s.chars (Numeral.octal count rest).2) :=
  octal_offset_foldl 0 count h

/-! ## Escapes -/

theorem scalar_offset (start n : Nat) (rest : List Char) :
    scalar start n s (offset s.chars rest) =
      given s.chars start ((Numeral.scalar? n).map (·, rest)) := by
  unfold scalar
  cases Numeral.scalar? n <;> rfl

theorem untilBrace_offset (h : rest <:+ s.chars) :
    untilBrace s (offset s.chars rest) = placed s.chars (Escape.untilBrace rest) := by
  have hdrop : rest.dropWhile (· ≠ '}') <:+ s.chars := (List.dropWhile_suffix _).trans h
  have hhead := List.head?_dropWhile_not (fun c => decide (c ≠ '}')) rest
  unfold Escape.untilBrace
  simp only [untilBrace, bind_apply, place_apply, skipWhile_offset _ h, since_takeWhile _ h]
  cases hrest : rest.dropWhile (· ≠ '}') with
  | nil => simp [placed, ParseError.map]
  | cons d tail =>
    rw [hrest] at hdrop hhead
    obtain rfl : d = '}' := by simpa using hhead
    simp [hdrop, placed]

theorem property_offset (negated : Bool) (h : rest <:+ s.chars) :
    property negated s (offset s.chars rest) = placed s.chars (Escape.property negated rest) := by
  unfold Escape.property
  split
  · next body =>
    have hbody : body <:+ s.chars := (List.suffix_cons _ body).trans h
    simp only [property, bind_apply, expect_cons h, untilBrace_offset hbody]
    cases Escape.untilBrace body with
    | error e => rfl
    | ok read =>
      dsimp only [placed]
      cases Unicode.property? read.1 <;> rfl
  · next hnot =>
    simp [property, expect_of_ne h (head?_ne_of_not_cons hnot), placed, ParseError.map]

theorem lowSurrogate_offset (start : Nat) (h : rest <:+ s.chars) :
    restoring (lowSurrogate start) s (offset s.chars rest) =
      match Escape.lowSurrogate? rest with
      | none => .ok (none, offset s.chars rest)
      | some (low, tail) => .ok (some low, offset s.chars tail) := by
  fun_cases Escape.lowSurrogate? rest with
  | case1 tail =>
    have htail : tail <:+ s.chars := ((List.suffix_cons _ _).trans (List.suffix_cons _ _)).trans h
    simp only [restoring, lowSurrogate, bind_apply, eatText_pair h, if_true, attempt,
      hexadecimal_offset 4 start htail]
    cases Numeral.hexadecimal? 4 tail with
    | none => rfl
    | some read =>
      obtain ⟨low, tail'⟩ := read
      simp only [given, pure_apply, Option.filter_some]
      cases decide (0xDC00 ≤ low) && decide (low < 0xE000) <;> rfl
  | case2 rest hnot =>
    have hprefix : ¬(['\\', 'u'] <+: rest) := by
      rintro ⟨tail, rfl⟩
      exact hnot tail rfl
    simp [restoring, lowSurrogate, eatText_of_not h hprefix]

theorem utf16_offset (start : Nat) (h : rest <:+ s.chars) :
    utf16 start s (offset s.chars rest) = given s.chars start (Escape.utf16? rest) := by
  simp only [utf16, bind_apply, hexadecimal_offset 4 start h]
  unfold Escape.utf16?
  cases hunit : Numeral.hexadecimal? 4 rest with
  | none => rfl
  | some read =>
    obtain ⟨unit, tail⟩ := read
    have htail : tail <:+ s.chars := (Numeral.suffix_of_hexadecimal? hunit).trans h
    simp only [given_some]
    split
    · rw [bind_apply, lowSurrogate_offset start htail]
      cases Escape.lowSurrogate? tail with
      | none =>
        dsimp only
        have hnone : Numeral.scalar? unit = none := by
          rw [Option.eq_none_iff_forall_ne_some]
          intro c hc
          have hvalid : c.toNat < 0xD800 ∨ 0xDFFF < c.toNat ∧ c.toNat < 0x110000 := c.valid
          have := Numeral.scalar?_eq_some_iff.1 hc
          omega
        rw [scalar_offset, hnone]
        rfl
      | some low =>
        dsimp only
        rw [scalar_offset]
    · rw [scalar_offset]

theorem control_offset (start : Nat) (h : rest <:+ s.chars) :
    control start s (offset s.chars rest) = given s.chars start (Escape.control? rest) := by
  cases rest with
  | nil => simp [control, Escape.control?]
  | cons c rest =>
    simp only [control, bind_apply, advance_cons h, Escape.control?]
    split <;> rfl

theorem octalChar_offset (start : Nat) (h : rest <:+ s.chars) :
    octalChar start s (offset s.chars rest) =
      .ok (Char.ofNat (Numeral.octal 2 rest).1, offset s.chars (Numeral.octal 2 rest).2) := by
  have hread : Numeral.octal 2 rest = ((Numeral.octal 2 rest).1, (Numeral.octal 2 rest).2) := rfl
  have hlt := (Numeral.octal_eq_iff.1 hread).lt
  have hvalid : (Numeral.octal 2 rest).1.isValidChar := .inl (by omega)
  rw [octalChar, bind_apply, octal_offset 2 h]
  dsimp only
  rw [scalar_offset, Numeral.scalar?, if_pos hvalid]
  rfl

theorem byte_offset (start : Nat) (h : rest <:+ s.chars) :
    byte start s (offset s.chars rest) = given s.chars start (Escape.byte? rest) := by
  rw [byte, bind_apply, hexadecimal_offset 2 start h, Escape.byte?]
  cases hread : Numeral.hexadecimal? 2 rest with
  | none => rfl
  | some read =>
    obtain ⟨n, tail⟩ := read
    obtain ⟨digits, -, hlength, hdigits⟩ := (Numeral.hexadecimal?_eq_some_iff (by decide)).1 hread
    have hlt := hdigits.lt
    rw [hlength] at hlt
    have hvalid : n.isValidChar := .inl (by omega)
    simp only [given_some]
    rw [scalar_offset, Numeral.scalar?, if_pos hvalid]
    rfl

theorem braced_offset (start : Nat) (h : rest <:+ s.chars) :
    braced start s (offset s.chars rest) =
      match Escape.untilBrace rest with
      | .error e => .error (.error (e.map (offset s.chars)))
      | .ok (body, tail) => given s.chars start ((Escape.braced? body).map (·, tail)) := by
  rw [braced, bind_apply, untilBrace_offset h]
  cases Escape.untilBrace rest with
  | error e => rfl
  | ok read =>
    dsimp only [placed]
    cases Escape.braced? read.1 <;> rfl

/-- What the character of an escape is read from, in place and of the rest alone. -/
theorem map_char_of_given {m : Scan Char} {start : List Char} {read : Option (Char × List Char)}
    (h : m s (offset s.chars rest) = given s.chars (offset s.chars start) read) :
    (ClassAtom.char <$> m) s (offset s.chars rest) =
      placed s.chars (Escape.numbered start read) := by
  rw [map_apply, h]
  cases read <;> rfl

theorem map_char_unicode (start : List Char) (h : rest <:+ s.chars) :
    (ClassAtom.char <$> unicode (offset s.chars start)) s (offset s.chars rest) =
      placed s.chars (match rest with
        | '{' :: body =>
          match Escape.untilBrace body with
          | .error e => .error e
          | .ok (digits, rest) => Escape.numbered start ((Escape.braced? digits).map (·, rest))
        | _ => Escape.numbered start (Escape.utf16? rest)) := by
  split
  · next body =>
    have hbody : body <:+ s.chars := (List.suffix_cons _ body).trans h
    simp only [map_apply, unicode, bind_apply, eat_cons h, if_true, braced_offset _ hbody]
    cases Escape.untilBrace body with
    | error e => rfl
    | ok read =>
      dsimp only
      cases Escape.braced? read.1 <;> rfl
  · next hnot =>
    refine map_char_of_given ?_
    simp only [unicode, bind_apply, eat_of_not_cons h hnot, Bool.false_eq_true, if_false]
    exact utf16_offset _ h

/-- What follows a backslash. -/
theorem escape_offset (inClass : Bool) (h : rest <:+ s.chars) :
    escape inClass s (offset s.chars rest) = placed s.chars (Escape.read inClass rest) := by
  cases rest with
  | nil => simp [escape, Escape.read, placed, ParseError.map]
  | cons c rest =>
    have hrest : rest <:+ s.chars := (List.suffix_cons c rest).trans h
    simp only [escape, bind_apply, place_apply, next_cons _ h, Escape.read]
    cases hnamed : Escape.named? inClass c with
    | some atom => rfl
    | none =>
      dsimp only
      split
      · rw [map_apply, octalChar_offset _ hrest]
        rfl
      · exact map_char_of_given (control_offset _ hrest)
      · exact map_char_of_given (byte_offset _ hrest)
      · exact map_char_unicode ('u' :: rest) hrest
      · exact property_offset false hrest
      · exact property_offset true hrest
      · simp [*, placed]

/-! ## Classes -/

theorem classAtom_offset (h : rest <:+ s.chars) :
    classAtom s (offset s.chars rest) = placed s.chars (Class.readAtom rest) := by
  unfold Class.readAtom
  split
  · simp [classAtom, placed, ParseError.map]
  · next tail =>
    have htail : tail <:+ s.chars := (List.suffix_cons _ tail).trans h
    simp only [classAtom, bind_apply, next_cons _ h]
    exact escape_offset true htail
  · next c tail hnot =>
    simp only [classAtom, bind_apply, next_cons _ h]
    rfl

theorem goesOn_offset (h : rest <:+ s.chars) :
    goesOn s (offset s.chars rest) =
      .ok ((Class.afterDash? rest).isSome, offset s.chars rest) := by
  unfold Class.afterDash?
  split
  · next c tail =>
    simp only [goesOn, bind_apply, peek_offset h, List.head?_cons, if_true, peekSecond_cons h]
    by_cases hc : c = ']' <;> simp [hc]
  · next hnot =>
    by_cases hdash : rest.head? = some '-'
    · obtain ⟨tail, rfl⟩ := List.head?_eq_some_iff.1 hdash
      cases tail with
      | nil => simp [goesOn, h]
      | cons c tail => exact absurd rfl (hnot c tail)
    · simp [goesOn, h, hdash]

theorem classRange_offset (first : Char) (h : rest <:+ s.chars) :
    classRange first s (offset s.chars rest) = placed s.chars (Class.readRange first rest) := by
  rw [classRange, bind_apply, classAtom_offset h, Class.readRange]
  cases Class.readAtom rest with
  | error e => rfl
  | ok read =>
    obtain ⟨atom, tail⟩ := read
    cases atom with
    | set members => rfl
    | char last =>
      simp only [placed]
      split <;> rfl

theorem classItem_offset (h : rest <:+ s.chars) :
    classItem s (offset s.chars rest) = placed s.chars (Class.readItem rest) := by
  rw [classItem, bind_apply, classAtom_offset h, Class.readItem]
  cases hatom : Class.readAtom rest with
  | error e => rfl
  | ok read =>
    obtain ⟨atom, tail⟩ := read
    have htail : tail <:+ s.chars := (Class.suffix_of_readAtom hatom).trans h
    cases atom with
    | set members => rfl
    | char c =>
      simp only [placed, bind_apply, goesOn_offset htail]
      cases hdash : Class.afterDash? tail with
      | none => rfl
      | some last =>
        obtain ⟨rfl, -⟩ := Class.afterDash?_eq_some_iff.1 hdash
        have hlast : last <:+ s.chars := (List.suffix_cons _ last).trans htail
        simp only [Option.isSome_some, if_true, bind_apply, advance_cons htail]
        exact classRange_offset c hlast

/-- Where no bracket stands, an item is read and then the others. -/
theorem classItems_cons (opening : Nat) (hc : c ≠ ']') (h : c :: rest <:+ s.chars) :
    classItems opening s (offset s.chars (c :: rest)) =
      match classItem s (offset s.chars (c :: rest)) with
      | .error halt => .error halt
      | .ok (item, mid) =>
        match classItems opening s mid with
        | .error halt => .error halt
        | .ok (items, pos) => .ok (item :: items, pos) := by
  rw [classItems, peek_offset h, List.head?_cons]
  split
  · next heq => cases heq
  · next heq => cases heq
  · next heq =>
    cases heq
    exact absurd rfl hc
  · cases classItem s (offset s.chars (c :: rest)) <;> rfl

theorem classItems_offset {opening : List Char} (h : rest <:+ s.chars) :
    classItems (offset s.chars opening) s (offset s.chars rest) =
      placed s.chars (Class.readItems opening rest) := by
  fun_induction Class.readItems opening rest with
  | case1 =>
    rw [classItems, peek_offset h]
    rfl
  | case2 tail =>
    rw [classItems, peek_offset h]
    simp [h, placed]
  | case3 c tail hc e hitem =>
    rw [classItems_cons _ hc h, classItem_offset h, hitem]
    rfl
  | case4 c tail hc item mid hitem e hrest ih =>
    have hmid : mid <:+ s.chars := (Class.suffix_of_readItem hitem).trans h
    rw [classItems_cons _ hc h, classItem_offset h, hitem]
    simp only [placed, ih hmid, hrest]
  | case5 c tail hc item mid hitem items rest hrest ih =>
    have hmid : mid <:+ s.chars := (Class.suffix_of_readItem hitem).trans h
    rw [classItems_cons _ hc h, classItem_offset h, hitem]
    simp only [placed, ih hmid, hrest]

theorem classFirst_offset (h : rest <:+ s.chars) :
    classFirst s (offset s.chars rest) =
      .ok ((Class.readFirst rest).1, offset s.chars (Class.readFirst rest).2) := by
  unfold Class.readFirst
  split
  · simp [classFirst, h]
  · simp [classFirst, h]
  · next hclose hdash =>
    simp [classFirst, eat_of_not_cons h hclose, eat_of_not_cons h hdash]

theorem charClass_offset {opening : List Char} (h : rest <:+ s.chars) :
    charClass (offset s.chars opening) s (offset s.chars rest) =
      placed s.chars (Class.read opening rest) := by
  have hnegation : eat '^' s (offset s.chars rest) =
      .ok ((Class.readNegation rest).1, offset s.chars (Class.readNegation rest).2) := by
    unfold Class.readNegation
    split
    · exact eat_cons h
    · next hnot => exact eat_of_not_cons h hnot
  have hbody : (Class.readNegation rest).2 <:+ s.chars := (Class.suffix_readNegation rest).trans h
  have hitems := (Class.suffix_readFirst (Class.readNegation rest).2).trans hbody
  simp only [charClass, bind_apply, hnegation, classFirst_offset hbody, classItems_offset hitems,
    Class.read]
  cases Class.readItems opening (Class.readFirst (Class.readNegation rest).2).2 <;> rfl

/-! ## Quantifiers -/

theorem mode_offset (h : rest <:+ s.chars) :
    mode s (offset s.chars rest) =
      .ok ((Token.readMode rest).1, offset s.chars (Token.readMode rest).2) := by
  unfold Token.readMode
  split
  · simp [mode, h]
  · simp [mode, h]
  · next hlazy hpossessive =>
    simp [mode, eat_of_not_cons h hlazy, eat_of_not_cons h hpossessive]

theorem quantified_offset (min : Nat) (max : Option Nat) (h : rest <:+ s.chars) :
    quantified min max s (offset s.chars rest) =
      placed s.chars (Token.quantified min max rest) := by
  rw [quantified, bind_apply, mode_offset h]
  rfl

/-- Bounds are read up to their closing brace, or nothing is read. -/
theorem bounds_offset (h : rest <:+ s.chars) :
    bounds s (offset s.chars rest) =
      match Token.bounds? rest with
      | none => .ok (none, offset s.chars rest)
      | some (min, max, tail) => .ok (some (min, max), offset s.chars tail) := by
  fun_cases Token.bounds? rest with
  | case1 min tail hmin =>
    have htail := (Numeral.suffix_of_decimal? hmin).trans h
    simp [bounds, restoring, maximum, decimal_offset h, hmin, Numeral.eq_of_decimal? hmin, htail]
  | case2 min tail hmin =>
    have htail := (Numeral.suffix_of_decimal? hmin).trans h
    have hbrace := (List.suffix_cons _ _).trans htail
    simp [bounds, restoring, maximum, decimal_offset h, hmin, Numeral.eq_of_decimal? hmin, htail,
      hbrace]
  | case3 min mid hnot hmin max tail hmax =>
    have hcomma := (Numeral.suffix_of_decimal? hmin).trans h
    have hmid := (List.suffix_cons _ _).trans hcomma
    have htail := (Numeral.suffix_of_decimal? hmax).trans hmid
    simp [bounds, restoring, maximum, decimal_offset h, hmin, Numeral.eq_of_decimal? hmin, hcomma,
      hmid, head?_ne_of_not_cons hnot, decimal_offset hmid, hmax,
        Numeral.eq_of_decimal? hmax, htail]
  | case4 min mid hnot hmin hmax =>
    have hcomma := (Numeral.suffix_of_decimal? hmin).trans h
    have hmid := (List.suffix_cons _ _).trans hcomma
    cases hread : Numeral.decimal? mid with
    | none =>
      simp [bounds, restoring, maximum, decimal_offset h, hmin, Numeral.eq_of_decimal? hmin, hcomma,
        hmid, head?_ne_of_not_cons hnot, decimal_offset hmid, hread]
    | some read =>
      obtain ⟨max, tail⟩ := read
      have htail := (Numeral.suffix_of_decimal? hread).trans hmid
      have hopen : ∀ rest, tail = '}' :: rest → False := fun rest heq => hmax max rest (heq ▸ hread)
      simp [bounds, restoring, maximum, decimal_offset h, hmin, Numeral.eq_of_decimal? hmin, hcomma,
        hmid, head?_ne_of_not_cons hnot, decimal_offset hmid, hread, Numeral.eq_of_decimal? hread,
        eat_of_not_cons htail hopen]
  | case5 hexact hopen hrange =>
    cases hread : Numeral.decimal? rest with
    | none => simp [bounds, restoring, decimal_offset h, hread]
    | some read =>
      obtain ⟨min, tail⟩ := read
      have htail := (Numeral.suffix_of_decimal? hread).trans h
      have hbrace : ∀ rest, tail = '}' :: rest → False :=
        fun rest heq => hexact min rest (heq ▸ hread)
      have hcomma : ∀ rest, tail = ',' :: rest → False :=
        fun rest heq => hrange min rest (heq ▸ hread)
      simp [bounds, restoring, maximum, decimal_offset h, hread, Numeral.eq_of_decimal? hread,
        eat_of_not_cons htail hbrace, eat_of_not_cons htail hcomma]

theorem brace_offset {start : List Char} (h : rest <:+ s.chars) :
    brace (offset s.chars start) s (offset s.chars rest) =
      placed s.chars (Token.readBrace start rest) := by
  rw [brace, bind_apply, bounds_offset h, Token.readBrace]
  cases hbounds : Token.bounds? rest with
  | none => rfl
  | some read =>
    obtain ⟨min, max, tail⟩ := read
    have htail : tail <:+ s.chars := (Token.suffix_of_bounds? hbounds).trans h
    dsimp only
    split
    · rfl
    · exact quantified_offset min max htail

/-! ## Groups -/

theorem name_offset (h : rest <:+ s.chars) :
    name s (offset s.chars rest) = placed s.chars (Token.readName rest) := by
  have hdrop : rest.dropWhile Token.isNameChar <:+ s.chars := (List.dropWhile_suffix _).trans h
  simp only [name, bind_apply, place_apply, skipWhile_offset _ h, since_takeWhile _ h,
    Token.readName]
  split
  · rfl
  · split
    · next tail heq =>
      rw [heq] at hdrop ⊢
      simp [hdrop, placed]
    · next hnot =>
      have hne : (rest.dropWhile Token.isNameChar).head? ≠ some '>' := by
        intro heq
        obtain ⟨tail, heq⟩ := List.head?_eq_some_iff.1 heq
        exact hnot tail heq
      rw [bind_apply, expect_of_ne hdrop hne]
      rfl

theorem flags_offset (on : Bool) (set : FlagOverride) (h : rest <:+ s.chars) :
    flags on set s (offset s.chars rest) = placed s.chars (Token.readFlags on set rest) := by
  fun_induction Token.readFlags on set rest with
  | case1 on set tail =>
    rw [flags, next_cons _ h]
    rfl
  | case2 on set tail ih | case3 on set tail ih | case4 on set tail ih =>
    rw [flags, next_cons _ h]
    exact ih ((List.suffix_cons _ _).trans h)
  | case5 set tail ih =>
    rw [flags, next_cons _ h]
    exact ih ((List.suffix_cons _ _).trans h)
  | case6 on set tail hon =>
    rw [flags, next_cons _ h]
    exact if_neg hon
  | case7 on set rest hcolon hi hm hs hdash =>
    cases rest with
    | nil =>
      rw [flags, next_nil]
      rfl
    | cons c tail =>
      rw [flags, next_cons _ h]
      split
      · next heq => cases heq
      · next heq =>
        cases heq
        exact absurd rfl (hcolon tail)
      · next heq =>
        cases heq
        exact absurd rfl (hi tail)
      · next heq =>
        cases heq
        exact absurd rfl (hm tail)
      · next heq =>
        cases heq
        exact absurd rfl (hs tail)
      · next heq =>
        cases heq
        exact absurd rfl (hdash tail)
      · rfl

/-- A reader whose result is only wrapped. -/
theorem wrapped_offset {m : Scan α} {r : Reading α} {pos : Nat} (f : α → β)
    (h : m s pos = placed s.chars r) :
    (m >>= fun a => pure (f a)) s pos = placed s.chars (r.map fun (a, rest) => (f a, rest)) := by
  rw [bind_apply, h]
  cases r <;> rfl

theorem kind_offset (h : rest <:+ s.chars) :
    kind s (offset s.chars rest) = placed s.chars (Token.readKind rest) := by
  have hmark {tail : List Char} (h : '?' :: tail <:+ s.chars) : tail <:+ s.chars :=
    (List.suffix_cons _ tail).trans h
  have hmarked {c : Char} {tail : List Char} (h : '?' :: c :: tail <:+ s.chars) :
      c :: tail <:+ s.chars ∧ tail <:+ s.chars :=
        ⟨hmark h, (List.suffix_cons _ tail).trans (hmark h)⟩
  fun_cases Token.readKind rest with
  | case1 tail => simp [kind, h, hmarked h, placed]
  | case2 tail => simp [kind, h, hmarked h, placed]
  | case3 tail => simp [kind, h, hmarked h, placed]
  | case4 tail => simp [kind, h, hmarked h, placed, eatText_of_not]
  | case5 tail => simp [kind, h, hmarked h, placed, eatText_of_not]
  | case6 tail hequal hbang =>
    obtain ⟨hangle, htail⟩ := hmarked h
    have hnotEqual : ¬(['<', '='] <+: '<' :: tail) := by
      rintro ⟨tail', heq⟩
      exact hequal tail' (List.cons.inj heq).2.symm
    have hnotBang : ¬(['<', '!'] <+: '<' :: tail) := by
      rintro ⟨tail', heq⟩
      exact hbang tail' (List.cons.inj heq).2.symm
    have hname := wrapped_offset (fun name => GroupKind.capture (some name)) (name_offset htail)
    simp only [bind_apply, pure_apply] at hname
    simp [kind, h, hangle, eatText_of_not, hnotEqual, hnotBang, hname]
  | case7 tail hequal hbang hbehind hnotBehind hatomic hangle =>
    have htail := hmark h
    have hflags := wrapped_offset GroupKind.withFlags (flags_offset true {} htail)
    have hnotEqual : ¬(['<', '='] <+: tail) := by
      rintro ⟨tail', heq⟩
      exact hangle _ heq.symm
    have hnotBang : ¬(['<', '!'] <+: tail) := by
      rintro ⟨tail', heq⟩
      exact hangle _ heq.symm
    by_cases hcolon : tail.head? = some ':'
    · obtain ⟨tail, rfl⟩ := List.head?_eq_some_iff.1 hcolon
      simp [kind, h, htail, Token.readFlags, Except.map, placed]
    · simp only [bind_apply, pure_apply] at hflags
      simp [kind, h, eat_of_ne htail hcolon, eat_of_not_cons htail hequal,
        eat_of_not_cons htail hbang,
        eat_of_not_cons htail hatomic, eat_of_not_cons htail hangle, eatText_of_not htail hnotEqual,
        eatText_of_not htail hnotBang, hflags]
  | case8 rest hequal hbang hbehind hnotBehind hatomic hangle hmark =>
    simp [kind, eat_of_not_cons h hmark, placed]

/-! ## Tokens -/

theorem plainEscape_offset (h : rest <:+ s.chars) :
    plainEscape s (offset s.chars rest) =
      placed s.chars (match Escape.read false rest with
        | .error e => .error e
        | .ok (.char c, rest) => .ok (.text [c], rest)
        | .ok (.set members, rest) => .ok (.oneOf members, rest)) := by
  rw [plainEscape, bind_apply, escape_offset false h]
  cases Escape.read false rest with
  | error e => rfl
  | ok read =>
    obtain ⟨atom, tail⟩ := read
    cases atom <;> rfl

/-- The escapes that are no assertions and no references by name. -/
theorem outerEscape_cons (h : c :: rest <:+ s.chars) (hb : c ≠ 'b') (hB : c ≠ 'B')
    (hname : c = 'k' → rest.head? ≠ some '<') :
    outerEscape s (offset s.chars (c :: rest)) =
      if c.isDigit && c ≠ '0' then
        match Numeral.decimal? (c :: rest) with
        | none => .error (.error (.badEscape (offset s.chars (c :: rest))))
        | some (n, rest) => .ok (.reference (.index n), offset s.chars rest)
      else
        plainEscape s (offset s.chars (c :: rest)) := by
  rw [outerEscape, bind_apply, peek_offset h, List.head?_cons]
  dsimp only
  split
  · exact absurd rfl hb
  · exact absurd rfl hB
  · simp [h, hname rfl]
  · split
    · rw [bind_apply, place_apply]
      dsimp only
      rw [bind_apply, decimal_offset h]
      cases hread : Numeral.decimal? (c :: rest) with
      | none => rfl
      | some read =>
        rw [Numeral.eq_of_decimal? hread]
        rfl
    · rfl

theorem outerEscape_offset (h : rest <:+ s.chars) :
    outerEscape s (offset s.chars rest) = placed s.chars (Token.readEscape rest) := by
  have hplain := plainEscape_offset h
  unfold Token.readEscape
  split
  · simp [outerEscape, h, placed]
  · simp [outerEscape, h, placed]
  · next tail =>
    have hangle : '<' :: tail <:+ s.chars := (List.suffix_cons _ _).trans h
    have hname := wrapped_offset (fun name => Pattern.reference (.name name))
      (name_offset ((List.suffix_cons _ _).trans hangle))
    simp only [bind_apply, pure_apply] at hname
    simp [outerEscape, h, hangle, hname]
  · next c tail hb hB hk =>
    have hname : c = 'k' → tail.head? ≠ some '<' := by
      rintro rfl
      exact head?_ne_of_not_cons fun tail' heq => hk tail' rfl heq
    rw [outerEscape_cons h hb hB hname, hplain]
    split
    · cases Numeral.decimal? (c :: tail) <;> rfl
    · rfl
  · simp [outerEscape, hplain, Escape.read]

/-- A token in place is the token of the rest alone. -/
theorem token_offset (h : c :: rest <:+ s.chars) :
    token (offset s.chars (c :: rest)) c s (offset s.chars rest) =
      placed s.chars (Token.read c rest) := by
  have hrest : rest <:+ s.chars := (List.suffix_cons c rest).trans h
  unfold token Token.read
  split
  · exact wrapped_offset Token.opening (kind_offset hrest)
  · rfl
  · rfl
  · exact quantified_offset 0 none hrest
  · exact quantified_offset 1 none hrest
  · exact quantified_offset 0 (some 1) hrest
  · exact brace_offset hrest
  · exact wrapped_offset (fun set => Token.atom (.oneOf set)) (charClass_offset hrest)
  · exact wrapped_offset Token.atom (outerEscape_offset hrest)
  · rfl
  · rfl
  · rfl
  · simp [*, placed]

end Scan

/-! ## Whole patterns -/

namespace Partial

variable {α β : Type}

/-- What has been read, with its places told in another way. -/
def map (f : α → β) (p : Partial α) : Partial β where
  level := p.level
  groups := p.groups.map fun group => ⟨group.kind, f group.start, group.outer⟩

/-- A token does the same to what has been read, however places are told. -/
theorem add_map (f : α → β) (p : Partial α) (start : α) (token : Token) :
    (p.map f).add (f start) token =
      match p.add start token with
      | .error e => .error (e.map f)
      | .ok q => .ok (q.map f) := by
  obtain ⟨level, groups⟩ := p
  cases token with
  | atom pattern => rfl
  | quantifier min max mode =>
    simp only [add, map]
    cases level.atom <;> rfl
  | opening kind => rfl
  | bar => rfl
  | close => cases groups <;> rfl

theorem finish_map (f : α → β) (p : Partial α) :
    (p.map f).finish = p.finish.mapError (·.map f) := by
  obtain ⟨level, groups⟩ := p
  cases groups <;> rfl

end Partial

namespace Scan

variable {s : Subject} {rest : List Char}

theorem pattern_nil (p : Partial Nat) :
    pattern p s (offset s.chars []) =
      match p.finish with
      | .error e => .error (.error e)
      | .ok result => .ok (result, offset s.chars []) := by
  rw [pattern]
  split
  · next heq =>
    rw [advance_nil] at heq
    cases heq
  · rfl
  · next heq =>
    rw [advance_nil] at heq
    cases heq

theorem pattern_cons {c : Char} (p : Partial Nat) (h : c :: rest <:+ s.chars) :
    pattern p s (offset s.chars (c :: rest)) =
      match token (offset s.chars (c :: rest)) c s (offset s.chars rest) with
      | .error halt => .error halt
      | .ok (token, pos) =>
        match p.add (offset s.chars (c :: rest)) token with
        | .error e => .error (.error e)
        | .ok q => pattern q s pos := by
  rw [pattern]
  split
  · next heq =>
    rw [advance_cons h] at heq
    cases heq
  · next heq =>
    rw [advance_cons h] at heq
    cases heq
  · next heq =>
    rw [advance_cons h] at heq
    cases heq
    cases token (offset s.chars (c :: rest)) c s (offset s.chars rest) <;> rfl

/-- The rest of a text is read in place as it is read alone. -/
theorem pattern_offset (p : Partial (List Char)) (h : rest <:+ s.chars) :
    pattern (p.map (offset s.chars)) s (offset s.chars rest) =
      placed s.chars ((p.readAll rest).map (·, [])) := by
  fun_induction Partial.readAll p rest with
  | case1 p =>
    rw [pattern_nil, Partial.finish_map]
    cases p.finish <;> rfl
  | case2 p c tail e hread =>
    rw [pattern_cons _ h, token_offset h, hread]
    rfl
  | case3 p c tail token rest hread e hadd =>
    rw [pattern_cons _ h, token_offset h, hread]
    dsimp only [placed]
    rw [Partial.add_map, hadd]
    rfl
  | case4 p c tail token rest hread q hadd ih =>
    have hrest : rest <:+ s.chars :=
      (Token.suffix_of_read hread).trans ((List.suffix_cons c tail).trans h)
    rw [pattern_cons _ h, token_offset h, hread]
    dsimp only [placed]
    rw [Partial.add_map, hadd]
    exact ih hrest

end Scan

namespace Pattern

/-- The pattern that begins at the place of a rest is the pattern of the rest alone. -/
theorem parseFrom_offset {text rest : List Char} (h : rest <:+ text) :
    parseFrom text (offset text rest) = .ok ((read rest).mapError (·.map (offset text))) := by
  have hread : Scan.pattern {} (Subject.ofList text) (offset text rest) =
      Scan.placed text ((read rest).map (·, [])) :=
    @Scan.pattern_offset (Subject.ofList text) rest {} h
  rw [parseFrom, hread]
  cases read rest <;> rfl

end Pattern

end RegexEngine
