import RegexEngine.Proofs.Parsing.Escapes

/-!
# The grammar of classes

How the text of a class is made, without a reader.  A class is what stands between the brackets:
a `^` or none, a bracket or dash that stands for itself or none, and items up to the bracket that
closes the class.  An item is an escape that stands for a set, a range, or a character that no
range starts with.  The escapes are listed with what they stand for.

Each relation of the grammar holds just of what the function of the same part reads.
`read_iff` is the statement about a whole class, and `Spells.unique` says that a text has only
one reading.
-/

namespace RegexEngine.Class

open Numeral (Hexadecimal)

/-! ## The grammar -/

/-- The characters that have a meaning of their own behind a backslash. -/
def escapeLetters : List Char :=
  ['d', 'D', 'w', 'W', 's', 'S', 'b', 't', 'n', 'v', 'f', 'r', '0', 'c', 'x', 'u', 'p', 'P']

/-- What stands behind a backslash starts with an escape, and the second text follows. -/
inductive EscapeAt : List Char → ClassAtom → List Char → Prop where
  /-- The digits. -/
  | digit {rest : List Char} : EscapeAt ('d' :: rest) (.set .digit) rest
  /-- All characters but the digits. -/
  | notDigit {rest : List Char} : EscapeAt ('D' :: rest) (.set CharSet.digit.compl) rest
  /-- The word characters. -/
  | word {rest : List Char} : EscapeAt ('w' :: rest) (.set .word) rest
  /-- All characters but the word characters. -/
  | notWord {rest : List Char} : EscapeAt ('W' :: rest) (.set CharSet.word.compl) rest
  /-- White space. -/
  | whitespace {rest : List Char} : EscapeAt ('s' :: rest) (.set .whitespace) rest
  /-- All characters but white space. -/
  | notWhitespace {rest : List Char} : EscapeAt ('S' :: rest) (.set CharSet.whitespace.compl) rest
  /-- A backspace. -/
  | backspace {rest : List Char} : EscapeAt ('b' :: rest) (.char '\x08') rest
  /-- A tab. -/
  | tab {rest : List Char} : EscapeAt ('t' :: rest) (.char '\t') rest
  /-- A line feed. -/
  | lineFeed {rest : List Char} : EscapeAt ('n' :: rest) (.char '\n') rest
  /-- A vertical tab. -/
  | verticalTab {rest : List Char} : EscapeAt ('v' :: rest) (.char '\x0b') rest
  /-- A form feed. -/
  | formFeed {rest : List Char} : EscapeAt ('f' :: rest) (.char '\x0c') rest
  /-- A carriage return. -/
  | carriageReturn {rest : List Char} : EscapeAt ('r' :: rest) (.char '\r') rest
  /-- The number of a character in octal digits behind a zero. -/
  | octal {s rest : List Char} {c : Char} (h : Numeral.OctalAt s c.toNat rest) :
      EscapeAt ('0' :: s) (.char c) rest
  /-- A letter with the control key held down. -/
  | control {letter c : Char} {rest : List Char} (hletter : letter.isAlpha)
      (hc : c.toNat = letter.toNat % 32) : EscapeAt ('c' :: letter :: rest) (.char c) rest
  /-- The number of a character in two hexadecimal digits. -/
  | byte {digits rest : List Char} {c : Char} (hlength : digits.length = 2)
      (hdigits : Hexadecimal digits c.toNat) : EscapeAt ('x' :: (digits ++ rest)) (.char c) rest
  /-- The number of a character in four hexadecimal digits. -/
  | unit {digits rest : List Char} {c : Char} (hlength : digits.length = 4)
      (hdigits : Hexadecimal digits c.toNat) : EscapeAt ('u' :: (digits ++ rest)) (.char c) rest
  /-- The two halves of a surrogate pair. -/
  | pair {first second rest : List Char} {high low : Nat} {c : Char} (hfirst : first.length = 4)
      (hsecond : second.length = 4) (hhigh : Hexadecimal first high) (hlow : Hexadecimal second low)
      (hishigh : Escape.IsHighSurrogate high) (hislow : Escape.IsLowSurrogate low)
      (hc : c.toNat = Escape.supplementary high low) :
      EscapeAt ('u' :: (first ++ '\\' :: 'u' :: (second ++ rest))) (.char c) rest
  /-- The number of a character in braces. -/
  | braced {body rest : List Char} {c : Char} (hbody : '}' ∉ body) (hc : Escape.Numbers body c) :
      EscapeAt ('u' :: '{' :: (body ++ '}' :: rest)) (.char c) rest
  /-- The characters that have a property. -/
  | property {name rest : List Char} {members : CharSet} (hname : '}' ∉ name)
      (hmembers : Unicode.property? name = some members) :
      EscapeAt ('p' :: '{' :: (name ++ '}' :: rest)) (.set members) rest
  /-- The characters that do not have a property. -/
  | notProperty {name rest : List Char} {members : CharSet} (hname : '}' ∉ name)
      (hmembers : Unicode.property? name = some members) :
      EscapeAt ('P' :: '{' :: (name ++ '}' :: rest)) (.set members.compl) rest
  /-- Any other character stands for itself. -/
  | itself {c : Char} {rest : List Char} (hc : c ∉ escapeLetters) :
      EscapeAt (c :: rest) (.char c) rest

/-- The text starts with a character or an escape, and the second text follows. -/
inductive AtomAt : List Char → ClassAtom → List Char → Prop where
  /-- A character but the backslash stands for itself. -/
  | char {c : Char} {rest : List Char} (hc : c ≠ '\\') : AtomAt (c :: rest) (.char c) rest
  /-- A backslash starts an escape. -/
  | escape {s rest : List Char} {atom : ClassAtom} (h : EscapeAt s atom rest) :
      AtomAt ('\\' :: s) atom rest

/-- The text starts with an item. -/
inductive ItemAt : List Char → ClassItem → List Char → Prop where
  /-- An escape that stands for a set. -/
  | set {s rest : List Char} {members : CharSet} (h : AtomAt s (.set members) rest) :
      ItemAt s (.set members) rest
  /-- Two characters in order, with a dash between them. -/
  | range {s mid rest : List Char} {first last : Char}
      (hfirst : AtomAt s (.char first) ('-' :: mid))
      (hmid : mid.head? ≠ some ']') (hlast : AtomAt mid (.char last) rest) (hle : first ≤ last) :
      ItemAt s (.range first last) rest
  /-- One character.  A dash after it is not that of a range if it is the last character of the
  class or of the text. -/
  | char {s rest : List Char} {c : Char} (h : AtomAt s (.char c) rest)
      (hdash : ∀ tail, rest = '-' :: tail → tail = [] ∨ tail.head? = some ']') :
      ItemAt s (.range c c) rest

/-- The text starts with items and the bracket that closes the class. -/
inductive ItemsAt : List Char → List ClassItem → List Char → Prop where
  /-- The closing bracket. -/
  | close {rest : List Char} : ItemsAt (']' :: rest) [] rest
  /-- An item and what follows it. -/
  | item {s mid rest : List Char} {item : ClassItem} {items : List ClassItem}
      (hs : s.head? ≠ some ']') (hitem : ItemAt s item mid) (hitems : ItemsAt mid items rest) :
      ItemsAt s (item :: items) rest

/-- The text starts with all that a class lists and the closing bracket. -/
inductive BodyAt : List Char → List ClassItem → List Char → Prop where
  /-- A bracket or dash at the start stands for itself. -/
  | literal {s rest : List Char} {c : Char} {items : List ClassItem} (hc : c = ']' ∨ c = '-')
      (h : ItemsAt s items rest) : BodyAt (c :: s) (.range c c :: items) rest
  /-- Any other start is that of an item. -/
  | items {s rest : List Char} {items : List ClassItem}
      (hs : s.head? ≠ some ']' ∧ s.head? ≠ some '-') (h : ItemsAt s items rest) :
      BodyAt s items rest

/-- The text of a class after its opening bracket.  The class lists the items, and the flag says
whether it stands for all other characters. -/
inductive Spells : List Char → Bool → List ClassItem → Prop where
  /-- The characters that are not listed. -/
  | negated {s : List Char} {items : List ClassItem} (h : BodyAt s items []) :
      Spells ('^' :: s) true items
  /-- The characters that are listed. -/
  | plain {s : List Char} {items : List ClassItem} (hs : s.head? ≠ some '^')
      (h : BodyAt s items []) :
      Spells s false items

variable {s rest : List Char}

theorem AtomAt.ne_nil {atom : ClassAtom} (h : AtomAt s atom rest) : s ≠ [] := by
  cases h <;> simp

theorem ItemAt.ne_nil {item : ClassItem} (h : ItemAt s item rest) : s ≠ [] := by
  cases h with
  | set h | char h _ => exact h.ne_nil
  | range hfirst _ _ _ => exact hfirst.ne_nil

/-- With a `^` in front, the class stands for all other characters. -/
theorem Spells.negate {items : List ClassItem} (h : Spells s false items) :
    Spells ('^' :: s) true items := by
  cases h with
  | plain _ hbody => exact .negated hbody

theorem Spells.eq_false {negated : Bool} {items : List ClassItem} (h : Spells s negated items)
    (hs : s.head? ≠ some '^') : negated = false := by
  cases h with
  | negated => exact absurd rfl hs
  | plain => rfl

/-! ## What is read -/

/-- A letter that stands for something stands for what the grammar says. -/
theorem escapeAt_of_named? {c : Char} {atom : ClassAtom} (h : Escape.named? true c = some atom)
    (rest : List Char) : EscapeAt (c :: rest) atom rest := by
  unfold Escape.named? at h
  split at h
  · cases h; exact .digit
  · cases h; exact .notDigit
  · cases h; exact .word
  · cases h; exact .notWord
  · cases h; exact .whitespace
  · cases h; exact .notWhitespace
  · cases h; exact .backspace
  · cases h; exact .tab
  · cases h; exact .lineFeed
  · cases h; exact .verticalTab
  · cases h; exact .formFeed
  · cases h; exact .carriageReturn
  · cases h

/-- The set of a property that is named in braces. -/
theorem property_eq_ok_iff {negated : Bool} {atom : ClassAtom} :
    Escape.property negated s = .ok (atom, rest) ↔
      ∃ name members, s = '{' :: (name ++ '}' :: rest) ∧ '}' ∉ name ∧
        Unicode.property? name = some members ∧
        atom = .set (if negated then members.compl else members) := by
  constructor
  · intro h
    unfold Escape.property at h
    split at h
    · next s =>
      cases hname : Escape.untilBrace s with
      | error e => simp [hname] at h
      | ok result =>
        obtain ⟨name, tail⟩ := result
        obtain ⟨rfl, hbrace⟩ := Escape.eq_of_untilBrace hname
        rw [hname] at h
        cases hmembers : Unicode.property? name with
        | none => simp [hmembers] at h
        | some members =>
          simp only [hmembers, Except.ok.injEq, Prod.mk.injEq] at h
          obtain ⟨rfl, rfl⟩ := h
          exact ⟨name, members, rfl, hbrace, hmembers, rfl⟩
    · cases h
  · rintro ⟨name, members, rfl, hbrace, hmembers, rfl⟩
    simp only [Escape.property, Escape.untilBrace_append hbrace, hmembers]

theorem numbered_eq_ok_iff {start : List Char} {read : Option (Char × List Char)}
    {atom : ClassAtom} :
    Escape.numbered start read = .ok (atom, rest) ↔ ∃ c, read = some (c, rest) ∧
      atom = .char c := by
  cases read with
  | none => simp [Escape.numbered]
  | some result =>
    obtain ⟨c, tail⟩ := result
    simp only [Escape.numbered, Except.ok.injEq, Prod.mk.injEq, Option.some.injEq]
    constructor
    · rintro ⟨rfl, rfl⟩
      exact ⟨c, ⟨rfl, rfl⟩, rfl⟩
    · rintro ⟨_, ⟨rfl, rfl⟩, rfl⟩
      exact ⟨rfl, rfl⟩

/-- The letters with a meaning after a backslash are named, or lead a number or a property. -/
theorem named?_isSome_or_mem :
    ∀ c ∈ escapeLetters, (Escape.named? true c).isSome ∨ c ∈ ['0', 'c', 'x', 'u', 'p', 'P'] := by
  simp [escapeLetters, Escape.named?]

/-- A number in braces. -/
theorem escapeAt_of_braced {body start : List Char} {atom : ClassAtom}
    (h : (match Escape.untilBrace body with
      | .error e => (.error e : Reading ClassAtom)
      | .ok (digits, rest) =>
        Escape.numbered start ((Escape.braced? digits).map (·, rest))) = .ok (atom, rest)) :
    EscapeAt ('u' :: '{' :: body) atom rest := by
  cases hbody : Escape.untilBrace body with
  | error e => simp [hbody] at h
  | ok result =>
    obtain ⟨digits, tail⟩ := result
    obtain ⟨rfl, hbrace⟩ := Escape.eq_of_untilBrace hbody
    simp only [hbody] at h
    obtain ⟨c, hread, rfl⟩ := numbered_eq_ok_iff.1 h
    obtain ⟨c', hc, heq⟩ := Option.map_eq_some_iff.1 hread
    cases heq
    exact .braced hbrace (Escape.braced?_eq_some_iff.1 hc)

theorem escapeAt_of_read {atom : ClassAtom} (h : Escape.read true s = .ok (atom, rest)) :
    EscapeAt s atom rest := by
  unfold Escape.read at h
  split at h
  · cases h
  · next c s =>
    split at h
    · next hnamed =>
      cases h
      exact escapeAt_of_named? hnamed _
    · next hnamed =>
      split at h
      · cases h
        refine .octal ?_
        have hoctal : Numeral.OctalAt s (Numeral.octal 2 s).1 (Numeral.octal 2 s).2 :=
          Numeral.octal_eq_iff.1 rfl
        have hlt := hoctal.lt
        rwa [Scalar.toNat_ofNat (by unfold Nat.isValidChar; omega)]
      · obtain ⟨c, hread, rfl⟩ := numbered_eq_ok_iff.1 h
        obtain ⟨letter, rfl, hletter, hc⟩ := Escape.control?_eq_some_iff.1 hread
        exact .control hletter hc
      · obtain ⟨c, hread, rfl⟩ := numbered_eq_ok_iff.1 h
        obtain ⟨digits, rfl, hlength, hdigits⟩ := Escape.byte?_eq_some_iff.1 hread
        exact .byte hlength hdigits
      · split at h
        · exact escapeAt_of_braced h
        · obtain ⟨c, hread, rfl⟩ := numbered_eq_ok_iff.1 h
          rcases Escape.utf16?_eq_some_iff.1 hread with ⟨digits, rfl, hlength, hdigits⟩ |
            ⟨first, second, high, low, rfl, hfirst, hsecond, hhigh, hlow, hishigh, hislow, hc⟩
          · exact .unit hlength hdigits
          · exact .pair hfirst hsecond hhigh hlow hishigh hislow hc
      · obtain ⟨name, members, rfl, hname, hmembers, rfl⟩ := property_eq_ok_iff.1 h
        exact .property hname hmembers
      · obtain ⟨name, members, rfl, hname, hmembers, rfl⟩ := property_eq_ok_iff.1 h
        exact .notProperty hname hmembers
      · cases h
        refine .itself fun hmem => ?_
        -- `hnamed` and the letters that have been passed over leave no letter with a meaning
        have hleft := named?_isSome_or_mem c hmem
        simp_all

theorem read_of_escapeAt {atom : ClassAtom} (h : EscapeAt s atom rest) :
    Escape.read true s = .ok (atom, rest) := by
  have hbrace : Numeral.hexDigit? '{' = none := rfl
  cases h with
  | digit | notDigit | word | notWord | whitespace | notWhitespace | backspace | tab | lineFeed
  | verticalTab | formFeed | carriageReturn => rfl
  | @octal s _ c h =>
    have hoctal := Numeral.octal_eq_iff.2 h
    show Except.ok (ClassAtom.char (Char.ofNat (Numeral.octal 2 s).1), (Numeral.octal 2 s).2) = _
    rw [hoctal, Char.ofNat_toNat]
  | control hletter hc =>
    exact numbered_eq_ok_iff.2 ⟨_, Escape.control?_eq_some_iff.2 ⟨_, rfl, hletter, hc⟩, rfl⟩
  | byte hlength hdigits =>
    rw [Escape.read_byte]
    exact numbered_eq_ok_iff.2 ⟨_, Escape.byte?_eq_some_iff.2 ⟨_, rfl, hlength, hdigits⟩, rfl⟩
  | unit hlength hdigits =>
    rw [Escape.read_unit true (hdigits.append_ne_cons hbrace rest)]
    exact numbered_eq_ok_iff.2
      ⟨_, Escape.utf16?_eq_some_iff.2 (.inl ⟨_, rfl, hlength, hdigits⟩), rfl⟩
  | pair hfirst hsecond hhigh hlow hishigh hislow hc =>
    rw [Escape.read_unit true (hhigh.append_ne_cons hbrace _)]
    exact numbered_eq_ok_iff.2
      ⟨_, Escape.utf16?_eq_some_iff.2 (.inr ⟨_, _, _, _, rfl, hfirst, hsecond,
      hhigh, hlow, hishigh, hislow, hc⟩), rfl⟩
  | braced hbody hc =>
    rw [Escape.read_braced true hbody, Escape.braced?_eq_some_iff.2 hc]
    rfl
  | property hname hmembers =>
    exact property_eq_ok_iff.2 ⟨_, _, rfl, hname, hmembers, rfl⟩
  | notProperty hname hmembers =>
    exact property_eq_ok_iff.2 ⟨_, _, rfl, hname, hmembers, rfl⟩
  | @itself c _ hc =>
    have hne (d : Char) (hd : d ∈ escapeLetters) : c ≠ d := fun heq => hc (heq ▸ hd)
    have hnamed : Escape.named? true c = none := by
      unfold Escape.named?
      split <;> first | rfl | exact absurd rfl (hne _ (by decide))
    rw [Escape.read, hnamed] <;> exact hne _ (by decide)

/-- An escape of the grammar is one that is read. -/
theorem read_escape_iff {atom : ClassAtom} :
    Escape.read true s = .ok (atom, rest) ↔ EscapeAt s atom rest :=
  ⟨escapeAt_of_read, read_of_escapeAt⟩

theorem readAtom_iff {atom : ClassAtom} : readAtom s = .ok (atom, rest) ↔ AtomAt s atom rest := by
  constructor
  · intro h
    unfold readAtom at h
    split at h
    · cases h
    · exact .escape (read_escape_iff.1 h)
    · rename_i c tail hc
      simp only [Except.ok.injEq, Prod.mk.injEq] at h
      obtain ⟨rfl, rfl⟩ := h
      exact .char hc
  · intro h
    cases h with
    | char hc =>
      unfold readAtom
      split
      · rename_i heq
        cases heq
      · rename_i heq
        exact absurd (List.cons.inj heq).1 hc
      · rename_i heq
        obtain ⟨rfl, rfl⟩ := List.cons.inj heq
        rfl
    | escape h => exact read_escape_iff.2 h

theorem afterDash?_eq_some_iff {tail : List Char} :
    afterDash? s = some tail ↔ s = '-' :: tail ∧ tail ≠ [] ∧ tail.head? ≠ some ']' := by
  unfold afterDash?
  split
  · simp only [Option.ite_none_left_eq_some, Option.some.injEq, List.cons.injEq, true_and]
    constructor
    · rintro ⟨hc, rfl⟩
      exact ⟨rfl, by simp, by simpa using hc⟩
    · rintro ⟨rfl, _, hc⟩
      exact ⟨by simpa using hc, rfl⟩
  · rename_i hs
    simp only [reduceCtorEq, false_iff, not_and]
    rintro rfl hne
    obtain ⟨c, tail', rfl⟩ := List.exists_cons_of_ne_nil hne
    exact absurd rfl (hs c tail')

theorem afterDash?_eq_none_iff :
    afterDash? s = none ↔ ∀ tail, s = '-' :: tail → tail = [] ∨ tail.head? = some ']' := by
  rw [Option.eq_none_iff_forall_ne_some]
  refine forall_congr' fun tail => ?_
  rw [Ne, afterDash?_eq_some_iff, not_and]
  refine imp_congr_right fun _ => ?_
  rw [Decidable.not_and_iff_not_or_not, Decidable.not_not, Decidable.not_not]

theorem readRange_iff {first : Char} {item : ClassItem} :
    readRange first s = .ok (item, rest) ↔
      ∃ last, AtomAt s (.char last) rest ∧ first ≤ last ∧ item = .range first last := by
  unfold readRange
  simp only [← readAtom_iff]
  split
  · rename_i heq
    simp [heq]
  · rename_i heq
    simp [heq]
  · rename_i last tail heq
    rw [heq]
    simp only [Except.ok.injEq, Prod.mk.injEq, ClassAtom.char.injEq]
    split
    · rename_i hle
      simp only [Except.ok.injEq, Prod.mk.injEq]
      constructor
      · rintro ⟨rfl, rfl⟩
        exact ⟨last, ⟨rfl, rfl⟩, hle, rfl⟩
      · rintro ⟨_, ⟨rfl, rfl⟩, _, rfl⟩
        exact ⟨rfl, rfl⟩
    · rename_i hle
      simp only [reduceCtorEq, false_iff, not_exists, not_and]
      rintro _ ⟨rfl, rfl⟩ hle'
      exact absurd hle' hle

theorem readItem_iff {item : ClassItem} : readItem s = .ok (item, rest) ↔ ItemAt s item rest := by
  constructor
  · intro h
    unfold readItem at h
    split at h
    · cases h
    · rename_i hatom
      simp only [Except.ok.injEq, Prod.mk.injEq] at h
      obtain ⟨rfl, rfl⟩ := h
      exact .set (readAtom_iff.1 hatom)
    · rename_i hatom
      split at h
      · rename_i hdash
        obtain ⟨rfl, _, hmid⟩ := afterDash?_eq_some_iff.1 hdash
        obtain ⟨last, hlast, hle, rfl⟩ := readRange_iff.1 h
        exact .range (readAtom_iff.1 hatom) hmid hlast hle
      · rename_i hdash
        simp only [Except.ok.injEq, Prod.mk.injEq] at h
        obtain ⟨rfl, rfl⟩ := h
        exact .char (readAtom_iff.1 hatom) (afterDash?_eq_none_iff.1 hdash)
  · intro h
    unfold readItem
    cases h with
    | set h => rw [readAtom_iff.2 h]
    | range hfirst hmid hlast hle =>
      have hdash := afterDash?_eq_some_iff.2 ⟨rfl, hlast.ne_nil, hmid⟩
      rw [readAtom_iff.2 hfirst]
      dsimp only
      rw [hdash]
      exact readRange_iff.2 ⟨_, hlast, hle, rfl⟩
    | char h hdash =>
      rw [readAtom_iff.2 h]
      dsimp only
      rw [afterDash?_eq_none_iff.2 hdash]

theorem readItems_iff (opening : List Char) {items : List ClassItem} :
    readItems opening s = .ok (items, rest) ↔ ItemsAt s items rest := by
  constructor
  · intro h
    fun_induction readItems opening s generalizing items rest with
    | case1 => cases h
    | case2 =>
      simp only [Except.ok.injEq, Prod.mk.injEq] at h
      obtain ⟨rfl, rfl⟩ := h
      exact .close
    | case3 => cases h
    | case4 => cases h
    | case5 c s hc item mid hitem items' tail htail ih =>
      simp only [Except.ok.injEq, Prod.mk.injEq] at h
      obtain ⟨rfl, rfl⟩ := h
      exact .item (by simpa using hc) (readItem_iff.1 hitem) (ih htail)
  · intro h
    induction h with
    | close => rw [readItems]
    | item hs hitem hitems ih =>
      obtain ⟨c, tail, rfl⟩ := List.exists_cons_of_ne_nil hitem.ne_nil
      exact readItems_cons (by simpa using hs) (readItem_iff.2 hitem) ih

theorem bodyAt_iff {items : List ClassItem} :
    BodyAt s items rest ↔
      ∃ later, ItemsAt (readFirst s).2 later rest ∧ items = (readFirst s).1 ++ later := by
  constructor
  · intro h
    cases h with
    | literal hc h => rcases hc with rfl | rfl <;> exact ⟨_, h, rfl⟩
    | items hs h =>
      have hfirst : readFirst s = ([], s) := by
        unfold readFirst
        split
        · simp at hs
        · simp at hs
        · rfl
      rw [hfirst]
      exact ⟨items, h, rfl⟩
  · rintro ⟨later, h, rfl⟩
    unfold readFirst at h ⊢
    split at h
    · exact .literal (.inl rfl) h
    · exact .literal (.inr rfl) h
    · rename_i hbracket hdash
      refine .items ⟨?_, ?_⟩ h
      · rw [Ne, List.head?_eq_some_iff]
        exact fun ⟨tail, heq⟩ => hbracket tail heq
      · rw [Ne, List.head?_eq_some_iff]
        exact fun ⟨tail, heq⟩ => hdash tail heq

theorem spells_iff {negated : Bool} {items : List ClassItem} :
    Spells s negated items ↔
      negated = (readNegation s).1 ∧ BodyAt (readNegation s).2 items [] := by
  constructor
  · intro h
    cases h with
    | negated h => exact ⟨rfl, h⟩
    | plain hs h =>
      have hnegation : readNegation s = (false, s) := by
        unfold readNegation
        split
        · simp at hs
        · rfl
      rw [hnegation]
      exact ⟨rfl, h⟩
  · rintro ⟨rfl, h⟩
    unfold readNegation at h ⊢
    split at h
    · exact .negated h
    · rename_i hcaret
      refine .plain ?_ h
      rw [Ne, List.head?_eq_some_iff]
      exact fun ⟨tail, heq⟩ => hcaret tail heq

/-- The characters of a class that lists the items. -/
def denoted (negated : Bool) (items : List ClassItem) : CharSet :=
  if negated then (members items).compl else members items

/-- A class that uses up the text is one that the text spells. -/
theorem read_iff (opening : List Char) {set : CharSet} :
    read opening s = .ok (set, []) ↔
      ∃ negated items, Spells s negated items ∧ set = denoted negated items := by
  simp only [spells_iff, bodyAt_iff, ← readItems_iff opening]
  unfold read
  dsimp only
  split
  · rename_i heq
    simp [heq]
  · rename_i later tail heq
    simp only [heq, Except.ok.injEq, Prod.mk.injEq]
    constructor
    · rintro ⟨rfl, rfl⟩
      exact ⟨_, _, ⟨rfl, later, ⟨rfl, rfl⟩, rfl⟩, rfl⟩
    · rintro ⟨_, _, ⟨rfl, _, ⟨rfl, rfl⟩, rfl⟩, rfl⟩
      exact ⟨rfl, rfl⟩

/-- A text has only one reading. -/
theorem Spells.unique {negated negated' : Bool} {items items' : List ClassItem}
    (h : Spells s negated items) (h' : Spells s negated' items') :
      negated = negated' ∧ items = items' := by
  obtain ⟨rfl, hbody⟩ := spells_iff.1 h
  obtain ⟨rfl, hbody'⟩ := spells_iff.1 h'
  obtain ⟨later, hlater, rfl⟩ := bodyAt_iff.1 hbody
  obtain ⟨later', hlater', rfl⟩ := bodyAt_iff.1 hbody'
  have hsame := ((readItems_iff []).2 hlater).symm.trans ((readItems_iff []).2 hlater')
  simp only [Except.ok.injEq, Prod.mk.injEq, and_true] at hsame
  exact ⟨rfl, by rw [hsame]⟩

end RegexEngine.Class
