import RegexEngine.Pattern.Parser
import RegexEngine.Pattern.Scan

/-!
# Reading patterns in place

The readers of this module keep the whole text and a byte offset in it.  They
look ahead, cut pieces out and go back by offsets of the whole text, and the
places of errors are such offsets.

* `Scan.escape`, `Scan.charClass` and `Scan.token` read an escape, a class and a
  token.
* `Scan.pattern` reads the tokens up to the end of the text.
* `Pattern.parseFrom` reads the pattern that starts at an offset of a text.
-/

namespace RegexEngine

namespace Scan

/-! ## Numbers -/

/-- Reads a decimal number as long as it gets. -/
def decimal : Scan (Option Nat) := do
  let start ← place
  skipWhile Char.isDigit
  let digits ← since start
  return (Numeral.decimal? digits).map Prod.fst

/-- Passes hexadecimal digits of the escape at `start`. -/
def skipHex (start : Nat) : Nat → Scan Unit
  | 0 => return ()
  | count + 1 => do
    match ← peek with
    | none => fail (.badEscape start)
    | some c =>
      if (Numeral.hexDigit? c).isSome then
        let _ ← advance
        skipHex start count
      else
        fail (.badEscape start)

/-- Reads `count` hexadecimal digits of the escape at `start`. -/
def hexadecimal (count start : Nat) : Scan Nat := do
  let first ← place
  skipHex start count
  let digits ← since first
  match Numeral.hexValue? digits with
  | none => fail (.badEscape start)
  | some n => return n

/-- Reads up to the given count of octal digits after digits of value `n`. -/
def octal (n : Nat) : Nat → Scan Nat
  | 0 => return n
  | count + 1 => do
    match ← peek with
    | none => return n
    | some c =>
      if '0' ≤ c ∧ c ≤ '7' then
        let _ ← advance
        octal (8 * n + Numeral.ofDigit c) count
      else
        return n

/-! ## Escapes -/

/-- The character that the escape at `start` gives by its number. -/
def scalar (start n : Nat) : Scan Char :=
  match Numeral.scalar? n with
  | none => fail (.badEscape start)
  | some c => return c

/-- Reads up to and including the next `}`. -/
def untilBrace : Scan (List Char) := do
  let start ← place
  skipWhile (· ≠ '}')
  let body ← since start
  expect '}'
  return body

/-- Reads the name of a property in braces. -/
def property (negated : Bool) : Scan ClassAtom := do
  expect '{'
  let name ← untilBrace
  match Unicode.property? name with
  | none => fail (.unknownProperty name)
  | some members => return .set (if negated then members.compl else members)

/-- Reads the low half of a surrogate pair, written as an escape. -/
def lowSurrogate (start : Nat) : Scan (Option Nat) := do
  if ← eatText ['\\', 'u'] then
    let low ← attempt (hexadecimal 4 start)
    return low.filter fun low => 0xDC00 ≤ low && low < 0xE000
  else
    return none

/-- Reads four hexadecimal digits, and the low half of a surrogate pair if they
are the high half. -/
def utf16 (start : Nat) : Scan Char := do
  let unit ← hexadecimal 4 start
  if 0xD800 ≤ unit ∧ unit < 0xDC00 then
    match ← restoring (lowSurrogate start) with
    | none => scalar start unit
    | some low => scalar start (0x10000 + (unit - 0xD800) * 0x400 + (low - 0xDC00))
  else
    scalar start unit

/-- Reads the hexadecimal number of a character in braces, the first of which
has been read. -/
def braced (start : Nat) : Scan Char := do
  let body ← untilBrace
  match Escape.braced? body with
  | none => fail (.badEscape start)
  | some c => return c

/-- Reads what follows the `u` of the escape at `start`. -/
def unicode (start : Nat) : Scan Char := do
  if ← eat '{' then
    braced start
  else
    utf16 start

/-- Reads the character that up to two octal digits stand for. -/
def octalChar (start : Nat) : Scan Char := do
  let n ← octal 0 2
  scalar start n

/-- Reads the character that two hexadecimal digits stand for. -/
def byte (start : Nat) : Scan Char := do
  let n ← hexadecimal 2 start
  scalar start n

/-- Reads a letter with the control key held down. -/
def control (start : Nat) : Scan Char := do
  match ← advance with
  | none => fail (.badEscape start)
  | some c => if c.isAlpha then return Char.ofNat (c.toNat % 32) else fail (.badEscape start)

/-- Reads what follows a backslash. -/
def escape (inClass : Bool) : Scan ClassAtom := do
  let start ← place
  let c ← next .badEscape
  match Escape.named? inClass c with
  | some atom => return atom
  | none =>
    match c with
    | '0' => .char <$> octalChar start
    | 'c' => .char <$> control start
    | 'x' => .char <$> byte start
    | 'u' => .char <$> unicode start
    | 'p' => property false
    | 'P' => property true
    | _ => return .char c

/-! ## Classes -/

/-- Reads a character or an escape of a class. -/
def classAtom : Scan ClassAtom := do
  match ← next .unterminatedClass with
  | '\\' => escape true
  | c => return .char c

/-- Reads what follows the dash of a range that starts with `first`. -/
def classRange (first : Char) : Scan ClassItem := do
  match ← classAtom with
  | .set _ => fail (.badClassRange first '-')
  | .char last =>
    if first ≤ last then return .range first last else fail (.badClassRange first last)

/-- Whether a range goes on here: at a dash that neither ends the class nor the
text. -/
def goesOn : Scan Bool := do
  if (← peek) = some '-' then
    let second ← peekSecond
    return second ≠ some ']' && second ≠ none
  else
    return false

/-- Reads an item of a class. -/
def classItem : Scan ClassItem := do
  match ← classAtom with
  | .set members => return .set members
  | .char c =>
    if ← goesOn then
      let _ ← advance
      classRange c
    else
      return .range c c

theorem forward_decimal : Forward decimal :=
  forward_place.bind fun _ => (forward_skipWhile _).bind fun _ => (forward_since _).bind fun _ =>
    forward_pure _

theorem forward_skipHex (start count : Nat) : Forward (skipHex start count) := by
  induction count with
  | zero => exact forward_pure ()
  | succ count ih =>
    refine forward_peek.bind fun c => ?_
    split
    · exact forward_fail _
    · split
      · exact forward_advance.bind fun _ => ih
      · exact forward_fail _

theorem forward_hexadecimal (count start : Nat) : Forward (hexadecimal count start) := by
  refine forward_place.bind fun _ => (forward_skipHex _ _).bind fun _ =>
    (forward_since _).bind fun digits => ?_
  split
  · exact forward_fail _
  · exact forward_pure _

theorem forward_octal (n count : Nat) : Forward (octal n count) := by
  induction count generalizing n with
  | zero => exact forward_pure n
  | succ count ih =>
    refine forward_peek.bind fun c => ?_
    split
    · exact forward_pure n
    · split
      · exact forward_advance.bind fun _ => ih _
      · exact forward_pure n

theorem forward_scalar (start n : Nat) : Forward (scalar start n) := by
  unfold scalar
  split
  · exact forward_fail _
  · exact forward_pure _

theorem forward_untilBrace : Forward untilBrace :=
  forward_place.bind fun _ => (forward_skipWhile _).bind fun _ => (forward_since _).bind fun _ =>
    (forward_expect _).bind fun _ => forward_pure _

theorem forward_property (negated : Bool) : Forward (property negated) := by
  refine (forward_expect _).bind fun _ => forward_untilBrace.bind fun name => ?_
  split
  · exact forward_fail _
  · exact forward_pure _

theorem forward_lowSurrogate (start : Nat) : Forward (lowSurrogate start) := by
  refine (forward_eatText _).bind fun found => ?_
  split
  · exact (forward_hexadecimal _ _).attempt.bind fun _ => forward_pure _
  · exact forward_pure _

theorem forward_utf16 (start : Nat) : Forward (utf16 start) := by
  refine (forward_hexadecimal _ _).bind fun unit => ?_
  split
  · refine (forward_lowSurrogate _).restoring.bind fun low => ?_
    split <;> exact forward_scalar _ _
  · exact forward_scalar _ _

theorem forward_braced (start : Nat) : Forward (braced start) := by
  refine forward_untilBrace.bind fun body => ?_
  split
  · exact forward_fail _
  · exact forward_pure _

theorem forward_unicode (start : Nat) : Forward (unicode start) := by
  refine (forward_eat _).bind fun found => ?_
  split
  · exact forward_braced _
  · exact forward_utf16 _

theorem forward_octalChar (start : Nat) : Forward (octalChar start) :=
  (forward_octal _ _).bind fun _ => forward_scalar _ _

theorem forward_byte (start : Nat) : Forward (byte start) :=
  (forward_hexadecimal _ _).bind fun _ => forward_scalar _ _

theorem forward_control (start : Nat) : Forward (control start) := by
  refine forward_advance.bind fun c => ?_
  split
  · exact forward_fail _
  · split
    · exact forward_pure _
    · exact forward_fail _

/-- An escape passes what follows the backslash. -/
theorem strict_escape (inClass : Bool) : Strict (escape inClass) := by
  refine Strict.place_bind fun start => (strict_next _).bind fun c => ?_
  split
  · exact forward_pure _
  · split
    · exact (forward_octalChar _).map _
    · exact (forward_control _).map _
    · exact (forward_byte _).map _
    · exact (forward_unicode _).map _
    · exact forward_property _
    · exact forward_property _
    · exact forward_pure _

theorem strict_classAtom : Strict classAtom := by
  refine (strict_next _).bind fun c => ?_
  split
  · exact (strict_escape true).forward
  · exact forward_pure _

theorem forward_classRange (first : Char) : Forward (classRange first) := by
  refine strict_classAtom.forward.bind fun atom => ?_
  split
  · exact forward_fail _
  · split
    · exact forward_pure _
    · exact forward_fail _

theorem forward_goesOn : Forward goesOn := by
  refine forward_peek.bind fun c => ?_
  split
  · exact forward_peekSecond.bind fun _ => forward_pure _
  · exact forward_pure _

/-- An item of a class passes something. -/
theorem strict_classItem : Strict classItem := by
  refine strict_classAtom.bind fun atom => ?_
  split
  · exact forward_pure _
  · refine forward_goesOn.bind fun goes => ?_
    split
    · exact forward_advance.bind fun _ => forward_classRange _
    · exact forward_pure _

/-- Reads the items up to the closing bracket of the class that was opened at
`opening`. -/
def classItems (opening : Nat) : Scan (List ClassItem) :=
  fun s pos =>
    match peek s pos with
    | .error halt => .error halt
    | .ok (none, _) => .error (.error (.unterminatedClass opening))
    | .ok (some ']', _) => ((fun _ => []) <$> advance) s pos
    | .ok (some _, _) =>
      match _h : classItem s pos with
      | .error halt => .error halt
      | .ok (item, mid) =>
        match classItems opening s mid with
        | .error halt => .error halt
        | .ok (items, pos) => .ok (item :: items, pos)
termination_by s pos => s.size - pos
decreasing_by
  have := strict_classItem _h
  omega

/-- Reads the bracket or dash that may stand at the start of a class. -/
def classFirst : Scan (List ClassItem) := do
  if ← eat ']' then
    return [.range ']' ']']
  else if ← eat '-' then
    return [.range '-' '-']
  else
    return []

/-- Reads a class of which the opening bracket, at `opening`, has been read. -/
def charClass (opening : Nat) : Scan CharSet := do
  let negated ← eat '^'
  let first ← classFirst
  let items ← classItems opening
  let set := Class.members (first ++ items)
  return if negated then set.compl else set

/-! ## Quantifiers -/

/-- Reads what follows the minimum of a quantifier. -/
def maximum (min : Nat) : Scan (Option (Option Nat)) := do
  if ← eat ',' then
    if (← peek) = some '}' then
      return some none
    else
      let max ← decimal
      return max.map some
  else
    return some (some min)

/-- Reads the bounds of a quantifier after its brace.  A brace without bounds is
an ordinary character, and nothing is read. -/
def bounds : Scan (Option (Nat × Option Nat)) :=
  restoring do
    match ← decimal with
    | none => return none
    | some min =>
      match ← maximum min with
      | none => return none
      | some max => if ← eat '}' then return some (min, max) else return none

/-- Reads the mode that may follow the bounds of a quantifier. -/
def mode : Scan Mode := do
  if ← eat '?' then
    return .lazy
  else if ← eat '+' then
    return .possessive
  else
    return .greedy

/-- The quantifier with the given bounds and the mode that follows. -/
def quantified (min : Nat) (max : Option Nat) : Scan Token := do
  return .quantifier min max (← mode)

/-- Reads what follows the brace at `start`. -/
def brace (start : Nat) : Scan Token := do
  match ← bounds with
  | none => return .atom (.text ['{'])
  | some (min, max) =>
    if max.any (· < min) then fail (.badRepetition start) else quantified min max

/-! ## Groups -/

/-- Reads the name of a group up to and including the `>`. -/
def name : Scan String := do
  let start ← place
  skipWhile Token.isNameChar
  let name ← since start
  if name = [] then
    fail (.badGroup start)
  else
    expect '>'
    return .ofList name

/-- Reads flags up to and including the colon.  They are set before a dash and
cleared after it. -/
def flags (on : Bool) (set : FlagOverride) : Scan FlagOverride :=
  fun s pos =>
    match _h : next .badGroup s pos with
    | .error halt => .error halt
    | .ok (':', mid) => .ok (set, mid)
    | .ok ('i', mid) => flags on { set with ignoreCase := some on } s mid
    | .ok ('m', mid) => flags on { set with multiline := some on } s mid
    | .ok ('s', mid) => flags on { set with dotAll := some on } s mid
    | .ok ('-', mid) => if on then flags false set s mid else .error (.error (.badGroup pos))
    | .ok _ => .error (.error (.badGroup pos))
termination_by s pos => s.size - pos
decreasing_by
  all_goals
    have := strict_next _ _h
    omega

/-- Reads the kind of a group after its parenthesis. -/
def kind : Scan GroupKind := do
  if ← eat '?' then
    if ← eat ':' then
      return .withFlags {}
    else if ← eat '=' then
      return .lookAround .ahead false
    else if ← eat '!' then
      return .lookAround .ahead true
    else if ← eatText ['<', '='] then
      return .lookAround .behind false
    else if ← eatText ['<', '!'] then
      return .lookAround .behind true
    else if ← eat '>' then
      return .atomic
    else if ← eat '<' then
      return .capture (some (← name))
    else
      return .withFlags (← flags true {})
  else
    return .capture none

/-! ## Tokens -/

/-- Reads an escape outside a class that stands for characters. -/
def plainEscape : Scan Pattern := do
  match ← escape false with
  | .char c => return .text [c]
  | .set members => return .oneOf members

/-- Reads what follows a backslash outside a class. -/
def outerEscape : Scan Pattern := do
  match ← peek with
  | none => plainEscape
  | some c =>
    match c with
    | 'b' =>
      let _ ← advance
      return .assert .wordBoundary
    | 'B' =>
      let _ ← advance
      return .assert .notWordBoundary
    | 'k' =>
      if (← peekSecond) = some '<' then
        let _ ← advance
        let _ ← advance
        return .reference (.name (← name))
      else
        plainEscape
    | c =>
      if c.isDigit && c ≠ '0' then
        let start ← place
        match ← decimal with
        | none => fail (.badEscape start)
        | some n => return .reference (.index n)
      else
        plainEscape

/-- Reads the token that starts with `c`, which stands at `start`. -/
def token (start : Nat) (c : Char) : Scan Token := do
  match c with
  | '(' => return .opening (← kind)
  | ')' => return .close
  | '|' => return .bar
  | '*' => quantified 0 none
  | '+' => quantified 1 none
  | '?' => quantified 0 (some 1)
  | '{' => brace start
  | '[' => return .atom (.oneOf (← charClass start))
  | '\\' => return .atom (← outerEscape)
  | '.' => return .atom .any
  | '^' => return .atom (.assert .inputStart)
  | '$' => return .atom (.assert .inputEnd)
  | c => return .atom (.text [c])

theorem forward_classItems (opening : Nat) : Forward (classItems opening) := by
  intro s pos items pos' h
  fun_induction classItems opening s pos generalizing items pos' with
  | case1 | case2 | case4 | case5 => cases h
  | case3 => exact forward_advance.map _ h
  | case6 pos _ _ _ _ item mid hitem items' last htail ih =>
    obtain ⟨-, rfl⟩ := ok_inj h
    exact Nat.le_trans (strict_classItem.forward hitem) (ih htail)

theorem forward_classFirst : Forward classFirst := by
  refine (forward_eat _).bind fun found => ?_
  split
  · exact forward_pure _
  · refine (forward_eat _).bind fun found => ?_
    split <;> exact forward_pure _

theorem forward_charClass (opening : Nat) : Forward (charClass opening) :=
  (forward_eat _).bind fun _ => forward_classFirst.bind fun _ =>
    (forward_classItems _).bind fun _ => forward_pure _

theorem forward_maximum (min : Nat) : Forward (maximum min) := by
  refine (forward_eat _).bind fun found => ?_
  split
  · refine forward_peek.bind fun c => ?_
    split
    · exact forward_pure _
    · exact forward_decimal.bind fun _ => forward_pure _
  · exact forward_pure _

theorem forward_bounds : Forward bounds := by
  refine Forward.restoring (forward_decimal.bind fun min => ?_)
  split
  · exact forward_pure _
  · refine (forward_maximum _).bind fun max => ?_
    split
    · exact forward_pure _
    · refine (forward_eat _).bind fun found => ?_
      split <;> exact forward_pure _

theorem forward_mode : Forward mode := by
  refine (forward_eat _).bind fun found => ?_
  split
  · exact forward_pure _
  · refine (forward_eat _).bind fun found => ?_
    split <;> exact forward_pure _

theorem forward_quantified (min : Nat) (max : Option Nat) : Forward (quantified min max) :=
  forward_mode.bind fun _ => forward_pure _

theorem forward_brace (start : Nat) : Forward (brace start) := by
  refine forward_bounds.bind fun bounds => ?_
  split
  · exact forward_pure _
  · split
    · exact forward_fail _
    · exact forward_quantified _ _

theorem forward_name : Forward name := by
  refine forward_place.bind fun _ => (forward_skipWhile _).bind fun _ =>
    (forward_since _).bind fun name => ?_
  split
  · exact forward_fail _
  · exact (forward_expect _).bind fun _ => forward_pure _

theorem forward_flags (on : Bool) (set : FlagOverride) : Forward (flags on set) := by
  intro s pos result pos' h
  fun_induction flags on set s pos with
  | case1 | case7 | case8 => cases h
  | case2 _ _ _ mid hnext =>
    obtain ⟨-, rfl⟩ := ok_inj h
    exact (strict_next _).forward hnext
  | case3 _ _ _ mid hnext ih | case4 _ _ _ mid hnext ih | case5 _ _ _ mid hnext ih
  | case6 _ _ mid hnext ih =>
    exact Nat.le_trans ((strict_next _).forward hnext) (ih h)

theorem forward_kind : Forward kind := by
  refine (forward_eat _).bind fun found => ?_
  split
  · iterate 3
      refine (forward_eat _).bind fun found => ?_
      split
      · exact forward_pure _
    iterate 2
      refine (forward_eatText _).bind fun found => ?_
      split
      · exact forward_pure _
    refine (forward_eat _).bind fun found => ?_
    split
    · exact forward_pure _
    · refine (forward_eat _).bind fun found => ?_
      split
      · exact forward_name.bind fun _ => forward_pure _
      · exact (forward_flags _ _).bind fun _ => forward_pure _
  · exact forward_pure _

theorem forward_plainEscape : Forward plainEscape := by
  refine (strict_escape false).forward.bind fun atom => ?_
  split <;> exact forward_pure _

theorem forward_outerEscape : Forward outerEscape := by
  refine forward_peek.bind fun c => ?_
  split
  · exact forward_plainEscape
  · split
    · exact forward_advance.bind fun _ => forward_pure _
    · exact forward_advance.bind fun _ => forward_pure _
    · refine forward_peekSecond.bind fun second => ?_
      split
      · exact forward_advance.bind fun _ => forward_advance.bind fun _ => forward_name.bind fun _ =>
          forward_pure _
      · exact forward_plainEscape
    · split
      · refine forward_place.bind fun start => forward_decimal.bind fun n => ?_
        split
        · exact forward_fail _
        · exact forward_pure _
      · exact forward_plainEscape

/-- What is read of a token stands behind its first character. -/
theorem forward_token (start : Nat) (c : Char) : Forward (token start c) := by
  unfold token
  split
  · exact forward_kind.bind fun _ => forward_pure _
  · exact forward_pure _
  · exact forward_pure _
  · exact forward_quantified _ _
  · exact forward_quantified _ _
  · exact forward_quantified _ _
  · exact forward_brace _
  · exact (forward_charClass _).bind fun _ => forward_pure _
  · exact forward_outerEscape.bind fun _ => forward_pure _
  all_goals exact forward_pure _

/-! ## Whole patterns -/

/-- Reads tokens up to the end of the text. -/
def pattern (p : Partial Nat) : Scan Pattern :=
  fun s pos =>
    match _h : advance s pos with
    | .error halt => .error halt
    | .ok (none, _) =>
      match p.finish with
      | .error e => .error (.error e)
      | .ok pattern => .ok (pattern, pos)
    | .ok (some c, mid) =>
      match _htoken : token pos c s mid with
      | .error halt => .error halt
      | .ok (token, rest) =>
        match p.add pos token with
        | .error e => .error (.error e)
        | .ok p => pattern p s rest
termination_by s pos => s.size - pos
decreasing_by
  have := lt_of_advance _h
  have := forward_token _ _ _htoken
  omega

end Scan

/-- Reads the pattern that starts at a byte offset of a text.  The places of
errors are offsets in the whole text. -/
def Pattern.parseFrom (text : List Char) (start : Nat) :
    Except Fault (Except (ParseError Nat) Pattern) :=
  match Scan.pattern {} (Subject.ofList text) start with
  | .ok (pattern, _) => .ok (.ok pattern)
  | .error (.error e) => .ok (.error e)
  | .error (.fault fault) => .error fault

end RegexEngine
