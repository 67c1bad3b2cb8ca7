import RegexEngine.Pattern.Basic
import RegexEngine.Pattern.Class

/-!
# Tokens of pattern texts

A token is the least piece of a pattern text that has a meaning of its own: an
atom, a quantifier, the opening of a group, `|` or `)`.  `Token.read` reads the
token at the start of a text.
-/

namespace RegexEngine

/-- What a group does with its part. -/
inductive GroupKind where
  /-- Records it. -/
  | capture (name : Option String)
  /-- Changes the options of it. -/
  | withFlags (flags : FlagOverride)
  /-- Looks whether it matches. -/
  | lookAround (direction : Direction) (negated : Bool)
  /-- Tries only its first match. -/
  | atomic
deriving DecidableEq, Repr

/-- The group with the given part. -/
def GroupKind.group : GroupKind → Pattern → Pattern
  | capture name, body => .capture name body
  | withFlags flags, body => .withFlags flags body
  | lookAround direction negated, body => .lookAround direction negated body
  | atomic, body => .atomic body

/-- A piece of a pattern text. -/
inductive Token where
  /-- Something that a quantifier can apply to. -/
  | atom (pattern : Pattern)
  /-- A quantifier. -/
  | quantifier (min : Nat) (max : Option Nat) (mode : Mode)
  /-- The opening of a group. -/
  | opening (kind : GroupKind)
  /-- `|` -/
  | bar
  /-- `)` -/
  | close
deriving Repr

namespace Token

/-! ## Quantifiers -/

/-- Reads the bounds of a quantifier after its brace.  A brace without bounds
is an ordinary character. -/
def bounds? (s : List Char) : Option (Nat × Option Nat × List Char) :=
  match Numeral.decimal? s with
  | some (min, '}' :: rest) => some (min, some min, rest)
  | some (min, ',' :: '}' :: rest) => some (min, none, rest)
  | some (min, ',' :: s) =>
    match Numeral.decimal? s with
    | some (max, '}' :: rest) => some (min, some max, rest)
    | _ => none
  | _ => none

/-- Reads the mode that may follow the bounds of a quantifier. -/
def readMode : List Char → Mode × List Char
  | '?' :: s => (.lazy, s)
  | '+' :: s => (.possessive, s)
  | s => (.greedy, s)

/-- The quantifier with the given bounds and the mode that follows. -/
def quantified (min : Nat) (max : Option Nat) (s : List Char) : Reading Token :=
  .ok (.quantifier min max (readMode s).1, (readMode s).2)

/-- Reads a brace and what follows it, at the place `start`. -/
def readBrace (start s : List Char) : Reading Token :=
  match bounds? s with
  | none => .ok (.atom (.text ['{']), s)
  | some (min, max, rest) =>
    if max.any (· < min) then .error (.badRepetition start) else quantified min max rest

/-! ## Groups -/

/-- Whether a character may stand in the name of a group. -/
def isNameChar (c : Char) : Bool :=
  Unicode.alphanumeric.test c || c == '_' || c == '$'

/-- Reads the name of a group up to and including the `>`. -/
def readName (s : List Char) : Reading String :=
  let name := s.takeWhile isNameChar
  if name = [] then .error (.badGroup s)
  else
    match s.dropWhile isNameChar with
    | '>' :: rest => .ok (.ofList name, rest)
    | rest => .error (.missing '>' rest)

/-- Reads flags up to and including the colon.  They are set before a dash and
cleared after it. -/
def readFlags (on : Bool) (flags : FlagOverride) : List Char → Reading FlagOverride
  | ':' :: s => .ok (flags, s)
  | 'i' :: s => readFlags on { flags with ignoreCase := some on } s
  | 'm' :: s => readFlags on { flags with multiline := some on } s
  | 's' :: s => readFlags on { flags with dotAll := some on } s
  | '-' :: s => if on then readFlags false flags s else .error (.badGroup ('-' :: s))
  | s => .error (.badGroup s)

/-- Reads the kind of a group after its parenthesis. -/
def readKind : List Char → Reading GroupKind
  | '?' :: '=' :: s => .ok (.lookAround .ahead false, s)
  | '?' :: '!' :: s => .ok (.lookAround .ahead true, s)
  | '?' :: '<' :: '=' :: s => .ok (.lookAround .behind false, s)
  | '?' :: '<' :: '!' :: s => .ok (.lookAround .behind true, s)
  | '?' :: '>' :: s => .ok (.atomic, s)
  | '?' :: '<' :: s => (readName s).map fun (name, rest) => (.capture (some name), rest)
  | '?' :: s => (readFlags true {} s).map fun (flags, rest) => (.withFlags flags, rest)
  | s => .ok (.capture none, s)

/-! ## Atoms -/

/-- Reads what follows a backslash outside a class. -/
def readEscape (s : List Char) : Reading Pattern :=
  match s with
  | 'b' :: rest => .ok (.assert .wordBoundary, rest)
  | 'B' :: rest => .ok (.assert .notWordBoundary, rest)
  | 'k' :: '<' :: rest =>
    (readName rest).map fun (name, rest) => (.reference (.name name), rest)
  | c :: _ =>
    if c.isDigit && c ≠ '0' then
      match Numeral.decimal? s with
      | none => .error (.badEscape s)
      | some (n, rest) => .ok (.reference (.index n), rest)
    else
      match Escape.read false s with
      | .error e => .error e
      | .ok (.char c, rest) => .ok (.text [c], rest)
      | .ok (.set members, rest) => .ok (.oneOf members, rest)
  | [] => .error (.badEscape [])

/-- Reads the token that starts with `c`. -/
def read (c : Char) (s : List Char) : Reading Token :=
  match c with
  | '(' => (readKind s).map fun (kind, rest) => (.opening kind, rest)
  | ')' => .ok (.close, s)
  | '|' => .ok (.bar, s)
  | '*' => quantified 0 none s
  | '+' => quantified 1 none s
  | '?' => quantified 0 (some 1) s
  | '{' => readBrace ('{' :: s) s
  | '[' => (Class.read ('[' :: s) s).map fun (set, rest) => (.atom (.oneOf set), rest)
  | '\\' => (readEscape s).map fun (pattern, rest) => (.atom pattern, rest)
  | '.' => .ok (.atom .any, s)
  | '^' => .ok (.atom (.assert .inputStart), s)
  | '$' => .ok (.atom (.assert .inputEnd), s)
  | c => .ok (.atom (.text [c]), s)

/-! ## What follows a token is shorter -/

theorem map_eq_ok {α β ε : Type} {f : α → β} {r : Except ε α} {b : β}
    (h : r.map f = .ok b) : ∃ a, r = .ok a ∧ f a = b := by
  cases r with
  | error => simp [Except.map] at h
  | ok a => exact ⟨a, rfl, by simpa [Except.map] using h⟩

theorem length_le_of_bounds? {s rest : List Char} {min : Nat} {max : Option Nat}
    (h : bounds? s = some (min, max, rest)) : rest.length ≤ s.length := by
  unfold bounds? at h
  split at h
  · rename_i hmin
    obtain ⟨_, _, rfl⟩ := h
    exact Nat.le_of_lt (Numeral.length_le_of_decimal? hmin)
  · rename_i hmin
    obtain ⟨_, _, rfl⟩ := h
    have := Numeral.length_le_of_decimal? hmin
    simp only [List.length_cons] at this
    omega
  · rename_i hmin
    have := Numeral.length_le_of_decimal? hmin
    split at h
    · rename_i hmax
      obtain ⟨_, _, rfl⟩ := h
      have := Numeral.length_le_of_decimal? hmax
      simp only [List.length_cons] at *
      omega
    · simp at h
  · simp at h

theorem length_readMode_le (s : List Char) : (readMode s).2.length ≤ s.length := by
  unfold readMode
  split <;> simp

theorem length_le_of_quantified {s rest : List Char} {min : Nat} {max : Option Nat}
    {token : Token} (h : quantified min max s = .ok (token, rest)) :
    rest.length ≤ s.length := by
  simp only [quantified, Except.ok.injEq, Prod.mk.injEq] at h
  exact h.2 ▸ length_readMode_le s

theorem length_le_of_readBrace {start s rest : List Char} {token : Token}
    (h : readBrace start s = .ok (token, rest)) : rest.length ≤ s.length := by
  unfold readBrace at h
  split at h
  · simp only [Except.ok.injEq, Prod.mk.injEq] at h
    simp [h.2]
  · rename_i hbounds
    split at h
    · simp at h
    · exact Nat.le_trans (length_le_of_quantified h) (length_le_of_bounds? hbounds)

theorem length_le_of_readName {s rest : List Char} {name : String}
    (h : readName s = .ok (name, rest)) : rest.length ≤ s.length := by
  simp only [readName] at h
  split at h
  · simp at h
  · split at h
    · rename_i tail heq
      have := Numeral.length_dropWhile_le isNameChar s
      simp only [Except.ok.injEq, Prod.mk.injEq] at h
      rw [heq, h.2, List.length_cons] at this
      omega
    · simp at h

theorem length_le_of_readFlags {on : Bool} {flags result : FlagOverride} {s rest : List Char}
    (h : readFlags on flags s = .ok (result, rest)) : rest.length ≤ s.length := by
  fun_induction readFlags on flags s with
  | case1 =>
    simp only [Except.ok.injEq, Prod.mk.injEq] at h
    simp [h.2]
  | case2 _ _ _ ih | case3 _ _ _ ih | case4 _ _ _ ih | case5 _ _ ih =>
    have := ih h
    simp
    omega
  | case6 | case7 => simp at h

theorem length_le_of_readKind {s rest : List Char} {kind : GroupKind}
    (h : readKind s = .ok (kind, rest)) : rest.length ≤ s.length := by
  unfold readKind at h
  split at h
  case h_6 =>
    obtain ⟨⟨name, tail⟩, hname, heq⟩ := map_eq_ok h
    have := length_le_of_readName hname
    simp only [Prod.mk.injEq] at heq
    simp only [List.length_cons, ← heq.2]
    omega
  case h_7 =>
    obtain ⟨⟨flags, tail⟩, hflags, heq⟩ := map_eq_ok h
    have := length_le_of_readFlags hflags
    simp only [Prod.mk.injEq] at heq
    simp only [List.length_cons, ← heq.2]
    omega
  all_goals
    simp only [Except.ok.injEq, Prod.mk.injEq] at h
    simp only [← h.2, List.length_cons]
    omega

theorem length_le_of_readEscape {s rest : List Char} {pattern : Pattern}
    (h : readEscape s = .ok (pattern, rest)) : rest.length ≤ s.length := by
  unfold readEscape at h
  split at h
  · simp only [Except.ok.injEq, Prod.mk.injEq] at h
    simp [← h.2]
  · simp only [Except.ok.injEq, Prod.mk.injEq] at h
    simp [← h.2]
  · obtain ⟨⟨name, tail⟩, hname, heq⟩ := map_eq_ok h
    have := length_le_of_readName hname
    simp only [Prod.mk.injEq] at heq
    simp only [List.length_cons, ← heq.2]
    omega
  · split at h
    · split at h
      · simp at h
      · rename_i hread
        simp only [Except.ok.injEq, Prod.mk.injEq] at h
        exact h.2 ▸ Numeral.length_le_of_decimal? hread
    · split at h
      · simp at h
      · rename_i hread
        simp only [Except.ok.injEq, Prod.mk.injEq] at h
        exact h.2 ▸ Nat.le_of_lt (Escape.length_lt_of_read hread)
      · rename_i hread
        simp only [Except.ok.injEq, Prod.mk.injEq] at h
        exact h.2 ▸ Nat.le_of_lt (Escape.length_lt_of_read hread)
  · simp at h

/-- Reading a token leaves no more than what followed its first character. -/
theorem length_le_of_read {c : Char} {s rest : List Char} {token : Token}
    (h : read c s = .ok (token, rest)) : rest.length ≤ s.length := by
  unfold read at h
  split at h
  case h_1 =>
    obtain ⟨⟨kind, tail⟩, hkind, heq⟩ := map_eq_ok h
    simp only [Prod.mk.injEq] at heq
    exact heq.2 ▸ length_le_of_readKind hkind
  case h_4 | h_5 | h_6 => exact length_le_of_quantified h
  case h_7 => exact length_le_of_readBrace h
  case h_8 =>
    obtain ⟨⟨set, tail⟩, hset, heq⟩ := map_eq_ok h
    simp only [Prod.mk.injEq] at heq
    exact heq.2 ▸ Nat.le_of_lt (Class.length_lt_of_read hset)
  case h_9 =>
    obtain ⟨⟨pattern, tail⟩, hpattern, heq⟩ := map_eq_ok h
    simp only [Prod.mk.injEq] at heq
    exact heq.2 ▸ length_le_of_readEscape hpattern
  all_goals
    simp only [Except.ok.injEq, Prod.mk.injEq] at h
    simp [h.2]

end Token

end RegexEngine
