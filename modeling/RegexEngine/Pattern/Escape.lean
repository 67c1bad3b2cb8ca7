import RegexEngine.CharSet.Named
import RegexEngine.Pattern.Error
import RegexEngine.Pattern.Numeral
import RegexEngine.Unicode.Property

/-!
# Escapes

An escape is a backslash and what follows it.  This module reads the escapes
that stand for a character or for a set of characters; they mean the same
inside and outside a class, but for `\b`, which is a backspace inside.

A place in the text of a pattern is the text from there on, so `Escape.read`
gets the text after the backslash, and that is also the place of an escape
without meaning.
-/

namespace RegexEngine

/-- The outcome of reading something at the start of a text: what was read and
the rest of the text, or an error. -/
abbrev Reading (α : Type) :=
  Except (ParseError (List Char)) (α × List Char)

/-- What an escape or a plain character of a class stands for. -/
inductive ClassAtom where
  /-- One character. -/
  | char (c : Char)
  /-- A set of characters. -/
  | set (members : CharSet)
deriving DecidableEq, Repr

namespace Escape

/-- Reads up to and including the next `}`. -/
def untilBrace (s : List Char) : Reading (List Char) :=
  match s.dropWhile (· ≠ '}') with
  | [] => .error (.missing '}' [])
  | _ :: rest => .ok (s.takeWhile (· ≠ '}'), rest)

/-- The character whose hexadecimal number stands between braces.  A plus sign
may precede the number. -/
def braced? (body : List Char) : Option Char :=
  let digits := match body with
    | '+' :: digits => digits
    | digits => digits
  if digits = [] then none else (Numeral.hexValue? digits).bind Numeral.scalar?

/-- The low half of a surrogate pair, written as an escape. -/
def lowSurrogate? : List Char → Option (Nat × List Char)
  | '\\' :: 'u' :: s =>
    (Numeral.hexadecimal? 4 s).filter fun (low, _) => 0xDC00 ≤ low && low < 0xE000
  | _ => none

/-- Reads four hexadecimal digits.  If they are the high half of a surrogate
pair, the low half has to follow. -/
def utf16? (s : List Char) : Option (Char × List Char) :=
  match Numeral.hexadecimal? 4 s with
  | none => none
  | some (unit, rest) =>
    if 0xD800 ≤ unit ∧ unit < 0xDC00 then
      match lowSurrogate? rest with
      | none => none
      | some (low, rest) =>
        (Numeral.scalar? (0x10000 + (unit - 0xD800) * 0x400 + (low - 0xDC00))).map (·, rest)
    else
      (Numeral.scalar? unit).map (·, rest)

/-- Reads the name of a property in braces.  A negated property stands for the
characters that do not have it. -/
def property (negated : Bool) : List Char → Reading ClassAtom
  | '{' :: s =>
    match untilBrace s with
    | .error e => .error e
    | .ok (name, rest) =>
      match Unicode.property? name with
      | none => .error (.unknownProperty name)
      | some members => .ok (.set (if negated then members.compl else members), rest)
  | s => .error (.missing '{' s)

/-- The characters that a letter stands for. -/
def named? (inClass : Bool) : Char → Option ClassAtom
  | 'd' => some (.set .digit)
  | 'D' => some (.set CharSet.digit.compl)
  | 'w' => some (.set .word)
  | 'W' => some (.set CharSet.word.compl)
  | 's' => some (.set .whitespace)
  | 'S' => some (.set CharSet.whitespace.compl)
  | 'b' => if inClass then some (.char '\x08') else none
  | 't' => some (.char '\t')
  | 'n' => some (.char '\n')
  | 'v' => some (.char '\x0b')
  | 'f' => some (.char '\x0c')
  | 'r' => some (.char '\r')
  | _ => none

/-- Reads a character that is given by its number, at the place `start`. -/
def numbered (start : List Char) (read : Option (Char × List Char)) : Reading ClassAtom :=
  match read with
  | none => .error (.badEscape start)
  | some (c, rest) => .ok (.char c, rest)

/-- Reads a letter with the control key held down. -/
def control? : List Char → Option (Char × List Char)
  | c :: rest => if c.isAlpha then some (Char.ofNat (c.toNat % 32), rest) else none
  | [] => none

/-- Reads `hh`. -/
def byte? (s : List Char) : Option (Char × List Char) :=
  (Numeral.hexadecimal? 2 s).map fun (n, rest) => (Char.ofNat n, rest)

/-- Reads what follows a backslash. -/
def read (inClass : Bool) : List Char → Reading ClassAtom
  | [] => .error (.badEscape [])
  | c :: s =>
    match named? inClass c with
    | some atom => .ok (atom, s)
    | none =>
      match c with
      | '0' => .ok (.char (Char.ofNat (Numeral.octal 2 s).1), (Numeral.octal 2 s).2)
      | 'c' => numbered (c :: s) (control? s)
      | 'x' => numbered (c :: s) (byte? s)
      | 'u' =>
        match s with
        | '{' :: body =>
          match untilBrace body with
          | .error e => .error e
          | .ok (digits, rest) => numbered (c :: s) ((braced? digits).map (·, rest))
        | _ => numbered (c :: s) (utf16? s)
      | 'p' => property false s
      | 'P' => property true s
      | _ => .ok (.char c, s)

/-! ## An escape uses up some of the text -/

theorem length_lt_of_untilBrace {s rest body : List Char}
    (h : untilBrace s = .ok (body, rest)) : rest.length < s.length := by
  unfold untilBrace at h
  split at h
  · simp at h
  · rename_i c tail heq
    simp only [Except.ok.injEq, Prod.mk.injEq] at h
    have hlen := Numeral.length_dropWhile_le (· ≠ '}') s
    rw [heq] at hlen
    simp at hlen
    rw [← h.2]
    omega

theorem length_le_of_lowSurrogate? {s rest : List Char} {n : Nat}
    (h : lowSurrogate? s = some (n, rest)) : rest.length ≤ s.length := by
  unfold lowSurrogate? at h
  split at h
  · rw [Option.filter_eq_some_iff] at h
    have := Numeral.length_le_of_hexadecimal? h.1
    simp
    omega
  · simp at h

theorem length_le_of_utf16? {s rest : List Char} {c : Char}
    (h : utf16? s = some (c, rest)) : rest.length ≤ s.length := by
  unfold utf16? at h
  split at h
  · simp at h
  · rename_i unit mid heq
    have hmid := Numeral.length_le_of_hexadecimal? heq
    split at h
    · split at h
      · simp at h
      · rename_i low tail hlow
        have := length_le_of_lowSurrogate? hlow
        simp only [Option.map_eq_some_iff, Prod.mk.injEq] at h
        obtain ⟨_, _, _, rfl⟩ := h
        omega
    · simp only [Option.map_eq_some_iff, Prod.mk.injEq] at h
      obtain ⟨_, _, _, rfl⟩ := h
      omega

theorem length_lt_of_property {negated : Bool} {s rest : List Char} {atom : ClassAtom}
    (h : property negated s = .ok (atom, rest)) : rest.length < s.length := by
  unfold property at h
  split at h
  · split at h
    · simp at h
    · rename_i hbody
      have := length_lt_of_untilBrace hbody
      split at h
      · simp at h
      · simp only [Except.ok.injEq, Prod.mk.injEq] at h
        simp only [List.length_cons, ← h.2]
        omega
  · simp at h

theorem numbered_eq_ok {start rest : List Char} {read : Option (Char × List Char)}
    {atom : ClassAtom} (h : numbered start read = .ok (atom, rest)) :
    ∃ c, read = some (c, rest) := by
  unfold numbered at h
  split at h
  · simp at h
  · simp only [Except.ok.injEq, Prod.mk.injEq] at h
    exact ⟨_, by rw [h.2]⟩

theorem length_le_of_control? {s rest : List Char} {c : Char}
    (h : control? s = some (c, rest)) : rest.length ≤ s.length := by
  unfold control? at h
  split at h
  · simp only [Option.ite_none_right_eq_some, Option.some.injEq, Prod.mk.injEq] at h
    simp [← h.2.2]
  · simp at h

theorem length_le_of_byte? {s rest : List Char} {c : Char}
    (h : byte? s = some (c, rest)) : rest.length ≤ s.length := by
  simp only [byte?, Option.map_eq_some_iff] at h
  obtain ⟨⟨n, tail⟩, hread, heq⟩ := h
  simp only [Prod.mk.injEq] at heq
  exact heq.2 ▸ Numeral.length_le_of_hexadecimal? hread

/-- Reading an escape leaves less text than there was. -/
theorem length_lt_of_read {inClass : Bool} {s rest : List Char} {atom : ClassAtom}
    (h : read inClass s = .ok (atom, rest)) : rest.length < s.length := by
  unfold read at h
  split at h
  · simp at h
  · rename_i c tail
    simp only [List.length_cons, Nat.lt_succ_iff]
    split at h
    · simp only [Except.ok.injEq, Prod.mk.injEq] at h
      simp [← h.2]
    · split at h
      · simp only [Except.ok.injEq, Prod.mk.injEq] at h
        exact h.2 ▸ Numeral.length_octal_le 2 tail
      · obtain ⟨_, hread⟩ := numbered_eq_ok h
        exact length_le_of_control? hread
      · obtain ⟨_, hread⟩ := numbered_eq_ok h
        exact length_le_of_byte? hread
      · split at h
        · split at h
          · simp at h
          · rename_i hbody
            have := length_lt_of_untilBrace hbody
            obtain ⟨_, hread⟩ := numbered_eq_ok h
            simp only [Option.map_eq_some_iff, Prod.mk.injEq] at hread
            obtain ⟨_, _, _, rfl⟩ := hread
            simp
            omega
        · obtain ⟨_, hread⟩ := numbered_eq_ok h
          exact length_le_of_utf16? hread
      · exact Nat.le_of_lt (length_lt_of_property h)
      · exact Nat.le_of_lt (length_lt_of_property h)
      · simp only [Except.ok.injEq, Prod.mk.injEq] at h
        simp [← h.2]

end Escape

end RegexEngine
