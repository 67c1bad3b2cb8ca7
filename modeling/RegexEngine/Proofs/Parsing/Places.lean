import RegexEngine.Pattern.InPlace
import RegexEngine.Proofs.Text.Pieces

/-!
# Places in a pattern text

A reader that works in place stands at the offset at which some rest of the text begins.  For each
step of such a reader there is a lemma that says what it does at that offset, by the characters of
the rest.

* `Scan.placed` is what a reader answers in place when something is read of the rest alone.
* `Scan.peek_offset`, `Scan.next_cons` and the like are about single characters.
* `Scan.skipWhile_offset` and `Scan.since_offset` are about pieces of the text.
-/

namespace RegexEngine

namespace Pattern

variable {text rest : List Char}

/-- The place at which a rest begins lies behind what stands before it. -/
theorem offset_append_left (before rest : List Char) :
    offset (before ++ rest) rest = byteLength before := by
  rw [offset, byteLength_append, Nat.add_sub_cancel]

/-- A piece lies between the places at which the rests with it and without it begin. -/
theorem offset_piece {piece : List Char} (h : piece ++ rest <:+ text) :
    offset text (piece ++ rest) + byteLength piece = offset text rest := by
  obtain ⟨before, rfl⟩ := h
  rw [offset_append_left, ← List.append_assoc, offset_append_left, byteLength_append]

theorem offset_cons {c : Char} (h : c :: rest <:+ text) :
    offset text (c :: rest) + c.utf8Size = offset text rest :=
  @offset_piece text rest [c] h

end Pattern

open Pattern (offset)

namespace Subject

variable {s : Subject} {rest : List Char}

theorem charAt?_offset (h : rest <:+ s.chars) : s.charAt? (offset s.chars rest) = rest.head? := by
  obtain ⟨before, hchars⟩ := h
  rw [← hchars, Pattern.offset_append_left, charAt?_byteLength hchars.symm]

theorem isBoundary_offset (h : rest <:+ s.chars) : s.isBoundary (offset s.chars rest) := by
  obtain ⟨before, hchars⟩ := h
  rw [← hchars, Pattern.offset_append_left]
  exact isBoundary_iff.2 ⟨before, rest, hchars.symm, rfl⟩

theorem checkBoundary_offset (h : rest <:+ s.chars) :
    s.checkBoundary (offset s.chars rest) = .ok () := by
  rw [checkBoundary, if_pos (isBoundary_offset h)]

/-- The piece between the places of two rests. -/
theorem slice_offset {piece : List Char} (h : piece ++ rest <:+ s.chars) :
    s.slice (offset s.chars (piece ++ rest)) (offset s.chars rest) = .ok piece := by
  obtain ⟨before, hchars⟩ := h
  have hstop : offset s.chars rest = byteLength before + byteLength piece := by
    rw [← hchars, ← List.append_assoc, Pattern.offset_append_left, byteLength_append]
  rw [hstop, ← hchars, Pattern.offset_append_left]
  exact slice_of_eq hchars.symm

/-- All the rest of the text. -/
theorem slice_size (h : rest <:+ s.chars) : s.slice (offset s.chars rest) s.size = .ok rest := by
  have hsize : s.size = offset s.chars [] := by
    rw [size_eq, offset, byteLength, Nat.sub_zero]
  have hrest : rest ++ [] <:+ s.chars := by rwa [List.append_nil]
  have hslice := slice_offset hrest
  rwa [List.append_nil, ← hsize] at hslice

end Subject

namespace Scan

variable {α β : Type} {s : Subject} {rest : List Char} {c : Char}

/-- What a reader answers in place when this is read of the rest of the text. -/
def placed (text : List Char) : Reading α → Except Halt (α × Nat)
  | .ok (a, rest) => .ok (a, offset text rest)
  | .error e => .error (.error (e.map (offset text)))

/-! ## Characters -/

@[simp]
theorem peek_offset (h : rest <:+ s.chars) :
    peek s (offset s.chars rest) = .ok (rest.head?, offset s.chars rest) := by
  rw [peek, Subject.checkBoundary_offset h, Subject.charAt?_offset h]

@[simp]
theorem peekSecond_cons (h : c :: rest <:+ s.chars) :
    peekSecond s (offset s.chars (c :: rest)) = .ok (rest.head?, offset s.chars (c :: rest)) := by
  have hrest : rest <:+ s.chars := (List.suffix_cons c rest).trans h
  rw [peekSecond, bind_apply, peek_offset h]
  simp only [List.head?_cons, Pattern.offset_cons h, Subject.charAt?_offset hrest]

@[simp]
theorem advance_cons (h : c :: rest <:+ s.chars) :
    advance s (offset s.chars (c :: rest)) = .ok (some c, offset s.chars rest) := by
  rw [advance, bind_apply, peek_offset h]
  simp only [List.head?_cons, Pattern.offset_cons h]

@[simp]
theorem advance_nil (s : Subject) :
    advance s (offset s.chars []) = .ok (none, offset s.chars []) := by
  rw [advance, bind_apply, peek_offset (List.nil_suffix)]
  rfl

@[simp]
theorem next_cons (missing : Nat → ParseError Nat) (h : c :: rest <:+ s.chars) :
    next missing s (offset s.chars (c :: rest)) = .ok (c, offset s.chars rest) := by
  simp [next, h]

@[simp]
theorem next_nil (missing : Nat → ParseError Nat) (s : Subject) :
    next missing s (offset s.chars []) = .error (.error (missing (offset s.chars []))) := by
  simp [next]

@[simp]
theorem eat_cons (h : c :: rest <:+ s.chars) :
    eat c s (offset s.chars (c :: rest)) = .ok (true, offset s.chars rest) := by
  simp [eat, h]

/-- Where another character stands, or none, nothing is passed. -/
theorem eat_of_ne (h : rest <:+ s.chars) (hne : rest.head? ≠ some c) :
    eat c s (offset s.chars rest) = .ok (false, offset s.chars rest) := by
  simp [eat, h, hne]

theorem head?_ne_of_not_cons (hnot : ∀ tail, rest = c :: tail → False) : rest.head? ≠ some c := by
  intro heq
  obtain ⟨tail, rfl⟩ := List.head?_eq_some_iff.1 heq
  exact hnot tail rfl

theorem eat_of_not_cons (h : rest <:+ s.chars) (hnot : ∀ tail, rest = c :: tail → False) :
    eat c s (offset s.chars rest) = .ok (false, offset s.chars rest) :=
  eat_of_ne h (head?_ne_of_not_cons hnot)

@[simp]
theorem eat_cons_of_ne {d : Char} (h : d :: rest <:+ s.chars) (hne : d ≠ c) :
    eat c s (offset s.chars (d :: rest)) = .ok (false, offset s.chars (d :: rest)) :=
  eat_of_ne h fun heq => hne (Option.some.inj heq)

theorem eatText_append {piece : List Char} (h : piece ++ rest <:+ s.chars) :
    eatText piece s (offset s.chars (piece ++ rest)) = .ok (true, offset s.chars rest) := by
  rw [eatText, Subject.slice_size h, ← Pattern.offset_piece h]
  exact if_pos (List.prefix_append piece rest)

@[simp]
theorem eatText_pair {d : Char} (h : c :: d :: rest <:+ s.chars) :
    eatText [c, d] s (offset s.chars (c :: d :: rest)) = .ok (true, offset s.chars rest) :=
  @eatText_append s rest [c, d] h

theorem eatText_of_not {piece : List Char} (h : rest <:+ s.chars) (hnot : ¬piece <+: rest) :
    eatText piece s (offset s.chars rest) = .ok (false, offset s.chars rest) := by
  rw [eatText, Subject.slice_size h]
  exact if_neg hnot

@[simp]
theorem expect_cons (h : c :: rest <:+ s.chars) :
    expect c s (offset s.chars (c :: rest)) = .ok ((), offset s.chars rest) := by
  simp [expect, h]

theorem expect_of_ne (h : rest <:+ s.chars) (hne : rest.head? ≠ some c) :
    expect c s (offset s.chars rest) = .error (.error (.missing c (offset s.chars rest))) := by
  simp [expect, eat_of_ne h hne]

@[simp]
theorem expect_nil (s : Subject) :
    expect c s (offset s.chars []) = .error (.error (.missing c (offset s.chars []))) :=
  expect_of_ne List.nil_suffix nofun

/-! ## Pieces of the text -/

@[simp]
theorem skipWhile_offset (kind : Char → Bool) (h : rest <:+ s.chars) :
    skipWhile kind s (offset s.chars rest) = .ok ((), offset s.chars (rest.dropWhile kind)) := by
  induction rest with
  | nil =>
    rw [skipWhile, Subject.checkBoundary_offset h]
    dsimp only
    split
    · rfl
    · next hchar =>
      rw [Subject.charAt?_offset h] at hchar
      cases hchar
  | cons c rest ih =>
    have hrest : rest <:+ s.chars := (List.suffix_cons c rest).trans h
    rw [skipWhile, Subject.checkBoundary_offset h]
    dsimp only
    split
    · next hchar =>
      rw [Subject.charAt?_offset h] at hchar
      cases hchar
    · next hchar =>
      rw [Subject.charAt?_offset h] at hchar
      cases hchar
      rw [List.dropWhile_cons, Pattern.offset_cons h, ih hrest]
      split <;> rfl

@[simp]
theorem since_offset {piece : List Char} (h : piece ++ rest <:+ s.chars) :
    since (offset s.chars (piece ++ rest)) s (offset s.chars rest) =
      .ok (piece, offset s.chars rest) := by
  rw [since, Subject.slice_offset h]

@[simp]
theorem since_takeWhile (kind : Char → Bool) (h : rest <:+ s.chars) :
    since (offset s.chars rest) s (offset s.chars (rest.dropWhile kind)) =
      .ok (rest.takeWhile kind, offset s.chars (rest.dropWhile kind)) := by
  have hsplit := @List.takeWhile_append_dropWhile _ kind rest
  have hsince := @since_offset s (rest.dropWhile kind) (rest.takeWhile kind) (hsplit.symm ▸ h)
  rwa [hsplit] at hsince

@[simp]
theorem since_take (count : Nat) (h : rest <:+ s.chars) :
    since (offset s.chars rest) s (offset s.chars (rest.drop count)) =
      .ok (rest.take count, offset s.chars (rest.drop count)) := by
  have hsplit := List.take_append_drop count rest
  have hsince := @since_offset s (rest.drop count) (rest.take count) (hsplit.symm ▸ h)
  rwa [hsplit] at hsince

end Scan

end RegexEngine
