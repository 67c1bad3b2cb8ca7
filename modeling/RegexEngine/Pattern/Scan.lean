import RegexEngine.Pattern.Error
import RegexEngine.Text.Subject

/-!
# Reading a text in place

A `Scan` reads the text of a pattern where it stands: it is given the whole text
and its own place in it, a byte offset, and gives back what it read and the place
it got to.  Whatever looks at the text from a place on cuts the text there, so a
place inside a character is a fault.

* `Scan.peek`, `Scan.advance` and `Scan.next` look at a character or pass it.
* `Scan.skipWhile` passes the characters of a kind, and `Scan.since` gives back
  what has been passed.
* `Scan.restoring` goes back to where it began if nothing was read.
* `Scan.Forward` and `Scan.Strict` say that a reader never goes back, and that it
  passes something.
-/

namespace RegexEngine

/-- What ends the reading of a pattern early. -/
inductive Halt where
  /-- The text is not the text of a pattern. -/
  | error (error : ParseError Nat)
  /-- The text could not be cut. -/
  | fault (fault : Fault)
deriving DecidableEq, Repr

/-- A reader of a text that keeps a place in it. -/
def Scan (α : Type) : Type :=
  Subject → Nat → Except Halt (α × Nat)

namespace Scan

variable {α β : Type}

instance : Monad Scan where
  pure a := fun _ pos => .ok (a, pos)
  bind m f := fun s pos =>
    match m s pos with
    | .error halt => .error halt
    | .ok (a, pos) => f a s pos

/-- Ends the reading with an error. -/
def fail (error : ParseError Nat) : Scan α :=
  fun _ _ => .error (.error error)

/-- The place of the reader. -/
def place : Scan Nat :=
  fun _ pos => .ok (pos, pos)

/-! ## Characters -/

/-- The next character. -/
def peek : Scan (Option Char) :=
  fun s pos =>
    match s.checkBoundary pos with
    | .error fault => .error (.fault fault)
    | .ok () => .ok (s.charAt? pos, pos)

/-- The character after the next one. -/
def peekSecond : Scan (Option Char) := do
  match ← peek with
  | none => return none
  | some c => fun s pos => .ok (s.charAt? (pos + c.utf8Size), pos)

/-- Passes the next character. -/
def advance : Scan (Option Char) := do
  match ← peek with
  | none => return none
  | some c => fun _ pos => .ok (some c, pos + c.utf8Size)

/-- Passes the next character, which has to be there. -/
def next (missing : Nat → ParseError Nat) : Scan Char := do
  let start ← place
  match ← advance with
  | none => fail (missing start)
  | some c => return c

/-- Passes the given character if it is the next one. -/
def eat (expected : Char) : Scan Bool := do
  if (← peek) = some expected then
    let _ ← advance
    return true
  else
    return false

/-- Passes the given characters if they are the next ones. -/
def eatText (expected : List Char) : Scan Bool :=
  fun s pos =>
    match s.slice pos s.size with
    | .error fault => .error (.fault fault)
    | .ok rest =>
      if expected <+: rest then .ok (true, pos + byteLength expected) else .ok (false, pos)

/-- Passes the given character, which has to be the next one. -/
def expect (expected : Char) : Scan Unit := do
  if ← eat expected then
    return ()
  else
    fail (.missing expected (← place))

/-! ## Pieces of the text -/

/-- Passes characters as long as they are of a kind. -/
def skipWhile (kind : Char → Bool) : Scan Unit :=
  fun s pos =>
    match s.checkBoundary pos with
    | .error fault => .error (.fault fault)
    | .ok () =>
      match _h : s.charAt? pos with
      | none => .ok ((), pos)
      | some c => if kind c then skipWhile kind s (pos + c.utf8Size) else .ok ((), pos)
termination_by s pos => s.size - pos
decreasing_by
  have := Subject.lt_size_of_charAt? _h
  have := c.utf8Size_pos
  omega

/-- The text that has been passed since a place. -/
def since (start : Nat) : Scan (List Char) :=
  fun s pos =>
    match s.slice start pos with
    | .error fault => .error (.fault fault)
    | .ok piece => .ok (piece, pos)

/-! ## Going back -/

/-- Reads something whose errors do not matter. -/
def attempt (m : Scan α) : Scan (Option α) :=
  fun s pos =>
    match m s pos with
    | .ok (a, pos) => .ok (some a, pos)
    | .error (.error _) => .ok (none, pos)
    | .error (.fault fault) => .error (.fault fault)

/-- Reads something that may not be there, and then goes back. -/
def restoring (m : Scan (Option α)) : Scan (Option α) :=
  fun s pos =>
    match m s pos with
    | .error halt => .error halt
    | .ok (none, _) => .ok (none, pos)
    | .ok (some a, pos) => .ok (some a, pos)

/-! ## Readers as functions -/

section Apply

variable (s : Subject) (pos : Nat)

@[simp]
theorem pure_apply (a : α) : (pure a : Scan α) s pos = .ok (a, pos) :=
  rfl

@[simp]
theorem bind_apply (m : Scan α) (f : α → Scan β) :
    (m >>= f) s pos =
      match m s pos with
      | .error halt => .error halt
      | .ok (a, pos) => f a s pos :=
  rfl

@[simp]
theorem map_apply (f : α → β) (m : Scan α) :
    (f <$> m) s pos =
      match m s pos with
      | .error halt => .error halt
      | .ok (a, pos) => .ok (f a, pos) :=
  rfl

@[simp]
theorem fail_apply (e : ParseError Nat) : (fail e : Scan α) s pos = .error (.error e) :=
  rfl

@[simp]
theorem place_apply : place s pos = .ok (pos, pos) :=
  rfl

end Apply

/-! ## Places only grow -/

/-- The reader never goes back. -/
def Forward (m : Scan α) : Prop :=
  ∀ ⦃s pos a pos'⦄, m s pos = .ok (a, pos') → pos ≤ pos'

/-- The reader passes something. -/
def Strict (m : Scan α) : Prop :=
  ∀ ⦃s pos a pos'⦄, m s pos = .ok (a, pos') → pos < s.size ∧ pos < pos'

theorem ok_inj {a a' : α} {pos pos' : Nat}
    (h : (.ok (a, pos) : Except Halt (α × Nat)) = .ok (a', pos')) : a = a' ∧ pos = pos' :=
  Prod.mk.inj (Except.ok.inj h)

theorem bind_eq_ok {m : Scan α} {f : α → Scan β} {s : Subject} {pos pos' : Nat} {b : β}
    (h : (m >>= f) s pos = .ok (b, pos')) :
    ∃ a mid, m s pos = .ok (a, mid) ∧ f a s mid = .ok (b, pos') := by
  rw [bind_apply] at h
  split at h
  · cases h
  · next a mid hm => exact ⟨a, mid, hm, h⟩

theorem Strict.forward {m : Scan α} (h : m.Strict) : m.Forward :=
  fun _ _ _ _ hm => Nat.le_of_lt (h hm).2

theorem forward_pure (a : α) : Forward (pure a) := by
  intro s pos a' pos' h
  obtain ⟨-, rfl⟩ := ok_inj h
  exact Nat.le_refl pos

theorem forward_fail (e : ParseError Nat) : Forward (fail e : Scan α) :=
  nofun

theorem forward_place : Forward place := by
  intro s pos a pos' h
  obtain ⟨-, rfl⟩ := ok_inj h
  exact Nat.le_refl pos

theorem Forward.bind {m : Scan α} {f : α → Scan β} (hm : m.Forward) (hf : ∀ a, (f a).Forward) :
    (m >>= f).Forward := by
  intro s pos b pos' h
  obtain ⟨a, mid, hfirst, hsecond⟩ := bind_eq_ok h
  exact Nat.le_trans (hm hfirst) (hf a hsecond)

theorem Forward.map {m : Scan α} (f : α → β) (hm : m.Forward) : (f <$> m).Forward :=
  hm.bind fun a => forward_pure (f a)

theorem Strict.bind {m : Scan α} {f : α → Scan β} (hm : m.Strict) (hf : ∀ a, (f a).Forward) :
    (m >>= f).Strict := by
  intro s pos b pos' h
  obtain ⟨a, mid, hfirst, hsecond⟩ := bind_eq_ok h
  obtain ⟨hsize, hmid⟩ := hm hfirst
  exact ⟨hsize, Nat.lt_of_lt_of_le hmid (hf a hsecond)⟩

theorem Strict.place_bind {f : Nat → Scan β} (hf : ∀ pos, (f pos).Strict) :
    (place >>= f).Strict := by
  intro s pos b pos' h
  exact hf pos h

theorem peek_eq_ok {s : Subject} {pos pos' : Nat} {c : Option Char}
    (h : peek s pos = .ok (c, pos')) : s.charAt? pos = c ∧ pos' = pos := by
  unfold peek at h
  split at h
  · cases h
  · obtain ⟨rfl, rfl⟩ := ok_inj h
    exact ⟨rfl, rfl⟩

theorem forward_peek : Forward peek :=
  fun _ _ _ _ h => Nat.le_of_eq (peek_eq_ok h).2.symm

theorem advance_eq_ok {s : Subject} {pos pos' : Nat} {c : Option Char}
    (h : advance s pos = .ok (c, pos')) :
    s.charAt? pos = c ∧ pos' = pos + (c.map Char.utf8Size).getD 0 := by
  obtain ⟨c', mid, hpeek, hrest⟩ := bind_eq_ok h
  obtain ⟨hchar, rfl⟩ := peek_eq_ok hpeek
  cases c' <;>
  · obtain ⟨rfl, rfl⟩ := ok_inj hrest
    exact ⟨hchar, rfl⟩

theorem forward_advance : Forward advance :=
  fun _ _ _ _ h => by
    rw [(advance_eq_ok h).2]
    exact Nat.le_add_right _ _

theorem forward_peekSecond : Forward peekSecond := by
  refine forward_peek.bind fun c => ?_
  cases c with
  | none => exact forward_pure none
  | some c =>
    intro s pos a pos' h
    obtain ⟨-, rfl⟩ := ok_inj h
    exact Nat.le_refl pos

/-- A character that has been passed leaves the text behind it. -/
theorem lt_of_advance {s : Subject} {pos pos' : Nat} {c : Char}
    (h : advance s pos = .ok (some c, pos')) : pos < s.size ∧ pos < pos' := by
  obtain ⟨hchar, rfl⟩ := advance_eq_ok h
  exact ⟨Subject.lt_size_of_charAt? hchar, Nat.lt_add_of_pos_right c.utf8Size_pos⟩

theorem strict_next (missing : Nat → ParseError Nat) : Strict (next missing) := by
  refine Strict.place_bind fun start s pos c pos' h => ?_
  obtain ⟨c', mid, hadvance, hrest⟩ := bind_eq_ok h
  cases c' with
  | none => cases hrest
  | some c' =>
    obtain ⟨-, rfl⟩ := ok_inj hrest
    exact lt_of_advance hadvance

theorem forward_eat (expected : Char) : Forward (eat expected) := by
  refine forward_peek.bind fun c => ?_
  split
  · exact forward_advance.bind fun _ => forward_pure true
  · exact forward_pure false

theorem forward_eatText (expected : List Char) : Forward (eatText expected) := by
  intro s pos a pos' h
  unfold eatText at h
  split at h
  · cases h
  · split at h <;>
    · obtain ⟨-, rfl⟩ := ok_inj h
      omega

theorem forward_expect (expected : Char) : Forward (expect expected) := by
  refine (forward_eat expected).bind fun found => ?_
  split
  · exact forward_pure ()
  · exact forward_place.bind fun _ => forward_fail _

theorem forward_skipWhile (kind : Char → Bool) : Forward (skipWhile kind) := by
  intro s pos a pos' h
  fun_induction skipWhile kind s pos with
  | case1 => cases h
  | case2 | case4 =>
    obtain ⟨-, rfl⟩ := ok_inj h
    exact Nat.le_refl _
  | case3 pos _ c _ _ ih => exact Nat.le_trans (Nat.le_add_right pos _) (ih h)

theorem forward_since (start : Nat) : Forward (since start) := by
  intro s pos a pos' h
  unfold since at h
  split at h
  · cases h
  · obtain ⟨-, rfl⟩ := ok_inj h
    exact Nat.le_refl pos

theorem Forward.attempt {m : Scan α} (hm : m.Forward) : m.attempt.Forward := by
  intro s pos a pos' h
  unfold Scan.attempt at h
  split at h
  · next hok =>
    obtain ⟨-, rfl⟩ := ok_inj h
    exact hm hok
  · obtain ⟨-, rfl⟩ := ok_inj h
    exact Nat.le_refl pos
  · cases h

theorem Forward.restoring {m : Scan (Option α)} (hm : m.Forward) : m.restoring.Forward := by
  intro s pos a pos' h
  unfold Scan.restoring at h
  split at h
  · cases h
  · obtain ⟨-, rfl⟩ := ok_inj h
    exact Nat.le_refl pos
  · next hok =>
    obtain ⟨-, rfl⟩ := ok_inj h
    exact hm hok

end Scan

end RegexEngine
