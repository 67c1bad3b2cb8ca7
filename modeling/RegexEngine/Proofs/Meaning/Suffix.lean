import RegexEngine.Proofs.Meaning.Basic
import RegexEngine.Proofs.Text.Suffix

/-!
# Patterns that do not look back

Behind a prefix of a subject a pattern has the endings that it has in the rest of the subject, if
it does not ask for what comes before.  All offsets are larger by the length of the prefix, those
of the groups and of a fault too.

* `Groups.shift` and `Ending.shift` move offsets.
* `Meaning.Shifts` says that a meaning has the endings of another one, moved, and each combinator
  keeps it.
* `Pattern.looksBack` finds lookbehinds, word boundaries and starts of the input, and
  `Pattern.shifts_meaning` is the induction over a pattern without them.
-/

namespace RegexEngine

/-! ## Moving offsets -/

/-- The slot `n` bytes further on. -/
def Slot.shift (n : Nat) (slot : Slot) : Slot where
  start := n + slot.start
  stop := slot.stop.map (n + ·)

/-- The offsets `n` bytes further on. -/
def Groups.shift (n : Nat) (groups : Groups) : Groups := fun key =>
  (groups key).map (Slot.shift n)

/-- The ending `n` bytes further on. -/
def Ending.shift (n : Nat) : Ending → Ending
  | .error fault => .error (fault.shift n)
  | .ok (stop, groups) => .ok (n + stop, groups.shift n)

section

variable (n : Nat)

namespace Groups

variable (groups : Groups) (key : GroupKey)

theorem shift_set (slot : Option Slot) :
    (groups.set key slot).shift n = (groups.shift n).set key (slot.map (Slot.shift n)) := by
  funext key'
  unfold shift set
  split
  · rfl
  · rfl

theorem shift_opened (pos : Nat) :
    (groups.opened key pos).shift n = (groups.shift n).opened key (n + pos) :=
  shift_set n groups key _

theorem shift_closed (stop : Nat) :
    (groups.closed key stop).shift n = (groups.shift n).closed key (n + stop) := by
  unfold closed
  rw [shift_set]
  congr 1
  unfold shift
  cases groups key with
  | none => rfl
  | some slot => rfl

theorem span_shift : (groups.shift n key).bind Slot.span =
    ((groups key).bind Slot.span).map fun (start, stop) => (n + start, n + stop) := by
  unfold shift
  cases groups key with
  | none => rfl
  | some slot =>
    show (slot.stop.map (n + ·)).map _ = (slot.stop.map _).map _
    rw [Option.map_map, Option.map_map]
    rfl

end Groups

/-- Going on from endings that have been moved. -/
theorem Ending.andThen_shift {next next' : Nat → Groups → List Ending}
    (h : ∀ stop groups, next (n + stop) (groups.shift n) = (next' stop groups).map (shift n))
    (endings : List Ending) :
    andThen (endings.map (shift n)) next = (andThen endings next').map (shift n) := by
  unfold andThen
  rw [List.flatMap_map, List.map_flatMap]
  apply List.flatMap_congr
  intro e _
  match e with
  | .error fault => rfl
  | .ok (stop, groups) => exact h stop groups

end

/-! ## Combinators -/

namespace Meaning

/-- What `meaning` says `n` bytes further on is what `meaning'` says, moved. -/
def Shifts (n : Nat) (meaning meaning' : Meaning) : Prop :=
  ∀ limit pos groups, meaning (n + limit) (n + pos) (groups.shift n) =
    (meaning' limit pos groups).map (Ending.shift n)

variable {before : List Char} {whole rest : Subject} {n : Nat}
  {first first' second second' body body' : Meaning}

theorem shifts_skip : Shifts n skip skip := by
  intro limit pos groups
  rfl

theorem Shifts.seq (h : Shifts n first first') (h' : Shifts n second second') :
    Shifts n (seq first second) (seq first' second') := by
  intro limit pos groups
  unfold Meaning.seq
  rw [h limit pos groups]
  exact Ending.andThen_shift n (h' limit) _

theorem Shifts.either (h : Shifts n first first') (h' : Shifts n second second') :
    Shifts n (either first second) (either first' second') := by
  intro limit pos groups
  unfold Meaning.either
  rw [h limit pos groups, h' limit pos groups, List.map_append]

theorem Shifts.choose (h : Shifts n first first') (h' : Shifts n second second') (lazy : Bool) :
    Shifts n (choose lazy first second) (choose lazy first' second') := by
  unfold Meaning.choose
  split
  · exact h'.either h
  · exact h.either h'

theorem Shifts.capture (h : Shifts n body body') (key : GroupKey) :
    Shifts n (capture key body) (capture key body') := by
  intro limit pos groups
  unfold Meaning.capture
  rw [← Groups.shift_opened, h limit pos]
  apply Ending.andThen_shift
  intro stop groups'
  rw [← Groups.shift_closed]
  rfl

theorem Shifts.atomic (h : Shifts n body body') : Shifts n (atomic body) (atomic body') := by
  intro limit pos groups
  unfold Meaning.atomic
  rw [h limit pos groups, List.map_take]

/-- A lookaround finds an ending that has been moved just if it finds the ending. -/
theorem looking_shift (n : Nat) (negated : Bool) (endings : List Ending) (pos : Nat)
    (groups : Groups) :
    looking negated (endings.map (Ending.shift n)) (n + pos) (groups.shift n) =
      (looking negated endings pos groups).map (Ending.shift n) := by
  unfold looking
  rw [List.head?_map]
  match endings.head? with
  | none => cases negated <;> rfl
  | some (.error fault) => rfl
  | some (.ok (stop, groups')) => cases negated <;> rfl

section

variable (h : Subject.Rest before whole rest)

include h

theorem shifts_char (p : Char → Bool) :
    Shifts (byteLength before) (char whole p) (char rest p) := by
  intro limit pos groups
  have hlimit : byteLength before + limit ≤ byteLength before + pos ↔ limit ≤ pos := by
    omega
  unfold Meaning.char
  simp only [h.charAt?, hlimit]
  split
  · rfl
  split
  · rfl
  split
  · rw [Nat.add_assoc]
    rfl
  · rfl

theorem shifts_chars (ps : List (Char → Bool)) :
    Shifts (byteLength before) (chars whole ps) (chars rest ps) := by
  induction ps with
  | nil => exact shifts_skip
  | cons p ps ih => exact (shifts_char h p).seq ih

/-- An assertion that asks only for what follows. -/
theorem shifts_look {l : Look} (hl : ∀ b b' after, l.holds b after = l.holds b' after) :
    Shifts (byteLength before) (look whole l) (look rest l) := by
  intro limit pos groups
  have hholds : l.holdsAt whole (byteLength before + pos) = l.holdsAt rest pos := by
    unfold Look.holdsAt
    rw [Category.after_rest h]
    exact hl _ _ _
  unfold Meaning.look
  rw [hholds]
  split
  · rfl
  · rfl

theorem shifts_reference (ignoreCase : Bool) (key : GroupKey) :
    Shifts (byteLength before) (reference whole ignoreCase key)
      (reference rest ignoreCase key) := by
  intro limit pos groups
  unfold Meaning.reference
  rw [Groups.span_shift]
  match (groups key).bind Slot.span with
  | none => rfl
  | some (start, stop) =>
    simp only [Option.map_some, h.slice]
    match rest.slice start stop with
    | .error fault => rfl
    | .ok cs => exact shifts_chars h _ limit pos groups

theorem Shifts.lookAhead (hbody : Shifts (byteLength before) body body') (negated : Bool) :
    Shifts (byteLength before) (lookAround whole .ahead negated body)
      (lookAround rest .ahead negated body') := by
  intro limit pos groups
  show looking negated (body whole.size _ _) _ _ = _
  rw [h.size, hbody rest.size pos groups]
  exact looking_shift _ negated _ pos groups

end

/-! ## Repetition -/

theorem Shifts.copies (hbody : Shifts n body body') (count : Nat) :
    Shifts n (copies body count) (copies body' count) := by
  induction count with
  | zero => exact shifts_skip
  | succ count ih => exact hbody.seq ih

theorem Shifts.optionalCopies (hbody : Shifts n body body') (lazy : Bool) (count : Nat) :
    Shifts n (optionalCopies body lazy count) (optionalCopies body' lazy count) := by
  induction count with
  | zero => exact shifts_skip
  | succ count ih => exact (hbody.seq ih).choose shifts_skip lazy

section

variable (h : Subject.Rest before whole rest) (hbody : Shifts (byteLength before) body body')

include h

/-- An iteration consumes something within the subject just if it does within the rest. -/
theorem advances_iff (pos stop : Nat) :
    (byteLength before + pos < byteLength before + stop ∧ byteLength before + stop ≤ whole.size) ↔
      (pos < stop ∧ stop ≤ rest.size) := by
  rw [h.size]
  omega

include hbody

theorem Shifts.loop (lazy : Bool) :
    Shifts (byteLength before) (loop whole body lazy) (loop rest body' lazy) := by
  intro limit pos groups
  -- Each iteration leaves less of the rest.
  induction hn : rest.size - pos using Nat.strongRecOn generalizing pos groups with
  | ind n ih =>
    have hmore : (Ending.andThen (body (byteLength before + limit) (byteLength before + pos)
          (groups.shift (byteLength before))) fun stop groups =>
        if _h : byteLength before + pos < stop ∧ stop ≤ whole.size then
          Meaning.loop whole body lazy (byteLength before + limit) stop groups else []) =
      (Ending.andThen (body' limit pos groups) fun stop groups =>
        if _h : pos < stop ∧ stop ≤ rest.size then
          Meaning.loop rest body' lazy limit stop groups else []).map
        (Ending.shift (byteLength before)) := by
      rw [hbody limit pos groups]
      apply Ending.andThen_shift
      intro stop groups'
      by_cases hstop : pos < stop ∧ stop ≤ rest.size
      · rw [dif_pos hstop, dif_pos ((advances_iff h pos stop).2 hstop)]
        exact ih (rest.size - stop) (by omega) stop groups' rfl
      · rw [dif_neg hstop, dif_neg fun hstop' => hstop ((advances_iff h pos stop).1 hstop')]
        rfl
    unfold Meaning.loop
    simp only [hmore]
    cases lazy with
    | true => rfl
    | false =>
      show _ ++ [_] = List.map _ (_ ++ [_])
      rw [List.map_append]
      rfl

theorem Shifts.repeated (min : Nat) (max : Option Nat) (lazy : Bool) :
    Shifts (byteLength before) (repeated whole body min max lazy)
      (repeated rest body' min max lazy) := by
  apply Shifts.seq (hbody.copies min)
  cases max with
  | none => exact hbody.loop h lazy
  | some max => exact hbody.optionalCopies lazy (max - min)

/-- First endings, one after the other, are moved. -/
theorem Shifts.exhaust (limit : Nat) (max : Option Nat) (count pos : Nat) (groups : Groups) :
    exhaust whole body (byteLength before + limit) max count (byteLength before + pos)
        (groups.shift (byteLength before)) =
      ((exhaust rest body' limit max count pos groups).map fun (count, stop, groups) =>
        (count, byteLength before + stop, groups.shift (byteLength before))).mapError
          (Fault.shift (byteLength before)) := by
  fun_induction Meaning.exhaust rest body' limit max count pos groups with
  | case1 count pos groups hmax =>
    rw [Meaning.exhaust, if_pos hmax]
    rfl
  | case2 count pos groups hmax hhead =>
    rw [Meaning.exhaust, if_neg hmax, hbody limit pos groups, List.head?_map, hhead]
    rfl
  | case3 count pos groups hmax fault hhead =>
    rw [Meaning.exhaust, if_neg hmax, hbody limit pos groups, List.head?_map, hhead]
    rfl
  | case4 count pos groups hmax stop groups' hhead hstop ih =>
    rw [Meaning.exhaust, if_neg hmax, hbody limit pos groups, List.head?_map, hhead]
    show dite _ _ _ = _
    rw [dif_pos ((advances_iff h pos stop).2 hstop)]
    exact ih
  | case5 count pos groups hmax stop groups' hhead hstop =>
    rw [Meaning.exhaust, if_neg hmax, hbody limit pos groups, List.head?_map, hhead]
    show dite _ _ _ = _
    rw [dif_neg fun hstop' => hstop ((advances_iff h pos stop).1 hstop')]
    rfl

theorem Shifts.possessive (min : Nat) (max : Option Nat) :
    Shifts (byteLength before) (possessive whole body min max) (possessive rest body' min max) := by
  intro limit pos groups
  unfold Meaning.possessive
  rw [hbody.exhaust h limit max 0 pos groups]
  match Meaning.exhaust rest body' limit max 0 pos groups with
  | .error fault => rfl
  | .ok (count, stop, groups') =>
    show (if min ≤ count then _ else _) = List.map _ (if min ≤ count then _ else _)
    split
    · rfl
    · rfl

end

end Meaning

/-! ## Patterns -/

namespace Pattern

mutual

/-- Whether a pattern asks for what comes before: by a lookbehind, by `\b` or `\B`, or by `^`. -/
def looksBack : Pattern → Bool
  | text _ | oneOf _ | reference _ => false
  | assert assertion => assertion != .inputEnd
  | concat parts => lookBack parts
  | alt branches => lookBack branches
  | lookAround direction _ body => direction == .behind || looksBack body
  | repeated body _ _ _ | withFlags _ body | atomic body | capture _ body => looksBack body

/-- Whether one of the patterns asks for what comes before. -/
def lookBack : List Pattern → Bool
  | [] => false
  | part :: parts => looksBack part || lookBack parts

end

/-- The end of the input is told by what follows. -/
theorem holds_inputEnd (o : Options) (b b' after : Category) :
    (Assertion.inputEnd.look o).holds b after = (Assertion.inputEnd.look o).holds b' after := by
  show (if o.multiline then Look.lineEnd else .textEnd).holds b after =
    (if o.multiline then Look.lineEnd else .textEnd).holds b' after
  split
  · rfl
  · rfl

open Meaning

variable {before : List Char} {whole rest : Subject}

mutual

/-- Behind a prefix a pattern that does not look back has the endings that it has in the rest. -/
theorem shifts_meaning (h : Subject.Rest before whole rest) (o : Options) (base : Nat) :
    (p : Pattern) → p.looksBack = false →
      Shifts (byteLength before) (p.meaning whole o base) (p.meaning rest o base)
  | text cs, _ => shifts_chars h _
  | concat parts, hp => shifts_meaningAll h o base parts hp
  | alt branches, hp => shifts_meaningAny h o base branches hp
  | repeated body min max mode, hp => by
    have hbody := shifts_meaning h o base body hp
    unfold meaning
    simp only
    split
    · exact hbody.possessive h min max
    · exact hbody.repeated h min max _
  | oneOf set, _ => shifts_char h _
  | assert assertion, hp => by
    have hend : assertion = .inputEnd := by simpa [looksBack] using hp
    subst hend
    exact shifts_look h (holds_inputEnd o)
  | withFlags flags body, hp => shifts_meaning h (o.overlay flags) base body hp
  | lookAround direction negated body, hp => by
    have hbody : (direction == .behind) = false ∧ body.looksBack = false := by
      simpa [looksBack] using hp
    cases direction with
    | ahead => exact (shifts_meaning h o base body hbody.2).lookAhead h negated
    | behind => cases hbody.1
  | atomic body, hp => (shifts_meaning h o base body hp).atomic
  | capture (some name) body, hp => (shifts_meaning h o base body hp).capture (.name name)
  | capture none body, hp => (shifts_meaning h o (base + 1) body hp).capture (.index (base + 1))
  | reference group, _ => shifts_reference h o.ignoreCase group

theorem shifts_meaningAll (h : Subject.Rest before whole rest) (o : Options) (base : Nat) :
    (parts : List Pattern) → lookBack parts = false →
      Shifts (byteLength before) (meaningAll whole o base parts) (meaningAll rest o base parts)
  | [], _ => shifts_skip
  | part :: parts, hp => by
    have hparts : part.looksBack = false ∧ lookBack parts = false := by
      simpa [lookBack] using hp
    exact (shifts_meaning h o base part hparts.1).seq
      (shifts_meaningAll h o (base + numbered part) parts hparts.2)

theorem shifts_meaningAny (h : Subject.Rest before whole rest) (o : Options) (base : Nat) :
    (branches : List Pattern) → lookBack branches = false →
      Shifts (byteLength before) (meaningAny whole o base branches)
        (meaningAny rest o base branches)
  | [], _ => fun _ _ _ => rfl
  | branch :: branches, hp => by
    have hbranches : branch.looksBack = false ∧ lookBack branches = false := by
      simpa [lookBack] using hp
    exact (shifts_meaning h o base branch hbranches.1).either
      (shifts_meaningAny h o (base + numbered branch) branches hbranches.2)

end

end Pattern

end RegexEngine
