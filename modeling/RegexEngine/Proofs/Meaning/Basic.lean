import RegexEngine.Automaton.Compile
import RegexEngine.Proofs.CharSet.Folding
import RegexEngine.Search.Step

/-!
# What a pattern matches, in order of preference

The meaning of a pattern at a position is the list of its endings: where it can
end and what the groups hold then, the preferred ending first.  It is defined by
recursion on the pattern, without an automaton.

* `Groups` is what the groups hold, by key.
* `Meaning` has one combinator for each construct.
* `Pattern.meaning` puts them together.  The number of the next group and the
  options come from the context of a pattern.
-/

namespace RegexEngine

/-! ## Groups -/

/-- Where each group was opened and closed, if it was. -/
abbrev Groups := GroupKey → Option Slot

namespace Groups

/-- No group has been opened. -/
def fresh : Groups := fun _ => none

/-- Changes what is recorded of a group. -/
def set (groups : Groups) (key : GroupKey) (slot : Option Slot) : Groups := fun key' =>
  if key' = key then slot else groups key'

/-- A group is opened. -/
def opened (groups : Groups) (key : GroupKey) (pos : Nat) : Groups :=
  groups.set key (some { start := pos })

/-- A group is closed. -/
def closed (groups : Groups) (key : GroupKey) (pos : Nat) : Groups :=
  groups.set key ((groups key).map fun s => { s with stop := some pos })

end Groups

/-- Where a match ends and what the groups hold then, or why there is no answer. -/
abbrev Ending := Except Fault (Nat × Groups)

/-- Goes on from each ending. -/
def Ending.andThen (endings : List Ending) (next : Nat → Groups → List Ending) : List Ending :=
  endings.flatMap fun
    | .error fault => [.error fault]
    | .ok (pos, groups) => next pos groups

/-! ## Combinators -/

/-- The endings of a pattern, the preferred one first.  The arguments are the
limit, from which on nothing is consumed, the position and what the groups
hold. -/
abbrev Meaning := Nat → Nat → Groups → List Ending

namespace Meaning

/-- Nothing. -/
def skip : Meaning := fun _ pos groups => [.ok (pos, groups)]

/-- One after the other. -/
def seq (first second : Meaning) : Meaning := fun limit pos groups =>
  Ending.andThen (first limit pos groups) (second limit)

/-- One or the other. -/
def either (first second : Meaning) : Meaning := fun limit pos groups =>
  first limit pos groups ++ second limit pos groups

/-- One character with a property. -/
def char (text : Subject) (p : Char → Bool) : Meaning := fun limit pos groups =>
  if limit ≤ pos then []
  else
    match text.charAt? pos with
    | none => []
    | some c => if p c then [.ok (pos + c.utf8Size, groups)] else []

/-- Characters with properties, one after the other. -/
def chars (text : Subject) : List (Char → Bool) → Meaning
  | [] => skip
  | p :: ps => seq (char text p) (chars text ps)

/-- Nothing, where an assertion holds. -/
def look (text : Subject) (look : Look) : Meaning := fun _ pos groups =>
  if look.holdsAt text pos then [.ok (pos, groups)] else []

/-- What `body` consumes is recorded. -/
def capture (key : GroupKey) (body : Meaning) : Meaning := fun limit pos groups =>
  Ending.andThen (body limit pos (groups.opened key pos)) fun stop groups =>
    [.ok (stop, groups.closed key stop)]

/-- The characters of a text once more, or case variants of them. -/
def again (text : Subject) (ignoreCase : Bool) (cs : List Char) : Meaning :=
  chars text (cs.map fun expected c =>
    if ignoreCase then decide (CaseFolding.Variants c expected) else c == expected)

/-- The text of a group once more.  A group that has not been closed has no text. -/
def reference (text : Subject) (ignoreCase : Bool) (key : GroupKey) : Meaning :=
  fun limit pos groups =>
    match (groups key).bind Slot.span with
    | none => []
    | some (start, stop) =>
      match text.slice start stop with
      | .error fault => [.error fault]
      | .ok cs => again text ignoreCase cs limit pos groups

/-! ## Repetition -/

/-- `n` times. -/
def copies (body : Meaning) : Nat → Meaning
  | 0 => skip
  | n + 1 => seq body (copies body n)

/-- Prefers one of two. -/
def choose (lazy : Bool) (more stop : Meaning) : Meaning :=
  if lazy then either stop more else either more stop

/-- Up to `n` times. -/
def optionalCopies (body : Meaning) (lazy : Bool) : Nat → Meaning
  | 0 => skip
  | n + 1 => choose lazy (seq body (optionalCopies body lazy n)) skip

/-- Any number of times.  An iteration has to consume something. -/
def loop (text : Subject) (body : Meaning) (lazy : Bool) (limit pos : Nat) (groups : Groups) :
    List Ending :=
  let more := Ending.andThen (body limit pos groups) fun stop groups =>
    if _h : pos < stop ∧ stop ≤ text.size then loop text body lazy limit stop groups else []
  if lazy then .ok (pos, groups) :: more else more ++ [.ok (pos, groups)]
termination_by text.size - pos

/-- From `min` to `max` times. -/
def repeated (text : Subject) (body : Meaning) (min : Nat) (max : Option Nat) (lazy : Bool) :
    Meaning :=
  seq (copies body min)
    (match max with
    | none => loop text body lazy
    | some max => optionalCopies body lazy (max - min))

/-! ## First endings -/

/-- The first ending only. -/
def atomic (body : Meaning) : Meaning := fun limit pos groups =>
  (body limit pos groups).take 1

/-- First endings, one after the other, until there is none or nothing is consumed
or the maximum is reached.  The result is how many there were, and the last. -/
def exhaust (text : Subject) (body : Meaning) (limit : Nat) (max : Option Nat)
    (count pos : Nat) (groups : Groups) : Except Fault (Nat × Nat × Groups) :=
  if max.any (· ≤ count) then .ok (count, pos, groups)
  else
    match (body limit pos groups).head? with
    | none => .ok (count, pos, groups)
    | some (.error fault) => .error fault
    | some (.ok (stop, groups)) =>
      if _h : pos < stop ∧ stop ≤ text.size then
        exhaust text body limit max (count + 1) stop groups
      else .ok (count + 1, stop, groups)
termination_by text.size - pos

/-- As many first endings as there are, but at least `min`. -/
def possessive (text : Subject) (body : Meaning) (min : Nat) (max : Option Nat) : Meaning :=
  fun limit pos groups =>
    match exhaust text body limit max 0 pos groups with
    | .error fault => [.error fault]
    | .ok (count, stop, groups) => if min ≤ count then [.ok (stop, groups)] else []

/-- Nothing, if there is an ending, or if there is none.  Groups are kept from the
first ending only. -/
def looking (negated : Bool) (endings : List Ending) (pos : Nat) (groups : Groups) :
    List Ending :=
  match endings.head? with
  | some (.error fault) => [.error fault]
  | some (.ok (_, groups)) => if negated then [] else [.ok (pos, groups)]
  | none => if negated then [.ok (pos, groups)] else []

/-- Whether an ending ends here.  A fault is kept. -/
def endsHere (pos : Nat) : Ending → Bool
  | .error _ => true
  | .ok (stop, _) => stop == pos

/-- Nothing, where `body` matches on a side, or where it does not.  Behind a
position the shortest text is tried first. -/
def lookAround (text : Subject) (direction : Direction) (negated : Bool) (body : Meaning) :
    Meaning := fun _ pos groups =>
  match direction with
  | .ahead => looking negated (body text.size pos groups) pos groups
  | .behind =>
    let endings := (text.boundariesDownFrom pos).flatMap fun start =>
      (body pos start groups).filter (endsHere pos)
    looking negated endings pos groups

end Meaning

/-! ## Patterns -/

namespace Pattern

mutual

/-- How many groups of a pattern are numbered.  What is repeated no times at all
has none. -/
def numbered : Pattern → Nat
  | text _ | oneOf _ | assert _ | reference _ => 0
  | concat parts => numberedAll parts
  | alt branches => numberedAll branches
  | repeated body _ max mode =>
    if max = some 0 ∧ mode ≠ .possessive then 0 else numbered body
  | withFlags _ body | lookAround _ _ body | atomic body => numbered body
  | capture none body => numbered body + 1
  | capture (some _) body => numbered body

/-- How many groups of the patterns are numbered. -/
def numberedAll : List Pattern → Nat
  | [] => 0
  | part :: parts => numbered part + numberedAll parts

end

mutual

/-- The meaning of a pattern under given options, where `base` groups have been
numbered before. -/
def meaning (subject : Subject) (o : Options) (base : Nat) : Pattern → Meaning
  | text cs => .chars subject (cs.map fun c => (Automaton.Build.charSet o.ignoreCase c).test)
  | concat parts => meaningAll subject o base parts
  | alt branches => meaningAny subject o base branches
  | repeated body min max mode =>
    let once := meaning subject o base body
    if mode = .possessive then .possessive subject once min max
    else .repeated subject once min max (mode == .lazy)
  | oneOf set => .char subject (Automaton.Build.classSet o set).test
  | assert assertion => .look subject (assertion.look o)
  | withFlags flags body => meaning subject (o.overlay flags) base body
  | lookAround direction negated body =>
    .lookAround subject direction negated (meaning subject o base body)
  | atomic body => .atomic (meaning subject o base body)
  | capture (some name) body => .capture (.name name) (meaning subject o base body)
  | capture none body => .capture (.index (base + 1)) (meaning subject o (base + 1) body)
  | reference group => .reference subject o.ignoreCase group

/-- The meaning of patterns, one after the other. -/
def meaningAll (subject : Subject) (o : Options) (base : Nat) : List Pattern → Meaning
  | [] => .skip
  | part :: parts =>
    .seq (meaning subject o base part) (meaningAll subject o (base + numbered part) parts)

/-- The meaning of one of several patterns. -/
def meaningAny (subject : Subject) (o : Options) (base : Nat) : List Pattern → Meaning
  | [] => fun _ _ _ => []
  | branch :: branches =>
    .either (meaning subject o base branch)
      (meaningAny subject o (base + numbered branch) branches)

end

end Pattern

end RegexEngine
