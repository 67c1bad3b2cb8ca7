import RegexEngine.Search.Registers
import RegexEngine.Unicode.CaseFolding

/-!
# Steps of a search

`Trial.step` follows the action or the transition of one state.  A state whose
action needs a fragment leaves running it to a `FragmentRunner`.

A `Window` limits a search: nothing is consumed from its limit on, and it may
prescribe where a match has to end.
-/

namespace RegexEngine

/-- What limits a search. -/
structure Window where
  /-- Nothing is consumed from here on. -/
  limit : Nat
  /-- Where the match has to end. -/
  mustEnd : Option Nat := none
deriving DecidableEq, Repr

/-- Whether a match may end at `pos`. -/
def Window.mayEnd (w : Window) (pos : Nat) : Bool :=
  w.mustEnd.all (· == pos)

/-- An automaton that is tried on a text. -/
structure Trial where
  /-- The automaton that is followed. -/
  automaton : Automaton
  /-- The text that it is tried on. -/
  text : Subject

/-- Runs a fragment, given by its number, from a position to the end of its first
match. -/
abbrev FragmentRunner := Window → Nat → Nat → Search (Option Nat)

namespace Trial

/-- The state of the given number. -/
def state (t : Trial) (id : Nat) : Search Automaton.State :=
  match t.automaton.states[id]? with
  | some s => return s
  | none => throw .missingState

/-- The fragment of the given number. -/
def fragment (t : Trial) (id : Nat) : Search Automaton.Fragment :=
  match t.automaton.fragments[id]? with
  | some f => return f
  | none => throw .missingState

/-- The character at `pos`, unless the limit is reached. -/
def nextChar (t : Trial) (limit pos : Nat) : Search (Option Char) := do
  if limit ≤ pos then return none
  t.text.checkBoundary pos
  return t.text.charAt? pos

/-- The end of the longest match of a deterministic automaton. -/
def runDfa (t : Trial) (id pos limit : Nat) : Search (Option Nat) :=
  match t.automaton.dfas[id]? with
  | some d => d.runBounded t.text pos limit
  | none => throw .missingState

/-! ## Texts -/

/-- Whether the subject goes on with the given characters at `pos`. -/
def startsWith (t : Trial) (pos : Nat) : List Char → Bool
  | [] => true
  | c :: chars => t.text.charAt? pos == some c && t.startsWith (pos + c.utf8Size) chars

/-- The end of the given characters, if the subject goes on with them at
`pos`.  Behind the end of the subject there may be no such offset. -/
def literal (t : Trial) (limit : Nat) (chars : List Char) (pos : Nat) :
    Search (Option Nat) := do
  let stop := pos + byteLength chars
  if t.text.size < pos && sizeLimit ≤ stop then throw (.badSlice pos stop)
  if limit < stop then return none
  t.text.checkBoundary pos
  return if t.startsWith pos chars then some stop else none

/-- Whether two characters are alike, but for their case. -/
def sameFolded (expected c : Char) : Bool :=
  c == expected || (CharSet.ofChar expected).caseFolded.test c

/-- The end of the given characters or of their case variants, if the subject
goes on with them at `pos`. -/
def literalFolded (t : Trial) (limit : Nat) : List Char → Nat → Search (Option Nat)
  | [], pos => return some pos
  | expected :: chars, pos => do
    match ← t.nextChar limit pos with
    | none => return none
    | some c =>
      if sameFolded expected c then t.literalFolded limit chars (pos + c.utf8Size)
      else return none

/-- The end of the text of a group once more.  A group that has not been closed
has no text. -/
def reference (t : Trial) (limit : Nat) (slot : Option Nat) (ignoreCase : Bool) (pos : Nat) :
    Search (Option Nat) := do
  let some id := slot | return none
  let some (start, stop) := (← Search.slot id).bind Slot.span | return none
  let chars ← t.text.slice start stop
  if ignoreCase then t.literalFolded limit chars pos else t.literal limit chars pos

/-! ## Fragments -/

/-- Runs a step and puts back the slots if `undo` says so of the result.  Only
fragments with groups change slots. -/
def undoing {α : Type} (captures : Bool) (undo : α → Bool) (step : Search α) :
    Search α := do
  let saved := (← get).slots
  let result ← step
  if captures && undo result then Search.restore saved
  return result

/-- Whether a fragment matches the text that starts at one of the positions and
ends at `pos`. -/
def endsAt (run : FragmentRunner) (captures : Bool) (id pos : Nat) :
    List Nat → Search Bool
  | [] => return false
  | start :: starts => do
    match ← undoing captures (·.isNone) (run ⟨pos, some pos⟩ id start) with
    | some _ => return true
    | none => endsAt run captures id pos starts

/-- Whether a fragment matches on one side of `pos`.  Behind it the shortest
text is tried first. -/
def looksAround (t : Trial) (run : FragmentRunner) (direction : Direction)
    (captures : Bool) (id pos : Nat) : Search Bool :=
  match direction with
  | .ahead => return (← run ⟨t.text.size, none⟩ id pos).isSome
  | .behind => do
    t.text.checkBoundary pos
    endsAt run captures id pos (t.text.boundariesDownFrom pos)

/-- Runs a fragment again and again, until it fails or consumes nothing or the
maximum is reached.  The result is the number of matches and the end of the
last one. -/
def exhaust (t : Trial) (run : FragmentRunner) (limit : Nat) (captures : Bool) (id : Nat)
    (max : Option Nat) (count pos : Nat) : Search (Nat × Nat) := do
  if max.any (· ≤ count) then return (count, pos)
  match ← undoing captures (·.isNone) (run ⟨limit, none⟩ id pos) with
  | none => return (count, pos)
  | some stop =>
    if _h : pos < stop ∧ stop ≤ t.text.size then
      t.exhaust run limit captures id max (count + 1) stop
    else return (count + 1, stop)
termination_by t.text.size - pos

/-! ## Steps -/

/-- Follows a transition. -/
def follow (t : Trial) (limit : Nat) (transition : Transition) (pos : Nat) :
    Search (Option (Nat × Nat)) :=
  match transition.guard with
  | .oneOf set => do
    match ← t.nextChar limit pos with
    | none => return none
    | some c => return if set.test c then some (transition.target, pos + c.utf8Size) else none
  | .look look => do
    t.text.checkBoundary pos
    return if look.holdsAt t.text pos then some (transition.target, pos) else none

/-- Follows the action or the transition of a state.  The result is the next
state and its position. -/
def step (t : Trial) (run : FragmentRunner) (limit : Nat) (s : Automaton.State) (pos : Nat) :
    Search (Option (Nat × Nat)) := do
  match s.action with
  | .none =>
    match s.transition with
    | none => return none
    | some transition => t.follow limit transition pos
  | .text chars next => return (← t.literal limit chars pos).map (next, ·)
  | .capture slot body close dfa =>
    Search.setSlot slot (some { start := pos })
    match dfa with
    | none => return some (body, pos)
    | some dfa => return (← t.runDfa dfa pos limit).map (close, ·)
  | .captureClose slot next =>
    let opened ← Search.slot slot
    Search.setSlot slot (opened.map fun s => { s with stop := some pos })
    return some (next, pos)
  | .reference _ slot ignoreCase next =>
    return (← t.reference limit slot ignoreCase pos).map (next, ·)
  | .lookAround direction negated id next =>
    let captures := (← t.fragment id).captures
    let found ← undoing captures (fun found => !found || negated)
      (t.looksAround run direction captures id pos)
    return if found != negated then some (next, pos) else none
  | .atomic id next => return (← run ⟨limit, none⟩ id pos).map (next, ·)
  | .possessive id min max next =>
    let captures := (← t.fragment id).captures
    let (count, stop) ← t.exhaust run limit captures id max 0 pos
    return if min ≤ count then some (next, stop) else none
  | .dfa dfa next => return (← t.runDfa dfa pos limit).map (next, ·)

end Trial

end RegexEngine
