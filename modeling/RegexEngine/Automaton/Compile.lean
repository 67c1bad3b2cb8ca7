import RegexEngine.Automaton.Basic
import RegexEngine.Pattern.Error
import RegexEngine.Unicode.CaseFolding

/-!
# Automata of patterns

`Automaton.compile` lays out the states of an automaton for a pattern.  Each
part of the pattern is compiled from a given state, which leads nowhere yet, to
an accepting state, which is given or made.

A repetition makes copies of its body.  The copies are numbered alike, so a
group has one number however often it is copied.
-/

namespace RegexEngine

namespace Automaton

/-! ## Drafts -/

/-- What has been compiled so far. -/
structure Draft where
  /-- The states. -/
  states : Array State := #[]
  /-- The fragments. -/
  fragments : Array Fragment := #[]
  /-- The regions, the last one first. -/
  regions : List Region := []
  /-- The number of slots. -/
  slotCount : Nat := 1
  /-- The slots of the groups that have a number. -/
  groups : Array Nat := #[0]
  /-- The slots of the groups that have a name. -/
  names : List (String × Nat) := []
  /-- The number of loops. -/
  loopCount : Nat := 0
  /-- The number of the last group. -/
  lastGroup : Nat := 0
  /-- How many captures have been compiled. -/
  captureCount : Nat := 0

/-- A step of the compilation. -/
abbrev Build := StateT Draft (Except PatternError)

namespace Build

/-- Makes a state. -/
def addState : Build Nat :=
  modifyGet fun d => (d.states.size, { d with states := d.states.push {} })

/-- The given state, or a new one. -/
def target (accept : Option Nat) : Build Nat :=
  match accept with
  | some id => return id
  | none => addState

/-- Changes a state. -/
def update (id : Nat) (f : State → State) : Build Unit :=
  modify fun d => { d with states := d.states.modify id f }

/-- Gives a state a transition. -/
def setTransition (id : Nat) (guard : Guard) (target : Nat) : Build Unit :=
  update id fun s => { s with transition := some ⟨guard, target⟩ }

/-- Gives a state an action. -/
def setAction (id : Nat) (action : Action) : Build Unit :=
  update id fun s => { s with action }

/-- Gives a state one more epsilon, after the others. -/
def addEpsilon (id target : Nat) : Build Unit :=
  update id fun s => { s with epsilons := s.epsilons ++ [target] }

/-- Lets the groups be numbered from `base` on. -/
def setLastGroup (base : Nat) : Build Unit :=
  modify fun d => { d with lastGroup := base }

/-- Makes a slot. -/
def addSlot : Build Nat :=
  modifyGet fun d => (d.slotCount, { d with slotCount := d.slotCount + 1 })

/-- The slot of the next group, which is made if the group is new. -/
def groupSlot : Option String → Build Nat
  | some name => do
    match (← get).names.lookup name with
    | some slot => return slot
    | none =>
      let slot ← addSlot
      modify fun d => { d with names := d.names ++ [(name, slot)] }
      return slot
  | none => do
    modify fun d => { d with lastGroup := d.lastGroup + 1 }
    let d ← get
    match d.groups[d.lastGroup]? with
    | some slot => return slot
    | none =>
      let slot ← addSlot
      modify fun d => { d with groups := d.groups.push slot }
      return slot

/-- Makes a loop. -/
def addLoop : Build Nat :=
  modifyGet fun d => (d.loopCount, { d with loopCount := d.loopCount + 1 })

/-- Notes a region. -/
def addRegion (region : Region) : Build Unit :=
  modify fun d => { d with regions := region :: d.regions }

/-! ## Parts of patterns -/

/-- How a part is compiled: from a state to an accepting state, which is made if
none is given.  The result is the accepting state. -/
abbrev Part := Nat → Option Nat → Build Nat

/-- Leads on without asking for anything. -/
def skip : Part
  | start, some accept => do
    addEpsilon start accept
    return accept
  | start, none => return start

/-- Consumes one character of the set. -/
def oneOf (set : CharSet) : Part := fun start accept => do
  let exit ← target accept
  setTransition start (.oneOf set) exit
  return exit

/-- Asserts something. -/
def look (look : Look) : Part := fun start accept => do
  let exit ← target accept
  setTransition start (.look look) exit
  return exit

/-- The set of the characters that match `c`. -/
def charSet (ignoreCase : Bool) (c : Char) : CharSet :=
  if ignoreCase then (CharSet.ofChar c).caseFolded else .ofChar c

/-- Consumes characters by a chain of transitions. -/
def chain (ignoreCase : Bool) : List Char → Part
  | [] => skip
  | [c] => oneOf (charSet ignoreCase c)
  | c :: chars => fun start accept => do
    let next ← oneOf (charSet ignoreCase c) start none
    chain ignoreCase chars next accept

/-- Consumes characters.  Without case variants it is also done in one step. -/
def text (ignoreCase : Bool) (chars : List Char) : Part := fun start accept => do
  let exit ← chain ignoreCase chars start accept
  if !chars.isEmpty && !ignoreCase then
    setAction start (.text chars exit)
  return exit

/-- The set of the characters that match a class under the given options.  The
set of every character is `.`. -/
def classSet (options : Options) (set : CharSet) : CharSet :=
  let set := if !options.dotAll && set = CharSet.any then .anyButLineTerminators else set
  if options.ignoreCase then set.caseFolded else set

/-- Compiles a part as a fragment of its own, whose number is the result. -/
def isolated (part : Part) : Build Nat := do
  let before := (← get).captureCount
  let start ← addState
  let accept ← addState
  update accept fun s => { s with accepting := true }
  let _ ← part start (some accept)
  let d ← get
  let id := d.fragments.size
  let captures := before < d.captureCount
  set { d with fragments := d.fragments.push { start, accept, captures } }
  addRegion (.fragment id)
  return id

/-- Leads on by an action that needs a fragment. -/
def around (part : Part) (action : Nat → Nat → Action) : Part := fun start accept => do
  let id ← isolated part
  let exit ← target accept
  setAction start (action id exit)
  return exit

/-- Records what a part consumes. -/
def capture (name : Option String) (part : Part) : Part := fun start accept => do
  let slot ← groupSlot name
  modify fun d => { d with captureCount := d.captureCount + 1 }
  let body ← addState
  let close ← addState
  let _ ← part body (some close)
  let exit ← target accept
  setAction close (.captureClose slot exit)
  setAction start (.capture slot body close none)
  addRegion (.capture start)
  return exit

/-- Consumes the text of a group once more. -/
def reference (ignoreCase : Bool) (group : GroupKey) : Part := fun start accept => do
  let exit ← target accept
  setAction start (.reference group none ignoreCase exit)
  return exit

/-! ## Repetition -/

/-- One part `n` times. -/
def copies (part : Part) : Nat → Nat → Build Nat
  | 0, start => return start
  | n + 1, start => do
    let next ← part start none
    copies part n next

/-- Makes a state choose between a body and an exit. -/
def choose (start body exit : Nat) (lazy : Bool) (loop : Option Nat) : Build Unit :=
  update start fun s => { s with epsilons := [body, exit], lazy, loopHead := loop.or s.loopHead }

/-- Up to `n` times a part, and then the exit. -/
def optionalCopies (part : Part) (lazy : Bool) (exit : Nat) : Nat → Nat → Build Unit
  | 0, _ => return ()
  | n + 1, start => do
    let body ← addState
    let next ← part body (if n = 0 then some exit else none)
    choose start body exit lazy none
    optionalCopies part lazy exit n next

/-- Any number of times a part, and then the exit. -/
def loop (part : Part) (lazy : Bool) (exit start : Nat) : Build Unit := do
  let id ← addLoop
  let body ← addState
  let back ← addState
  let _ ← part body (some back)
  update back fun s => { s with epsilons := s.epsilons ++ [start], loopBack := some id }
  choose start body exit lazy (some id)

/-- From `min` to `max` times a part. -/
def repeated (part : Part) (min : Nat) (max : Option Nat) (lazy : Bool) : Part :=
  fun start accept => do
    let base := (← get).lastGroup
    let copy : Part := fun start accept => do
      setLastGroup base
      part start accept
    if max = some min ∧ 0 < min then
      let last ← copies copy (min - 1) start
      copy last accept
    else
      let head ← copies copy min start
      let exit ← target accept
      match max with
      | none => loop copy lazy exit head
      | some max =>
        if min = max then addEpsilon head exit
        else optionalCopies copy lazy exit (max - min) head
      return exit

end Build

/-! ## Patterns -/

open Build in
mutual

/-- Compiles a pattern. -/
def compilePart (options : Options) : Pattern → Build.Part
  | .text chars => text options.ignoreCase chars
  | .concat parts => compileConcat options parts
  | .alt branches => fun start accept => do
    let exit ← target accept
    compileAlt options branches start exit
    return exit
  | .repeated body min max mode => fun start accept => do
    match max with
    | some max => if max < min then throw (.invalidRepetition min max)
    | none => pure ()
    if mode = .possessive then
      around (compilePart options body) (.possessive · min max) start accept
    else
      Build.repeated (compilePart options body) min max (mode == .lazy) start accept
  | .oneOf set => oneOf (classSet options set)
  | .assert assertion => look (assertion.look options)
  | .withFlags flags body => compilePart (options.overlay flags) body
  | .lookAround direction negated body =>
    around (compilePart options body) (.lookAround direction negated)
  | .atomic body => around (compilePart options body) .atomic
  | .capture name body => capture name (compilePart options body)
  | .reference group => reference options.ignoreCase group

/-- Compiles parts, one after the other. -/
def compileConcat (options : Options) : List Pattern → Build.Part
  | [] => skip
  | [part] => compilePart options part
  | part :: parts => fun start accept => do
    let next ← compilePart options part start none
    compileConcat options parts next accept

/-- Compiles branches that start at one state and end at another. -/
def compileAlt (options : Options) : List Pattern → Nat → Nat → Build Unit
  | [], _, _ => return ()
  | branch :: branches, start, exit => do
    let first ← addState
    addEpsilon start first
    let _ ← compilePart options branch first (some exit)
    compileAlt options branches start exit

end

/-- Fills in the slot of a reference. -/
def State.resolve (slot? : GroupKey → Option Nat) (s : State) : State :=
  match s.action with
  | .reference group _ ignoreCase next =>
    { s with action := .reference group (slot? group) ignoreCase next }
  | _ => s

/-- The automaton of a draft, with the slots of all references filled in. -/
def Draft.finish (d : Draft) (start accept : Nat) : Automaton :=
  let a : Automaton :=
    { states := d.states, fragments := d.fragments, dfas := #[],
      regions := d.regions.reverse, slotCount := d.slotCount, groups := d.groups,
      names := d.names, loopCount := d.loopCount, start, accept, entry := start }
  { a with states := a.states.map (State.resolve a.slot?) }

/-- The automaton of a pattern, without deterministic automata. -/
def compile (options : Options) (pattern : Pattern) : Except PatternError Automaton := do
  let build : Build (Nat × Nat) := do
    let start ← Build.addState
    let accept ← compilePart options pattern start none
    Build.update accept fun s => { s with accepting := true }
    return (start, accept)
  let ((start, accept), draft) ← build.run {}
  return draft.finish start accept

end Automaton

end RegexEngine
