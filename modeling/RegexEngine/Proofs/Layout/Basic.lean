import RegexEngine.Proofs.Meaning.Basic
import RegexEngine.Proofs.Search.Verdict

/-!
# How a pattern lies in an automaton

The layout of a pattern says which states lead from a state to another one so that
what lies between them is the pattern.  It is a relation on a finished automaton and
is defined by recursion on the pattern, with one combinator for each construct, as the
meaning of a pattern is.

* `Layout` has the combinators.
* `Layout.Isolated` is a fragment that other states refer to.
* `Pattern.layout` puts the combinators together.
-/

namespace RegexEngine

/-- How something lies in an automaton, from the state `start` to the state `exit`.  A
way that does not go back has at most `rank` states, without `exit`, and the loops are
those from `lo` on and below `hi`. -/
abbrev Layout := Site → (rank lo hi start exit : Nat) → Prop

namespace Layout

/-- Nothing. -/
def skip : Layout := fun site rank lo hi start exit =>
  lo = hi ∧ (start = exit ∧ rank = 0 ∨
    site.automaton.states[start]? = some { epsilons := [exit] } ∧ rank = 1)

/-- One after the other. -/
def seq (first second : Layout) : Layout := fun site rank lo hi start exit =>
  ∃ rank₁ rank₂ mid next, rank = rank₁ + rank₂ ∧ lo ≤ mid ∧
    first site rank₁ lo mid start next ∧ second site rank₂ mid hi next exit

/-- A transition. -/
def step (guard : Guard) : Layout := fun site rank lo hi start exit =>
  lo = hi ∧ rank = 1 ∧ site.automaton.states[start]? = some { transition := some ⟨guard, exit⟩ }

/-- A chain of transitions that consume one character each. -/
def links : List CharSet → Layout
  | [] => fun _ rank lo hi start exit => lo = hi ∧ rank = 0 ∧ start = exit
  | set :: sets => seq (step (.oneOf set)) (links sets)

/-- Characters.  Without case variants they may be consumed at once. -/
def text (ignoreCase : Bool) (chars : List Char) : Layout := fun site rank lo hi start exit =>
  if chars = [] then skip site rank lo hi start exit
  else if ignoreCase then
    links (chars.map (Automaton.Build.charSet true)) site rank lo hi start exit
  else lo = hi ∧ rank = chars.length ∧
    ∃ s, site.automaton.states[start]? = some s ∧ site.automaton.ReadsText s chars exit

/-- A group. -/
def capture (key : GroupKey) (body : Layout) : Layout := fun site rank lo hi start exit =>
  ∃ inner slot first close, rank = inner + 2 ∧ site.tracked ∧
    site.automaton.slot? key = some slot ∧
    site.automaton.states[start]? = some { action := .capture slot first close none } ∧
    body site inner lo hi first close ∧
    site.automaton.states[close]? = some { action := .captureClose slot exit }

/-- The text of a group once more. -/
def reference (ignoreCase : Bool) (key : GroupKey) : Layout := fun site rank lo hi start exit =>
  lo = hi ∧ rank = 1 ∧ site.automaton.states[start]? =
    some { action := .reference key (site.automaton.slot? key) ignoreCase exit }

/-! ## Fragments -/

/-- A fragment of which a state of this run may make use. -/
structure Isolated (body : Layout) (site : Site) (id : Nat) (f : Automaton.Fragment) (lo hi : Nat) :
    Prop where
  /-- The fragment exists. -/
  fragment : site.automaton.fragments[id]? = some f
  /-- It is nested in this run. -/
  nested : id < site.nested
  /-- If it has groups then so has this run. -/
  tracked : f.captures → site.tracked
  /-- Its loops are those of the layout. -/
  owns : ∀ loop, site.owns id loop ↔ lo ≤ loop ∧ loop < hi
  /-- Its loops are loops of this run. -/
  own : ∀ loop, site.owns id loop → site.own loop
  /-- A match ends in its accepting state. -/
  accept : site.automaton.states[f.accept]? = some { accepting := true }
  /-- The body leads from its start to its accepting state. -/
  body : ∃ rank, rank ≤ site.automaton.states.size ∧
    body (site.inner id f) rank lo hi f.start f.accept

/-- An action that needs a fragment. -/
def around (body : Layout) (action : Nat → Nat → Action) : Layout :=
  fun site rank lo hi start exit => ∃ id f, rank = 1 ∧
    site.automaton.states[start]? = some { action := action id exit } ∧
    body.Isolated site id f lo hi

/-! ## Repetition -/

/-- `n` times. -/
def copies (body : Layout) : Nat → Layout
  | 0 => skip
  | n + 1 => seq body (copies body n)

/-- Up to `n` times.  Each time can be the last. -/
def optionalCopies (body : Layout) (lazy : Bool) : Nat → Layout
  | 0 => skip
  | n + 1 => fun site rank lo hi start exit =>
    ∃ rank' first, rank = rank' + 1 ∧ first ≠ exit ∧
      site.automaton.states[start]? = some { epsilons := [first, exit], lazy } ∧
      seq body (optionalCopies body lazy n) site rank' lo hi first exit

/-- Any number of times. -/
def loop (body : Layout) (lazy : Bool) : Layout := fun site rank lo hi start exit =>
  ∃ inner first back, rank = 1 ∧ inner < site.automaton.states.size ∧
    lo < hi ∧ lo < site.automaton.loopCount ∧ site.guarded lo ∧ first ≠ exit ∧
    site.automaton.states[start]? =
      some { epsilons := [first, exit], lazy, loopHead := some lo } ∧
    body site inner (lo + 1) hi first back ∧
    site.automaton.states[back]? = some { epsilons := [start], loopBack := some lo }

/-- From `min` to `max` times. -/
def repeated (body : Layout) (min : Nat) (max : Option Nat) (lazy : Bool) : Layout :=
  seq (copies body min)
    (match max with
    | none => loop body lazy
    | some max => optionalCopies body lazy (max - min))

/-! ## Alternatives -/

/-- How alternatives lie in an automaton, each from a state of its own. -/
abbrev Branches := Site → (starts : List Nat) → (rank lo hi exit : Nat) → Prop

/-- No alternatives. -/
def Branches.nil : Branches := fun _ starts rank lo hi _ => starts = [] ∧ rank = 0 ∧ lo = hi

/-- One more alternative. -/
def Branches.cons (branch : Layout) (branches : Branches) : Branches :=
  fun site starts rank lo hi exit =>
    ∃ rank₁ rank₂ mid first others, starts = first :: others ∧ first ∉ others ∧
      rank = rank₁ + rank₂ ∧ lo ≤ mid ∧ branch site rank₁ lo mid first exit ∧
      branches site others rank₂ mid hi exit

/-- One of several alternatives. -/
def alt (branches : Branches) : Layout := fun site rank lo hi start exit =>
  ∃ rank' starts, rank = rank' + 1 ∧ site.automaton.states[start]? = some { epsilons := starts } ∧
    branches site starts rank' lo hi exit

end Layout

/-! ## Patterns -/

namespace Pattern

mutual

/-- The layout of a pattern under given options, where `base` groups have been
numbered before. -/
def layout (o : Options) (base : Nat) : Pattern → Layout
  | text cs => .text o.ignoreCase cs
  | concat parts => layoutAll o base parts
  | alt branches => .alt (layoutAny o base branches)
  | repeated body min max mode =>
    if mode = .possessive then .around (layout o base body) (.possessive · min max)
    else .repeated (layout o base body) min max (mode == .lazy)
  | oneOf set => .step (.oneOf (Automaton.Build.classSet o set))
  | assert assertion => .step (.look (assertion.look o))
  | withFlags flags body => layout (o.overlay flags) base body
  | lookAround direction negated body =>
    .around (layout o base body) (.lookAround direction negated)
  | atomic body => .around (layout o base body) .atomic
  | capture (some name) body => .capture (.name name) (layout o base body)
  | capture none body => .capture (.index (base + 1)) (layout o (base + 1) body)
  | reference group => .reference o.ignoreCase group

/-- The layout of patterns, one after the other. -/
def layoutAll (o : Options) (base : Nat) : List Pattern → Layout
  | [] => .skip
  | part :: parts => .seq (layout o base part) (layoutAll o (base + numbered part) parts)

/-- The layout of one of several patterns. -/
def layoutAny (o : Options) (base : Nat) : List Pattern → Layout.Branches
  | [] => .nil
  | branch :: branches => .cons (layout o base branch)
      (layoutAny o (base + numbered branch) branches)

end

end Pattern

end RegexEngine
