import RegexEngine.Proofs.Text.Boundary
import RegexEngine.Search.Run

/-!
# Verdicts of a search

What a search finds from a state on depends on the state, the position, the slots
and where the open iterations of loops began.  `Yields` says so without a stack:
a state yields the first verdict of its ways, in order of preference.

* `Verdict` is a match, no match or a fault, and `firstOf` is the first that is
  not "no match".
* `Iterations` are the iterations that are open.  The end of an iteration closes
  it, so what lies behind a loop does not depend on it.
* `Setting` is what does not change during the run of one fragment.
* `Steps` says what the action or the transition of a state does.
* `Yields` says what a state yields.  It counts the states on the longest way.
-/

namespace RegexEngine

/-! ## Verdicts -/

/-- What the slots hold. -/
abbrev Slots := Array (Option Slot)

/-- The end of a match and what the slots hold then. -/
abbrev Verdict := Except Fault (Option (Nat × Slots))

namespace Verdict

/-- No match. -/
abbrev failure : Verdict := .ok none

/-- A match. -/
abbrev success (stop : Nat) (slots : Slots) : Verdict := .ok (some (stop, slots))

/-- The second verdict, if the first is no match. -/
def orElse : Verdict → Verdict → Verdict
  | .ok none, v => v
  | v, _ => v

@[simp] theorem failure_orElse (v : Verdict) : orElse failure v = v := rfl

@[simp] theorem orElse_failure (v : Verdict) : orElse v failure = v := by
  rcases v with _ | _ | _ <;> rfl

@[simp] theorem success_orElse (stop : Nat) (slots : Slots) (v : Verdict) :
    orElse (success stop slots) v = success stop slots := rfl

@[simp] theorem error_orElse (fault : Fault) (v : Verdict) :
    orElse (.error fault) v = .error fault := rfl

theorem orElse_eq_left {v : Verdict} (h : v ≠ failure) (v' : Verdict) : orElse v v' = v := by
  rcases v with _ | _ | _
  · rfl
  · exact absurd rfl h
  · rfl

theorem orElse_assoc (v₁ v₂ v₃ : Verdict) :
    orElse (orElse v₁ v₂) v₃ = orElse v₁ (orElse v₂ v₃) := by
  rcases v₁ with _ | _ | _ <;> rfl

end Verdict

/-- The first verdict that is not "no match". -/
def firstOf (verdicts : List Verdict) : Verdict :=
  verdicts.foldr Verdict.orElse .failure

@[simp] theorem firstOf_nil : firstOf [] = .failure := rfl

@[simp] theorem firstOf_cons (v : Verdict) (vs : List Verdict) :
    firstOf (v :: vs) = v.orElse (firstOf vs) := rfl

theorem firstOf_append (vs vs' : List Verdict) :
    firstOf (vs ++ vs') = (firstOf vs).orElse (firstOf vs') := by
  induction vs with
  | nil => rfl
  | cons v vs ih => rw [List.cons_append, firstOf_cons, firstOf_cons, ih, Verdict.orElse_assoc]

/-! ## Open iterations -/

/-- Where the open iteration of each loop began. -/
abbrev Iterations := Nat → Option Nat

namespace Iterations

/-- No iteration is open. -/
def none : Iterations := fun _ => Option.none

/-- Opens or closes an iteration. -/
def set (its : Iterations) (loop : Nat) (start : Option Nat) : Iterations := fun loop' =>
  if loop' = loop then start else its loop'

@[simp] theorem set_self (its : Iterations) (loop : Nat) (start : Option Nat) :
    its.set loop start loop = start := if_pos rfl

theorem set_ne {its : Iterations} {loop loop' : Nat} {start : Option Nat} (h : loop' ≠ loop) :
    its.set loop start loop' = its loop' := if_neg h

/-- Closing an iteration undoes opening it. -/
theorem set_set {its : Iterations} {loop : Nat} (h : its loop = Option.none) (start : Option Nat) :
    (its.set loop start).set loop Option.none = its := by
  funext loop'
  by_cases hloop : loop' = loop
  · simp [hloop, h]
  · rw [set_ne hloop, set_ne hloop]

/-- Passing a state closes the iteration that it ends. -/
def passing (its : Iterations) (s : Automaton.State) : Iterations :=
  match s.loopBack with
  | Option.none => its
  | some loop => its.set loop Option.none

theorem passing_of_none {its : Iterations} {s : Automaton.State} (h : s.loopBack = Option.none) :
    its.passing s = its := by
  rw [passing, h]

theorem passing_of_some {its : Iterations} {s : Automaton.State} {loop : Nat}
    (h : s.loopBack = some loop) : its.passing s = its.set loop Option.none := by
  rw [passing, h]

/-- Passing a state opens no iteration. -/
theorem of_passing {its : Iterations} {s : Automaton.State} {loop start : Nat}
    (h : its.passing s loop = some start) : its loop = some start := by
  cases hback : s.loopBack with
  | none => rwa [passing_of_none hback] at h
  | some back =>
    rw [passing_of_some hback] at h
    by_cases hloop : loop = back
    · simp [hloop] at h
    · rwa [set_ne hloop] at h

end Iterations

/-! ## Settings -/

/-- What is known about the automaton for the run of one fragment, or of the whole
pattern. -/
structure Site where
  /-- The automaton. -/
  automaton : Automaton
  /-- The loops of each fragment, those of nested fragments included. -/
  owns : Nat → Nat → Prop
  /-- The loops of this run, those of nested fragments included. -/
  own : Nat → Prop
  /-- Whether there are groups in this run. -/
  tracked : Bool
  /-- Only fragments below this one are nested in this run. -/
  nested : Nat
  /-- The states of each fragment. -/
  insides : Nat → Nat → Prop
  /-- The states of this run. -/
  inside : Nat → Prop

/-- What is known for the run of a fragment. -/
def Site.inner (site : Site) (id : Nat) (f : Automaton.Fragment) : Site :=
  { site with own := site.owns id, tracked := f.captures, nested := id, inside := site.insides id }

/-- The loops of the run that are not loops of nested fragments.  Only these are
put back when a way fails. -/
def Site.guarded (site : Site) (loop : Nat) : Prop :=
  site.own loop ∧ ∀ id < site.nested, ¬site.owns id loop

/-- The loops of nested fragments. -/
def Site.scratch (site : Site) (loop : Nat) : Prop :=
  site.own loop ∧ ¬site.guarded loop

/-- What does not change during the run of one fragment, or of the whole pattern. -/
structure Setting extends Site where
  /-- The subject. -/
  text : Subject
  /-- What limits the run. -/
  window : Window
  /-- What running a fragment gives, for a window, a position and slots. -/
  verdicts : Window → Nat → Nat → Slots → Verdict → Prop

/-- The setting of the run of a fragment. -/
def Setting.inner (t : Setting) (id : Nat) (f : Automaton.Fragment) (window : Window) : Setting :=
  { t with toSite := t.toSite.inner id f, window }

/-- A window is sensible if its limit is a boundary and a match that has to end
somewhere has to end at the limit. -/
structure Window.Sensible (w : Window) (text : Subject) : Prop where
  /-- The limit is a boundary. -/
  limit : text.isBoundary w.limit
  /-- A prescribed end is the limit. -/
  mustEnd : ∀ stop, w.mustEnd = some stop → stop = w.limit

/-- A position at which a run may be. -/
structure Setting.Allows (t : Setting) (pos : Nat) : Prop where
  /-- It is a boundary. -/
  boundary : t.text.isBoundary pos
  /-- It is not beyond the limit. -/
  le_limit : pos ≤ t.window.limit

/-- A fragment may run: it is nested in this run. -/
structure Setting.MayRun (t : Setting) (id : Nat) (f : Automaton.Fragment) : Prop where
  /-- The fragment exists. -/
  fragment : t.automaton.fragments[id]? = some f
  /-- It is nested. -/
  nested : id < t.nested
  /-- If it has groups then so has this run. -/
  tracked : f.captures → t.tracked
  /-- Its loops are loops of this run. -/
  own : ∀ loop, t.owns id loop → t.own loop

/-! ## Steps -/

/-- The next character, unless the limit is reached. -/
def Setting.next? (t : Setting) (pos : Nat) : Option Char :=
  if t.window.limit ≤ pos then none else t.text.charAt? pos

/-- The end of characters with given properties, if the subject goes on with them. -/
def Setting.spelled (t : Setting) : List (Char → Bool) → Nat → Option Nat
  | [], pos => some pos
  | p :: ps, pos => do
    let c ← t.next? pos
    if p c then t.spelled ps (pos + c.utf8Size) else none

/-- What a step leads to: the next state, its position and the slots. -/
abbrev Landing := Except Fault (Option (Nat × Nat × Slots))

/-- Goes on in a state where a match ended. -/
def Verdict.landing (next : Nat) : Verdict → Landing
  | .error fault => .error fault
  | .ok none => .ok none
  | .ok (some (stop, slots)) => .ok (some (next, stop, slots))

/-- Goes on where it was, if the fragment matched as it should. -/
def Verdict.looking (negated : Bool) (next pos : Nat) (slots : Slots) : Verdict → Landing
  | .error fault => .error fault
  | .ok none => .ok (if negated then some (next, pos, slots) else none)
  | .ok (some (_, slots)) => .ok (if negated then none else some (next, pos, slots))

/-- A group is opened. -/
def Slots.opened (slots : Slots) (id pos : Nat) : Slots :=
  slots.setIfInBounds id (some { start := pos })

/-- A group is closed. -/
def Slots.closed (slots : Slots) (id pos : Nat) : Slots :=
  slots.setIfInBounds id (slots[id]?.join.map fun s => { s with stop := some pos })

/-- Where the text of a slot ends, if it is read once more. -/
def Setting.reread (t : Setting) (slot : Option Nat) (ignoreCase : Bool) (pos : Nat)
    (slots : Slots) : Except Fault (Option Nat) :=
  match slot.bind fun id => slots[id]?.join.bind Slot.span with
  | none => .ok none
  | some (start, stop) => (t.text.slice start stop).map fun chars =>
    t.spelled (chars.map fun expected c =>
      if ignoreCase then Trial.sameFolded expected c else c == expected) pos

/-- Running a fragment again and again ends with so many matches. -/
inductive Exhausts (t : Setting) (id : Nat) (max : Option Nat) :
    Nat → Nat → Slots → Except Fault (Nat × Nat × Slots) → Prop
  /-- The maximum is reached. -/
  | maximum {count pos slots} (hmax : max.any (· ≤ count)) :
      Exhausts t id max count pos slots (.ok (count, pos, slots))
  /-- The fragment fails. -/
  | failure {count pos slots} (hmax : ¬max.any (· ≤ count))
      (hrun : t.verdicts ⟨t.window.limit, none⟩ id pos slots .failure) :
      Exhausts t id max count pos slots (.ok (count, pos, slots))
  /-- There is no answer. -/
  | fault {count pos slots fault} (hmax : ¬max.any (· ≤ count))
      (hrun : t.verdicts ⟨t.window.limit, none⟩ id pos slots (.error fault)) :
      Exhausts t id max count pos slots (.error fault)
  /-- The fragment consumes nothing. -/
  | empty {count pos slots stop slots'} (hmax : ¬max.any (· ≤ count))
      (hrun : t.verdicts ⟨t.window.limit, none⟩ id pos slots (.success stop slots'))
      (hstop : ¬(pos < stop ∧ stop ≤ t.text.size)) :
      Exhausts t id max count pos slots (.ok (count + 1, stop, slots'))
  /-- The fragment consumes something. -/
  | more {count pos slots stop slots' result} (hmax : ¬max.any (· ≤ count))
      (hrun : t.verdicts ⟨t.window.limit, none⟩ id pos slots (.success stop slots'))
      (hstop : pos < stop ∧ stop ≤ t.text.size) (hallows : t.Allows stop)
      (hrest : Exhausts t id max (count + 1) stop slots' result) :
      Exhausts t id max count pos slots result

/-- What the action or the transition of a state leads to. -/
inductive Steps (t : Setting) (s : Automaton.State) (pos : Nat) (slots : Slots) :
    Landing → Prop
  /-- A class consumes one of its characters. -/
  | char {set target} (haction : s.action.isPlain)
      (htransition : s.transition = some ⟨.oneOf set, target⟩) :
      Steps t s pos slots (.ok ((t.spelled [set.test] pos).map (target, ·, slots)))
  /-- An assertion holds or not. -/
  | look {look target} (haction : s.action.isPlain)
      (htransition : s.transition = some ⟨.look look, target⟩) :
      Steps t s pos slots
        (.ok (if look.holdsAt t.text pos then some (target, pos, slots) else none))
  /-- A group is opened. -/
  | capture {slot body close} (haction : s.action = .capture slot body close none)
      (hslot : slot < slots.size) (htracked : t.tracked) :
      Steps t s pos slots (.ok (some (body, pos, slots.opened slot pos)))
  /-- A group is closed. -/
  | captureClose {slot next} (haction : s.action = .captureClose slot next)
      (hslot : slot < slots.size) (htracked : t.tracked) :
      Steps t s pos slots (.ok (some (next, pos, slots.closed slot pos)))
  /-- The text of a group is consumed once more. -/
  | reference {group slot ignoreCase next}
      (haction : s.action = .reference group slot ignoreCase next)
      (hslot : ∀ id, slot = some id → id < slots.size) :
      Steps t s pos slots ((t.reread slot ignoreCase pos slots).map (·.map (next, ·, slots)))
  /-- A fragment matches what follows, or not. -/
  | lookAhead {negated id next f verdict}
      (haction : s.action = .lookAround .ahead negated id next) (hrun : t.MayRun id f)
      (hverdict : t.verdicts ⟨t.text.size, none⟩ id pos slots verdict) :
      Steps t s pos slots (verdict.looking negated next pos slots)
  /-- A fragment matches what precedes, or not. -/
  | lookBehind {negated id next f} {verdicts : Nat → Verdict}
      (haction : s.action = .lookAround .behind negated id next) (hrun : t.MayRun id f)
      (hverdicts : ∀ start ∈ t.text.boundariesDownFrom pos,
        t.verdicts ⟨pos, some pos⟩ id start slots (verdicts start)) :
      Steps t s pos slots
        ((firstOf ((t.text.boundariesDownFrom pos).map verdicts)).looking negated next pos slots)
  /-- A fragment matches, and only its first match counts. -/
  | atomic {id next f verdict} (haction : s.action = .atomic id next) (hrun : t.MayRun id f)
      (hverdict : t.verdicts ⟨t.window.limit, none⟩ id pos slots verdict) :
      Steps t s pos slots (verdict.landing next)
  /-- A fragment matches as often as it can. -/
  | possessive {id min max next f result} (haction : s.action = .possessive id min max next)
      (hrun : t.MayRun id f) (hexhausts : Exhausts t id max 0 pos slots result) :
      Steps t s pos slots (result.map fun (count, stop, slots) =>
        if min ≤ count then some (next, stop, slots) else none)

/-! ## What a state yields -/

/-- The states on the way from `start` that read the given characters and end at
`stop`, where each of them does nothing else. -/
def Automaton.Chain (a : Automaton) : List Char → Nat → Nat → Prop
  | [], start, stop => start = stop
  | c :: chars, start, stop => ∃ mid,
    a.states[start]? = some { transition := some ⟨.oneOf (.ofChar c), mid⟩ } ∧
      a.Chain chars mid stop

/-- A state reads characters by its transition and a chain behind it. -/
def Automaton.ReadsText (a : Automaton) (s : Automaton.State) (chars : List Char) (next : Nat) :
    Prop :=
  ∃ c rest mid, chars = c :: rest ∧ a.Chain rest mid next ∧
    s = { action := .text chars next, transition := some ⟨.oneOf (.ofChar c), mid⟩ }

/-- The states of a part that is left only for its goals.  No match ends in it and its
loops are those from `lo` on. -/
structure Automaton.Territory (a : Automaton) (inside goals : Nat → Prop) (lo : Nat) : Prop where
  /-- Its states exist. -/
  exists_state : ∀ id, inside id → ∃ s, a.states[id]? = some s
  /-- The transitions and the epsilons stay inside or lead to a goal. -/
  closed : ∀ id s, inside id → a.states[id]? = some s → s.action.isPlain →
    ∀ target, (∃ guard, s.transition = some ⟨guard, target⟩) ∨ target ∈ s.epsilons →
      inside target ∨ goals target
  /-- No match ends inside. -/
  accepting : ∀ id s, inside id → a.states[id]? = some s → s.accepting = false
  /-- A loop that begins inside is one of those from `lo` on. -/
  loopHead : ∀ id s loop, inside id → a.states[id]? = some s → s.loopHead = some loop → lo ≤ loop
  /-- A loop that ends inside is one of those from `lo` on. -/
  loopBack : ∀ id s loop, inside id → a.states[id]? = some s → s.loopBack = some loop → lo ≤ loop

/-- The body of a capture is a part of its own, which the open iterations have
nothing to do with. -/
structure Automaton.Encloses (a : Automaton) (its : Iterations) (pos body close : Nat) : Prop where
  /-- The body is a part. -/
  territory : ∃ inside lo, a.Territory inside (· = close) lo ∧ (inside body ∨ body = close) ∧
    ∀ loop start, its loop = some start → loop < lo
  /-- Open iterations began here or before. -/
  began : ∀ loop start, its loop = some start → start ≤ pos

/-- A state yields a verdict.  The first argument bounds the number of states on a
way. -/
inductive Yields (t : Setting) : Nat → Iterations → Nat → Nat → Slots → Verdict → Prop
  /-- An iteration ends that has consumed nothing. -/
  | idle {n its id s loop pos slots} (hstate : t.automaton.states[id]? = some s)
      (hback : s.loopBack = some loop) (hopen : its loop = some pos) :
      Yields t (n + 1) its id pos slots .failure
  /-- The ways out of the state are tried in order. -/
  | ways {n its id s pos slots landing} (verdicts : Way → Verdict) (closes : Nat → Verdict)
      (hinside : t.inside id) (hallows : t.Allows pos)
      (hstate : t.automaton.states[id]? = some s)
      (hback : ∀ loop, s.loopBack = some loop → ∃ start, its loop = some start ∧ start ≠ pos)
      (haccept : verdicts .accept = .success pos slots)
      (hstep : .step ∈ s.ways (t.window.mayEnd pos) →
        Steps t s pos slots landing)
      (hstuck : landing = .ok none → verdicts .step = .failure)
      (hfault : ∀ fault, landing = .error fault → verdicts .step = .error fault)
      (hland : ∀ next pos' slots', .step ∈ s.ways (t.window.mayEnd pos) →
        landing = .ok (some (next, pos', slots')) →
          Yields t n (its.passing s) next pos' slots' (verdicts .step))
      (htext : ∀ chars next, s.action = .text chars next → t.automaton.ReadsText s chars next)
      (hcapture : ∀ slot body close, s.action = .capture slot body close none →
        t.automaton.Encloses (its.passing s) pos body close)
      (hclose : ∀ slot body close, s.action = .capture slot body close none →
        ∀ stop, t.Allows stop → pos ≤ stop →
          Yields t n (its.passing s) close stop (slots.opened slot pos) (closes stop))
      (hepsilon : ∀ next, .epsilon next none ∈ s.ways (t.window.mayEnd pos) →
        Yields t n (its.passing s) next pos slots (verdicts (.epsilon next none)))
      (henter : ∀ next loop, .epsilon next (some loop) ∈ s.ways (t.window.mayEnd pos) →
        t.guarded loop ∧ loop < t.automaton.loopCount ∧ its.passing s loop = none ∧
          1 < s.epsilons.length)
      (hiteration : ∀ next loop, .epsilon next (some loop) ∈ s.ways (t.window.mayEnd pos) →
        Yields t n ((its.passing s).set loop (some pos)) next pos slots
          (verdicts (.epsilon next (some loop)))) :
      Yields t (n + 1) its id pos slots
        (firstOf ((s.ways (t.window.mayEnd pos)).map verdicts))

/-- A larger bound is a bound too. -/
theorem Yields.mono {t : Setting} {n m : Nat} {its : Iterations} {id pos : Nat} {slots : Slots}
    {v : Verdict} (h : Yields t n its id pos slots v) (hle : n ≤ m) :
    Yields t m its id pos slots v := by
  induction h generalizing m with
  | idle hstate hback hopen =>
    obtain ⟨m, rfl⟩ : ∃ k, m = k + 1 := ⟨m - 1, by omega⟩
    exact .idle hstate hback hopen
  | ways verdicts closes hinside hallows hstate hback haccept hstep hstuck hfault _ htext hcapture
      _ _ henter _ ihland ihclose ihepsilon ihiteration =>
    obtain ⟨m, rfl⟩ : ∃ k, m = k + 1 := ⟨m - 1, by omega⟩
    have hle' : _ ≤ m := Nat.le_of_succ_le_succ hle
    exact .ways verdicts closes hinside hallows hstate hback haccept hstep hstuck hfault
      (fun next pos' slots' hmem h => ihland next pos' slots' hmem h hle') htext hcapture
      (fun slot body close h stop ha hp => ihclose slot body close h stop ha hp hle')
      (fun next hmem => ihepsilon next hmem hle') henter
      (fun next loop hmem => ihiteration next loop hmem hle')

end RegexEngine
