import Mathlib.Logic.Relation
import RegexEngine.Proofs.Meaning.Within

/-!
# What a pattern matches, as a relation

Without references, atomic groups and possessive repetitions a pattern is declarative:
it relates the positions where a match starts to those where one can end, whatever is
preferred.  Repetition is composition, and an iteration may consume nothing.

* `Pattern.Relates` is the relation of a pattern.
* `Meaning.Decides` says that a meaning has no faults and ends where a relation says.
* `Pattern.decides_meaning` is the induction over a pattern.
-/

namespace RegexEngine

open Relation

/-! ## Relations -/

/-- One character with a property. -/
def Consumes (text : Subject) (p : Char → Bool) (start stop : Nat) : Prop :=
  ∃ c, text.charAt? start = some c ∧ p c ∧ stop = start + c.utf8Size

/-- Characters with properties, one after the other. -/
def ConsumesAll (text : Subject) : List (Char → Bool) → Nat → Nat → Prop
  | [] => Eq
  | p :: ps => Comp (Consumes text p) (ConsumesAll text ps)

/-- A relation `n` times. -/
def Times (R : Nat → Nat → Prop) : Nat → Nat → Nat → Prop
  | 0 => Eq
  | n + 1 => Comp R (Times R n)

/-- A relation up to `n` times. -/
def UpTo (R : Nat → Nat → Prop) (n start stop : Nat) : Prop :=
  ∃ k ≤ n, Times R k start stop

/-- Nothing, where a property holds or where it does not. -/
def Holds (negated : Bool) (P : Nat → Prop) (start stop : Nat) : Prop :=
  start = stop ∧ (P start ↔ negated = false)

namespace Pattern

mutual

/-- Whether a pattern has no references, no atomic groups and no possessive
repetitions. -/
def isDeclarative : Pattern → Bool
  | text _ | oneOf _ | assert _ => true
  | concat parts => areDeclarative parts
  | alt branches => areDeclarative branches
  | repeated body _ _ mode => mode != .possessive && isDeclarative body
  | withFlags _ body | lookAround _ _ body | capture _ body => isDeclarative body
  | atomic _ | reference _ => false

/-- Whether all the patterns are declarative. -/
def areDeclarative : List Pattern → Bool
  | [] => true
  | part :: parts => isDeclarative part && areDeclarative parts

end

mutual

/-- The relation of a pattern under given options.  It says nothing of references. -/
def Relates (subject : Subject) (o : Options) : Pattern → Nat → Nat → Prop
  | text cs => ConsumesAll subject (cs.map fun c => (Automaton.Build.charSet o.ignoreCase c).test)
  | concat parts => RelatesAll subject o parts
  | alt branches => RelatesAny subject o branches
  | repeated body min none _ =>
    Comp (Times (Relates subject o body) min) (ReflTransGen (Relates subject o body))
  | repeated body min (some max) _ =>
    Comp (Times (Relates subject o body) min) (UpTo (Relates subject o body) (max - min))
  | oneOf set => Consumes subject (Automaton.Build.classSet o set).test
  | assert assertion => Holds false fun pos => (assertion.look o).holdsAt subject pos
  | withFlags flags body => Relates subject (o.overlay flags) body
  | lookAround .ahead negated body => Holds negated fun pos =>
    ∃ stop, Relates subject o body pos stop
  | lookAround .behind negated body => Holds negated fun pos =>
    ∃ start, subject.isBoundary start ∧ Relates subject o body start pos
  | atomic body | capture _ body => Relates subject o body
  | reference _ => fun _ _ => False

/-- The relation of patterns, one after the other. -/
def RelatesAll (subject : Subject) (o : Options) : List Pattern → Nat → Nat → Prop
  | [] => Eq
  | part :: parts => Comp (Relates subject o part) (RelatesAll subject o parts)

/-- The relation of one of several patterns. -/
def RelatesAny (subject : Subject) (o : Options) : List Pattern → Nat → Nat → Prop
  | [] => fun _ _ => False
  | branch :: branches => fun start stop =>
    Relates subject o branch start stop ∨ RelatesAny subject o branches start stop

end

end Pattern

/-! ## Combinators -/

namespace Meaning

variable {text : Subject} {R R' : Nat → Nat → Prop} {first second body : Meaning}

/-- A meaning has no faults, and it ends where a relation says, but not beyond the
limit. -/
structure Decides (text : Subject) (meaning : Meaning) (R : Nat → Nat → Prop) : Prop where
  /-- The relation leads from boundaries to boundaries, and not back. -/
  forward : ∀ pos stop, text.isBoundary pos → R pos stop → text.isBoundary stop ∧ pos ≤ stop
  /-- There are no faults. -/
  faultless : ∀ limit pos groups fault, text.isBoundary limit → text.isBoundary pos → pos ≤ limit →
    .error fault ∉ meaning limit pos groups
  /-- The endings are those of the relation. -/
  mem_iff : ∀ limit pos groups stop, text.isBoundary limit → text.isBoundary pos → pos ≤ limit →
    ((∃ groups', .ok (stop, groups') ∈ meaning limit pos groups) ↔ R pos stop ∧ stop ≤ limit)

theorem Decides.of_mem (h : Decides text body R) {limit pos stop : Nat} {groups groups' : Groups}
    (hlimit : text.isBoundary limit) (hpos : text.isBoundary pos) (hle : pos ≤ limit)
    (hmem : .ok (stop, groups') ∈ body limit pos groups) :
    R pos stop ∧ text.isBoundary stop ∧ pos ≤ stop ∧ stop ≤ limit := by
  have hstop := (h.mem_iff limit pos groups stop hlimit hpos hle).1 ⟨groups', hmem⟩
  obtain ⟨hboundary, hforward⟩ := h.forward pos stop hpos hstop.1
  exact ⟨hstop.1, hboundary, hforward, hstop.2⟩

theorem decides_skip : Decides text skip Eq := by
  refine ⟨?_, ?_, ?_⟩
  · rintro pos stop hpos rfl
    exact ⟨hpos, Nat.le_refl _⟩
  · intro limit pos groups fault _ _ _
    simp [skip]
  · intro limit pos groups stop _ _ hle
    constructor
    · rintro ⟨groups', hmem⟩
      obtain ⟨rfl, rfl⟩ : stop = pos ∧ groups' = groups := by simpa [skip] using hmem
      exact ⟨rfl, hle⟩
    · rintro ⟨rfl, -⟩
      exact ⟨groups, by simp [skip]⟩

theorem decides_nowhere : Decides text (fun _ _ _ => []) fun _ _ => False := by
  refine ⟨fun _ _ _ h => h.elim, ?_, ?_⟩
  · intro limit pos groups fault _ _ _
    simp
  · intro limit pos groups stop _ _ _
    simp

theorem Decides.seq (h : Decides text first R) (h' : Decides text second R') :
    Decides text (seq first second) (Comp R R') := by
  refine ⟨?_, ?_, ?_⟩
  · rintro pos stop hpos ⟨mid, hfirst, hsecond⟩
    obtain ⟨hmid, hle⟩ := h.forward pos mid hpos hfirst
    obtain ⟨hstop, hle'⟩ := h'.forward mid stop hmid hsecond
    exact ⟨hstop, Nat.le_trans hle hle'⟩
  · intro limit pos groups fault hlimit hpos hle hmem
    rcases Ending.mem_andThen.1 hmem with ⟨fault', hfault, -⟩ | ⟨mid, groups', hfirst, hsecond⟩
    · exact h.faultless limit pos groups fault' hlimit hpos hle hfault
    · obtain ⟨-, hmid, -, hle'⟩ := h.of_mem hlimit hpos hle hfirst
      exact h'.faultless limit mid groups' fault hlimit hmid hle' hsecond
  · intro limit pos groups stop hlimit hpos hle
    constructor
    · rintro ⟨groups', hmem⟩
      rcases Ending.mem_andThen.1 hmem with ⟨fault, -, heq⟩ | ⟨mid, groups'', hfirst, hsecond⟩
      · cases heq
      · obtain ⟨hR, hmid, -, hle'⟩ := h.of_mem hlimit hpos hle hfirst
        obtain ⟨hR', -, -, hstop⟩ := h'.of_mem hlimit hmid hle' hsecond
        exact ⟨⟨mid, hR, hR'⟩, hstop⟩
    · rintro ⟨⟨mid, hR, hR'⟩, hstop⟩
      obtain ⟨hmid, -⟩ := h.forward pos mid hpos hR
      obtain ⟨-, hle'⟩ := h'.forward mid stop hmid hR'
      have hmidle : mid ≤ limit := Nat.le_trans hle' hstop
      obtain ⟨groups', hfirst⟩ := (h.mem_iff limit pos groups mid hlimit hpos hle).2 ⟨hR, hmidle⟩
      obtain ⟨groups'', hsecond⟩ :=
        (h'.mem_iff limit mid groups' stop hlimit hmid hmidle).2 ⟨hR', hstop⟩
      exact ⟨groups'', Ending.mem_andThen.2 (.inr ⟨mid, groups', hfirst, hsecond⟩)⟩

theorem Decides.either (h : Decides text first R) (h' : Decides text second R') :
    Decides text (either first second) fun start stop => R start stop ∨ R' start stop := by
  refine ⟨?_, ?_, ?_⟩
  · rintro pos stop hpos (hR | hR')
    · exact h.forward pos stop hpos hR
    · exact h'.forward pos stop hpos hR'
  · intro limit pos groups fault hlimit hpos hle hmem
    rcases List.mem_append.1 hmem with hmem | hmem
    · exact h.faultless limit pos groups fault hlimit hpos hle hmem
    · exact h'.faultless limit pos groups fault hlimit hpos hle hmem
  · intro limit pos groups stop hlimit hpos hle
    simp only [Meaning.either, List.mem_append, exists_or,
      h.mem_iff limit pos groups stop hlimit hpos hle,
        h'.mem_iff limit pos groups stop hlimit hpos hle,
      or_and_right]

theorem decides_char (p : Char → Bool) : Decides text (char text p) (Consumes text p) := by
  refine ⟨?_, ?_, ?_⟩
  · rintro pos stop hpos ⟨c, hc, -, rfl⟩
    exact ⟨Subject.isBoundary_add hc, Nat.le_add_right _ _⟩
  · intro limit pos groups fault _ _ _
    unfold char
    split
    · simp
    · split
      · simp
      · split <;> simp
  · intro limit pos groups stop hlimit _ _
    unfold char
    by_cases hle : limit ≤ pos
    · rw [if_pos hle]
      constructor
      · rintro ⟨groups', hmem⟩
        cases hmem
      · rintro ⟨⟨c, hc, -, rfl⟩, hstop⟩
        have := Char.utf8Size_pos c
        omega
    · rw [if_neg hle]
      cases hc : text.charAt? pos with
      | none => simp [Consumes, hc]
      | some c =>
        have hlimit' := Subject.add_le_of_lt hc hlimit (by omega)
        by_cases hp : p c
        · simp only [hp, if_true, Consumes, hc, List.mem_singleton]
          constructor
          · rintro ⟨groups', hmem⟩
            cases hmem
            exact ⟨⟨c, rfl, hp, rfl⟩, hlimit'⟩
          · rintro ⟨⟨c', hc', -, rfl⟩, -⟩
            cases hc'
            exact ⟨groups, rfl⟩
        · simp only [hp, Consumes, hc]
          constructor
          · rintro ⟨groups', hmem⟩
            cases hmem
          · rintro ⟨⟨c', hc', hp', -⟩, -⟩
            cases hc'
            exact absurd hp' hp

theorem decides_chars (ps : List (Char → Bool)) :
    Decides text (chars text ps) (ConsumesAll text ps) := by
  induction ps with
  | nil => exact decides_skip
  | cons p ps ih => exact (decides_char p).seq ih

theorem Decides.capture (h : Decides text body R) (key : GroupKey) :
    Decides text (capture key body) R := by
  refine ⟨h.forward, ?_, ?_⟩
  · intro limit pos groups fault hlimit hpos hle hmem
    rcases Ending.mem_andThen.1 hmem with ⟨fault', hfault, -⟩ | ⟨_, _, -, hclosed⟩
    · exact h.faultless limit pos _ fault' hlimit hpos hle hfault
    · simp at hclosed
  · intro limit pos groups stop hlimit hpos hle
    rw [← h.mem_iff limit pos (groups.opened key pos) stop hlimit hpos hle]
    constructor
    · rintro ⟨groups', hmem⟩
      rcases Ending.mem_andThen.1 hmem with ⟨_, -, heq⟩ | ⟨stop', groups'', hbody, hclosed⟩
      · cases heq
      · obtain ⟨rfl, -⟩ : stop = stop' ∧ _ := by simpa using hclosed
        exact ⟨groups'', hbody⟩
    · rintro ⟨groups', hbody⟩
      exact ⟨_, Ending.mem_andThen.2 (.inr ⟨stop, groups', hbody, List.mem_singleton.2 rfl⟩)⟩

/-! ## Repetition -/

theorem Decides.copies (h : Decides text body R) (n : Nat) :
    Decides text (copies body n) (Times R n) := by
  induction n with
  | zero => exact decides_skip
  | succ n ih => exact h.seq ih

/-- The order of two choices does not matter to a relation. -/
theorem Decides.choose (h : Decides text first R) (h' : Decides text second R') (lazy : Bool) :
    Decides text (choose lazy first second) fun start stop => R start stop ∨ R' start stop := by
  unfold Meaning.choose
  split
  · have hboth := h'.either h
    simpa only [or_comm] using hboth
  · exact h.either h'

theorem upTo_zero : UpTo R 0 = Eq := by
  funext start stop
  simp [UpTo, Times]

theorem upTo_succ (n : Nat) :
    UpTo R (n + 1) = fun start stop => Comp R (UpTo R n) start stop ∨ start = stop := by
  funext start stop
  refine propext ⟨?_, ?_⟩
  · rintro ⟨k, hk, hR⟩
    cases k with
    | zero => exact .inr hR
    | succ k =>
      obtain ⟨mid, hfirst, hrest⟩ := hR
      exact .inl ⟨mid, hfirst, k, Nat.le_of_succ_le_succ hk, hrest⟩
  · rintro (⟨mid, hfirst, k, hk, hrest⟩ | rfl)
    · exact ⟨k + 1, Nat.succ_le_succ hk, mid, hfirst, hrest⟩
    · exact ⟨0, Nat.zero_le _, rfl⟩

theorem Decides.optionalCopies (h : Decides text body R) (lazy : Bool) (n : Nat) :
    Decides text (optionalCopies body lazy n) (UpTo R n) := by
  induction n with
  | zero =>
    rw [upTo_zero]
    exact decides_skip
  | succ n ih =>
    rw [upTo_succ]
    exact (h.seq ih).choose decides_skip lazy

theorem mem_loop_iff {lazy : Bool} {limit pos : Nat} {groups : Groups} {e : Ending} :
    e ∈ loop text body lazy limit pos groups ↔ e = .ok (pos, groups) ∨
      (∃ fault, .error fault ∈ body limit pos groups ∧ e = .error fault) ∨
      ∃ mid groups', .ok (mid, groups') ∈ body limit pos groups ∧ (pos < mid ∧ mid ≤ text.size) ∧
        e ∈ loop text body lazy limit mid groups' := by
  have hmore (mid : Nat) (groups' : Groups) : (e ∈ if _h : pos < mid ∧ mid ≤ text.size then
      loop text body lazy limit mid groups' else []) ↔
        (pos < mid ∧ mid ≤ text.size) ∧ e ∈ loop text body lazy limit mid groups' := by
    split
    · simp [*]
    · simp [*]
  rw [loop]
  cases lazy
  · simp only [Bool.false_eq_true, if_false, List.mem_append, List.mem_singleton,
      Ending.mem_andThen, hmore]
    exact or_comm
  · simp only [if_true, List.mem_cons, Ending.mem_andThen, hmore]

theorem forward_reflTransGen
    (h : ∀ pos stop, text.isBoundary pos → R pos stop → text.isBoundary stop ∧ pos ≤ stop)
    {pos stop : Nat} (hpos : text.isBoundary pos) (hR : ReflTransGen R pos stop) :
    text.isBoundary stop ∧ pos ≤ stop := by
  induction hR with
  | refl => exact ⟨hpos, Nat.le_refl _⟩
  | tail _ hlast ih =>
    obtain ⟨hstop, hle⟩ := h _ _ ih.1 hlast
    exact ⟨hstop, Nat.le_trans ih.2 hle⟩

/-- The endings of a loop are those of iterations that consume something.  Others lead
nowhere else. -/
theorem Decides.loop (h : Decides text body R) (lazy : Bool) :
    Decides text (loop text body lazy) (ReflTransGen R) := by
  refine ⟨fun pos stop hpos hR => forward_reflTransGen h.forward hpos hR, ?_, ?_⟩
  · intro limit pos groups fault hlimit hpos hle hmem
    induction hn : text.size - pos using Nat.strongRecOn generalizing pos groups with
    | ind n ih =>
      rcases mem_loop_iff.1 hmem with heq | ⟨fault', hfault, -⟩ | ⟨mid, groups', hbody, hlt, hrest⟩
      · cases heq
      · exact h.faultless limit pos groups fault' hlimit hpos hle hfault
      · obtain ⟨-, hmid, -, hle'⟩ := h.of_mem hlimit hpos hle hbody
        exact ih (text.size - mid) (by omega) mid groups' hmid hle' hrest rfl
  · intro limit pos groups stop hlimit hpos hle
    constructor
    · rintro ⟨groups', hmem⟩
      induction hn : text.size - pos using Nat.strongRecOn generalizing pos groups with
      | ind n ih =>
        rcases mem_loop_iff.1 hmem with heq | ⟨fault', -, heq⟩ | ⟨mid, groups'', hbody, hlt, hrest⟩
        · obtain ⟨rfl, -⟩ : stop = pos ∧ groups' = groups := by simpa using heq
          exact ⟨.refl, hle⟩
        · cases heq
        · obtain ⟨hR, hmid, -, hle'⟩ := h.of_mem hlimit hpos hle hbody
          obtain ⟨hrest, hstop⟩ := ih (text.size - mid) (by omega) mid groups'' hmid hle' hrest rfl
          exact ⟨.head hR hrest, hstop⟩
    · rintro ⟨hR, hstop⟩
      induction hR using ReflTransGen.head_induction_on generalizing groups with
      | refl => exact ⟨groups, mem_loop_iff.2 (.inl rfl)⟩
      | @head pos mid hfirst hrest ih =>
        obtain ⟨hmid, hforward⟩ := h.forward pos mid hpos hfirst
        have hmidle := Nat.le_trans (forward_reflTransGen h.forward hmid hrest).2 hstop
        rcases Nat.eq_or_lt_of_le hforward with rfl | hlt
        · exact ih groups hpos hle
        · obtain ⟨groups', hbody⟩ :=
            (h.mem_iff limit pos groups mid hlimit hpos hle).2 ⟨hfirst, hmidle⟩
          obtain ⟨groups'', hmem⟩ := ih groups' hmid hmidle
          exact ⟨groups'', mem_loop_iff.2 (.inr (.inr
            ⟨mid, groups', hbody, ⟨hlt, Subject.le_size_of_isBoundary hmid⟩, hmem⟩))⟩

/-! ## Assertions -/

/-- What consumes nothing and depends on the position only. -/
theorem decides_holds {P : Nat → Prop} {negated : Bool} {meaning : Meaning}
    (h : ∀ limit pos groups, text.isBoundary pos →
      (P pos ↔ negated = false) ∧ (∃ groups', meaning limit pos groups = [.ok (pos, groups')]) ∨
      ¬(P pos ↔ negated = false) ∧ meaning limit pos groups = []) :
    Decides text meaning (Holds negated P) := by
  refine ⟨?_, ?_, ?_⟩
  · rintro pos stop hpos ⟨rfl, -⟩
    exact ⟨hpos, Nat.le_refl _⟩
  · intro limit pos groups fault _ hpos _
    rcases h limit pos groups hpos with ⟨-, groups', heq⟩ | ⟨-, heq⟩
    · simp [heq]
    · simp [heq]
  · intro limit pos groups stop _ hpos hle
    rcases h limit pos groups hpos with ⟨hholds, groups', heq⟩ | ⟨hholds, heq⟩
    · rw [heq]
      constructor
      · rintro ⟨groups'', hmem⟩
        obtain ⟨rfl, -⟩ : stop = pos ∧ groups'' = groups' := by simpa using hmem
        exact ⟨⟨rfl, hholds⟩, hle⟩
      · rintro ⟨⟨rfl, -⟩, -⟩
        exact ⟨groups', List.mem_singleton.2 rfl⟩
    · rw [heq]
      constructor
      · rintro ⟨groups', hmem⟩
        cases hmem
      · rintro ⟨⟨-, hholds'⟩, -⟩
        exact absurd hholds' hholds

theorem decides_look (l : Look) :
    Decides text (look text l) (Holds false fun pos => l.holdsAt text pos) := by
  refine decides_holds fun limit pos groups _ => ?_
  by_cases hholds : l.holdsAt text pos
  · exact .inl ⟨by simp [hholds], groups, by simp [look, hholds]⟩
  · exact .inr ⟨by simp [hholds], by simp [look, hholds]⟩

/-- Whether there is an ending is all that matters to a look at endings. -/
theorem looking_eq {P : Prop} {endings : List Ending} (negated : Bool) (pos : Nat) (groups : Groups)
    (hfaultless : ∀ fault, .error fault ∉ endings)
    (hmem : (∃ stop groups', .ok (stop, groups') ∈ endings) ↔ P) :
    (P ↔ negated = false) ∧ (∃ groups', looking negated endings pos groups = [.ok (pos, groups')]) ∨
      ¬(P ↔ negated = false) ∧ looking negated endings pos groups = [] := by
  match endings with
  | [] =>
    have hP : ¬P := fun hP => by obtain ⟨_, _, hmem⟩ := hmem.2 hP; cases hmem
    cases negated <;> simp [hP, looking]
  | .error fault :: _ => exact absurd List.mem_cons_self (hfaultless fault)
  | .ok (stop, groups') :: _ =>
    have hP : P := hmem.1 ⟨stop, groups', List.mem_cons_self⟩
    cases negated <;> simp [hP, looking]

theorem Decides.lookAhead (h : Decides text body R) (negated : Bool) :
    Decides text (lookAround text .ahead negated body)
      (Holds negated fun pos => ∃ stop, R pos stop) := by
  refine decides_holds fun limit pos groups hpos => ?_
  have hsize := Subject.isBoundary_size text
  have hle := Subject.le_size_of_isBoundary hpos
  refine looking_eq negated pos groups (fun fault => h.faultless _ _ _ _ hsize hpos hle) ?_
  constructor
  · rintro ⟨stop, groups', hmem⟩
    exact ⟨stop, (h.of_mem hsize hpos hle hmem).1⟩
  · rintro ⟨stop, hR⟩
    have hstop := Subject.le_size_of_isBoundary (h.forward pos stop hpos hR).1
    exact ⟨stop, (h.mem_iff text.size pos groups stop hsize hpos hle).2 ⟨hR, hstop⟩⟩

theorem Decides.lookBehind (h : Decides text body R) (negated : Bool) :
    Decides text (lookAround text .behind negated body)
      (Holds negated fun pos => ∃ start, text.isBoundary start ∧ R start pos) := by
  refine decides_holds fun limit pos groups hpos => ?_
  refine looking_eq negated pos groups ?_ ?_
  · intro fault hmem
    obtain ⟨start, hstart, hmem⟩ := List.mem_flatMap.1 hmem
    obtain ⟨hboundary, hle⟩ := Subject.mem_boundariesDownFrom hstart
    exact h.faultless pos start groups fault hpos hboundary hle (List.mem_of_mem_filter hmem)
  · constructor
    · rintro ⟨stop, groups', hmem⟩
      obtain ⟨start, hstart, hmem⟩ := List.mem_flatMap.1 hmem
      obtain ⟨hboundary, hle⟩ := Subject.mem_boundariesDownFrom hstart
      obtain ⟨hmem, hends⟩ := List.mem_filter.1 hmem
      obtain rfl : stop = pos := by simpa [endsHere] using hends
      exact ⟨start, hboundary, (h.of_mem hpos hboundary hle hmem).1⟩
    · rintro ⟨start, hboundary, hR⟩
      have hle := (h.forward start pos hboundary hR).2
      obtain ⟨groups', hmem⟩ :=
        (h.mem_iff pos start groups pos hpos hboundary hle).2 ⟨hR, Nat.le_refl _⟩
      refine ⟨pos, groups', List.mem_flatMap.2 ⟨start, ?_, List.mem_filter.2 ⟨hmem, ?_⟩⟩⟩
      · simp [Subject.boundariesDownFrom, hboundary]
        omega
      · simp [endsHere]

end Meaning

/-! ## Patterns -/

namespace Pattern

variable {subject : Subject}

mutual

/-- The endings of a declarative pattern are those of its relation. -/
theorem decides_meaning (o : Options) (base : Nat) : (p : Pattern) → p.isDeclarative →
    Meaning.Decides subject (meaning subject o base p) (Relates subject o p)
  | text cs, _ => Meaning.decides_chars _
  | concat parts, h => decides_meaningAll o base parts h
  | alt branches, h => decides_meaningAny o base branches h
  | repeated body min max mode, h => by
    obtain ⟨hmode, hbody⟩ := Bool.and_eq_true_iff.1 h
    have hdecides := decides_meaning o base body hbody
    unfold meaning
    rw [if_neg (by simpa using hmode)]
    cases max with
    | none => exact (hdecides.copies min).seq (hdecides.loop _)
    | some max => exact (hdecides.copies min).seq (hdecides.optionalCopies _ _)
  | oneOf set, _ => Meaning.decides_char _
  | assert assertion, _ => Meaning.decides_look _
  | withFlags flags body, h => decides_meaning (o.overlay flags) base body h
  | lookAround .ahead negated body, h => (decides_meaning o base body h).lookAhead negated
  | lookAround .behind negated body, h => (decides_meaning o base body h).lookBehind negated
  | atomic body, h => by cases h
  | capture (some name) body, h => (decides_meaning o base body h).capture _
  | capture none body, h => (decides_meaning o (base + 1) body h).capture _
  | reference group, h => by cases h

theorem decides_meaningAll (o : Options) (base : Nat) : (parts : List Pattern) →
    areDeclarative parts → Meaning.Decides subject (meaningAll subject o base parts)
      (RelatesAll subject o parts)
  | [], _ => Meaning.decides_skip
  | part :: parts, h => by
    obtain ⟨hpart, hparts⟩ := Bool.and_eq_true_iff.1 h
    exact (decides_meaning o base part hpart).seq
      (decides_meaningAll o (base + numbered part) parts hparts)

theorem decides_meaningAny (o : Options) (base : Nat) : (branches : List Pattern) →
    areDeclarative branches → Meaning.Decides subject (meaningAny subject o base branches)
      (RelatesAny subject o branches)
  | [], _ => Meaning.decides_nowhere
  | branch :: branches, h => by
    obtain ⟨hbranch, hbranches⟩ := Bool.and_eq_true_iff.1 h
    exact (decides_meaning o base branch hbranch).either
      (decides_meaningAny o (base + numbered branch) branches hbranches)

end

end Pattern

end RegexEngine
