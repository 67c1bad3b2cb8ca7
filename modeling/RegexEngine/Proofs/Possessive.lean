import RegexEngine.Proofs.Equivalence
import RegexEngine.Proofs.Meaning.Possessive
import RegexEngine.Proofs.Numbering.Preorder

/-!
# Possessive repetition in any context

A possessive repetition of a pattern without captures gives the same matches as an atomic group
of a greedy repetition of the pattern as an atomic group, whatever is around it.  But an
iteration that consumes nothing is the last of a possessive repetition, even if the minimum has
not been reached.

* `Automaton.matchAt_eq_of_head?`: a match depends only on the first ending of a pattern and on
  its groups.
* `Automaton.matchAt_possessive` is about possessive repetition, where an iteration does not
  consume nothing or at most one iteration is asked for.
* `Automaton.matchAt_emptyIteration` is a possessive repetition with such an iteration.
-/

namespace RegexEngine

namespace Pattern

/-! ## Patterns without captures -/

mutual

theorem keys_eq_nil (base : Nat) : (p : Pattern) → p.groups = [] → p.keys base = [] ∧ p.numbered = 0
  | text _, _ | oneOf _, _ | assert _, _ | reference _, _ => ⟨rfl, rfl⟩
  | concat parts, h => keysAll_eq_nil base parts h
  | alt branches, h => keysAll_eq_nil base branches h
  | repeated body min max mode, h => by
    obtain ⟨hkeys, hnumbered⟩ := keys_eq_nil base body h
    rw [keys, numbered, hkeys, hnumbered]
    exact ⟨ite_self _, ite_self _⟩
  | withFlags _ body, h | lookAround _ _ body, h | atomic body, h => keys_eq_nil base body h
  | capture _ _, h => by cases h

theorem keysAll_eq_nil (base : Nat) : (parts : List Pattern) → groupsAmong parts = [] →
    keysAll base parts = [] ∧ numberedAll parts = 0
  | [], _ => ⟨rfl, rfl⟩
  | part :: parts, h => by
    obtain ⟨hpart, hparts⟩ := List.append_eq_nil_iff.1 h
    obtain ⟨hkeys, hnumbered⟩ := keys_eq_nil base part hpart
    obtain ⟨hkeys', hnumbered'⟩ := keysAll_eq_nil (base + part.numbered) parts hparts
    rw [keysAll, numberedAll, hkeys, hkeys', hnumbered, hnumbered']
    exact ⟨rfl, rfl⟩

end

/-- A pattern without captures keeps all groups. -/
theorem constant_meaning (text : Subject) (o : Options) (base : Nat) {p : Pattern}
    (h : p.groups = []) :
    Meaning.Constant text (p.meaning text o base) := by
  intro groups
  refine within_meaning o base p fun key hkey => ?_
  rw [(keys_eq_nil base p h).1] at hkey
  cases hkey

end Pattern

namespace Automaton

variable {o o' : Options} {p q : Pattern} {a b : Automaton} {text : Subject} {pos : Nat}

/-! ## Matches of automata -/

/-- A match is what the first ending of the pattern says. -/
theorem exists_keys_matchAt (h : compile o p = .ok a) (text : Subject)
    (hpos : text.isBoundary pos) :
    ∃ keys, a.Keyed keys ∧ a.matchAt text pos =
      match (p.meaning text o 0 text.size pos .fresh).head? with
      | none => .ok none
      | some (.error fault) => .error fault
      | some (.ok (stop, groups)) =>
        .ok (some (a.toMatch pos stop { slots := groups.slots keys })) := by
  obtain ⟨ranges, keys, hlies⟩ := Pattern.exists_liesIn h
  refine ⟨keys, hlies.keyed, ?_⟩
  rw [matchAt_eq_matchOf hpos, Pattern.ofResult_run hlies hpos]
  have hjudge := Pattern.judge_eq_head? keys text.size (p.meaning text o 0 text.size pos .fresh)
  rw [hjudge]
  match (p.meaning text o 0 text.size pos .fresh).head? with
  | none => rfl
  | some (.error fault) => rfl
  | some (.ok (stop, groups)) => rfl

/-- Patterns with the same groups and the same first ending have the same match. -/
theorem matchAt_eq_of_head? (ha : compile o p = .ok a) (hb : compile o' q = .ok b)
    (hkeys : p.keys 0 = q.keys 0)
    (hhead : text.isBoundary pos → (p.meaning text o 0 text.size pos .fresh).head? =
      (q.meaning text o' 0 text.size pos .fresh).head?) : a.matchAt text pos =
        b.matchAt text pos := by
  cases hpos : text.isBoundary pos with
  | false => rw [matchAt_of_not_isBoundary hpos, matchAt_of_not_isBoundary hpos]
  | true =>
    have htable : a.table = b.table := by rw [table_compile ha, table_compile hb, hkeys]
    have hgroups : a.groups = b.groups := congrArg GroupTable.groups htable
    have hnames : a.names = b.names := congrArg GroupTable.names htable
    obtain ⟨keys, hkeyed, hmatch⟩ := exists_keys_matchAt ha text hpos
    obtain ⟨keys', hkeyed', hmatch'⟩ := exists_keys_matchAt hb text hpos
    have hslot? (key : GroupKey) : a.slot? key = b.slot? key := by
      cases key <;> simp only [slot?, hgroups, hnames]
    rw [hmatch, hmatch', hhead hpos, hkeyed.eq hkeyed' hslot?]
    unfold toMatch
    rw [hgroups, hnames]

/-! ## Possessive repetition -/

/-- A possessive repetition of a pattern without captures has the same matches as an atomic group
of a greedy repetition of the pattern as an atomic group, in any context.  If at least two
iterations are asked for, no iteration may consume nothing.  Both can be compiled or none, unless
nothing is repeated: then the greedy one does not compile the pattern. -/
theorem matchAt_possessive (o : Options) (C : Pattern.Context) {p : Pattern} (hp : p.groups = [])
    {min : Nat} {max : Option Nat} (hmax : ∀ m, max = some m → min ≤ m) (text : Subject)
    (hmany : min ≤ 1 ∨ Meaning.Advances text (p.meaning text (C.options o) C.numbered)) :
    (∀ a, compile o (C.fill (.repeated p min max .possessive)) = .ok a →
      ∃ b, compile o (C.fill (.atomic (.repeated (.atomic p) min max .greedy))) = .ok b ∧
        ∀ pos, a.matchAt text pos = b.matchAt text pos) ∧
    (max ≠ some 0 → ∀ e, compile o (C.fill (.repeated p min max .possessive)) = .error e ↔
      compile o (C.fill (.atomic (.repeated (.atomic p) min max .greedy))) = .error e) := by
  have hpossessive : (Pattern.repeated p min max .possessive).error? = p.error? := by
    rw [Pattern.error?_repeated hmax, if_neg (by simp)]
  have hgreedy : (Pattern.atomic (.repeated (.atomic p) min max .greedy)).error? =
      if max = some 0 then none else p.error? := by
    rw [Pattern.error?, Pattern.error?_repeated hmax]
    simp [Pattern.error?]
  have hkeys (base : Nat) := Pattern.keys_eq_nil base p hp
  have hnumbered : (Pattern.repeated p min max .possessive).numbered =
      (Pattern.atomic (.repeated (.atomic p) min max .greedy)).numbered := by
    simp [Pattern.numbered, (hkeys 0).2]
  have hnone : (Pattern.repeated p min max .possessive).error? = none →
      (Pattern.atomic (.repeated (.atomic p) min max .greedy)).error? = none := by
    intro he
    rw [hpossessive] at he
    rw [hgreedy, he, ite_self]
  refine ⟨fun a ha => ?_, fun hzero e => ?_⟩
  · have he := C.error?_fill_eq_none hnone (exists_compile_eq_ok_iff.1 ⟨a, ha⟩)
    obtain ⟨b, hb⟩ := exists_compile_eq_ok_iff.2 he
    refine ⟨b, hb, fun pos => matchAt_eq_of_head? ha hb (C.keys_fill hnumbered (fun base => ?_) 0)
      fun hpos => ?_⟩
    · simp [Pattern.keys, (hkeys base).1]
    · have halike := C.alike_fill text o 0 hnumbered (by
        rw [Nat.zero_add]
        exact Meaning.alike_possessive (Pattern.constant_meaning text (C.options o) C.numbered hp)
          hmax hmany)
      rw [halike text.size pos .fresh (Subject.isBoundary_size _) hpos
        (Subject.le_size_of_isBoundary hpos)]
  · rw [compile_eq_error_iff, compile_eq_error_iff, C.error?_fill]
    rw [hpossessive, hgreedy, if_neg hzero]

/-- At least twice a character, before another one. -/
theorem matchAt_possessive_twice :
    (Pattern.text ['a']).groups = [] ∧
      ∃ a b, compile {}
        (.concat [.repeated (.text ['a']) 2 none .possessive, .text ['b']]) = .ok a ∧
        compile {} (.concat [.atomic (.repeated (.atomic (.text ['a'])) 2 none .greedy),
          .text ['b']]) = .ok b ∧
        ∀ pos, a.matchAt (.ofList ['a', 'a', 'b']) pos =
          b.matchAt (.ofList ['a', 'a', 'b']) pos := by
  obtain ⟨a, ha⟩ := (exists_compile_eq_ok_iff (o := {})
    (p := .concat [.repeated (.text ['a']) 2 none .possessive, .text ['b']])).2 rfl
  have hmax : ∀ m, (none : Option Nat) = some m → 2 ≤ m := fun m h => by cases h
  have hsame := (matchAt_possessive {} (.concat [] .hole [.text ['b']]) (p := .text ['a']) rfl hmax
    (.ofList ['a', 'a', 'b']) (.inr (Meaning.advances_chars _ _))).1 a ha
  obtain ⟨b, hb, hmatch⟩ := hsame
  exact ⟨rfl, a, b, ha, hb, hmatch⟩

/-- Twice at most one character. -/
def twiceOptional : Pattern :=
  .repeated (.optional (.text ['a']) .greedy) 2 (some 2) .possessive

/-- The first iteration consumes nothing.  It is the last one, so that there are too few, where
the greedy repetition matches. -/
theorem matchAt_emptyIteration :
    ∃ a b, compile {} twiceOptional = .ok a ∧
      compile {} (.atomic (.repeated (.atomic (.optional (.text ['a']) .greedy)) 2 (some 2)
        .greedy)) = .ok b ∧
      a.matchAt (.ofList []) 0 = .ok none ∧
      b.matchAt (.ofList []) 0 = .ok (some { whole := (0, 0), groups := [], names := [] }) := by
  obtain ⟨a, ha⟩ := (exists_compile_eq_ok_iff (o := {}) (p := twiceOptional)).2 rfl
  obtain ⟨b, hb⟩ := (exists_compile_eq_ok_iff (o := {})
    (p := .atomic (.repeated (.atomic (.optional (.text ['a']) .greedy)) 2 (some 2) .greedy))).2 rfl
  have hpos : (Subject.ofList []).isBoundary 0 := by decide
  obtain ⟨_, _, hmatch⟩ := exists_keys_matchAt ha (.ofList []) hpos
  obtain ⟨_, _, hmatch'⟩ := exists_keys_matchAt hb (.ofList []) hpos
  have hhead : (twiceOptional.meaning (.ofList []) {} 0 0 0 .fresh).head? = none := by
    have hfirst :
      ((Pattern.optional (.text ['a']) .greedy).meaning (.ofList []) {} 0 0 0 .fresh).head? =
        some (.ok (0, .fresh)) := rfl
    show (Meaning.possessive _ _ _ _ _ _ _).head? = none
    rw [Meaning.possessive, Meaning.exhaust, hfirst]
    rfl
  have hhead' :
    ((Pattern.atomic (.repeated (.atomic (.optional (.text ['a']) .greedy)) 2 (some 2)
    .greedy)).meaning
      (.ofList []) {} 0 0 0 .fresh).head? = some (.ok (0, .fresh)) := rfl
  have htable : b.table = {} := table_compile hb
  have hgroups : b.groups = #[0] := congrArg GroupTable.groups htable
  have hnames : b.names = [] := congrArg GroupTable.names htable
  have hsize : (Subject.ofList []).size = 0 := rfl
  rw [hsize, hhead] at hmatch
  rw [hsize, hhead'] at hmatch'
  refine ⟨a, b, ha, hb, hmatch, hmatch'.trans ?_⟩
  dsimp only
  rw [toMatch, hgroups, hnames]
  rfl

end Automaton

end RegexEngine
