import RegexEngine.Proofs.Meaning.Suffix
import RegexEngine.Proofs.Possessive

/-!
# Matches behind a prefix

A pattern that asks for nothing that comes before a match has the matches that it would have if the
subject began there.

* `Match.shift` moves all offsets of a match.
* `Automaton.matchAt_rest` is about a subject and its rest behind any prefix.
* `Automaton.matchAt_behind` is about the match that starts just behind a prefix, with
  deterministic automata and without.
-/

namespace RegexEngine

/-- The span `n` bytes further on. -/
def Span.shift (n : Nat) (span : Span) : Span :=
  (n + span.1, n + span.2)

/-- The match `n` bytes further on. -/
def Match.shift (n : Nat) (m : Match) : Match where
  whole := Span.shift n m.whole
  groups := m.groups.map (Option.map (Span.shift n))
  names := m.names.map fun (name, span) => (name, span.map (Span.shift n))

theorem Registers.span?_shift (keys : List GroupKey) (groups : Groups) (n slot : Nat) :
    Registers.span? { slots := (groups.shift n).slots keys } slot =
      (Registers.span? { slots := groups.slots keys } slot).map (Span.shift n) := by
  cases hkey : keys[slot]? with
  | none => simp [Registers.span?, Groups.slots, hkey]
  | some key =>
    unfold Registers.span?
    simp only [Groups.getElem?_slots hkey, Option.join_some]
    exact Groups.span_shift n groups key

namespace Automaton

variable {o : Options} {p : Pattern} {a : Automaton} {before : List Char} {whole rest : Subject}

theorem toMatch_shift (a : Automaton) (keys : List GroupKey) (groups : Groups) (n pos stop : Nat) :
    a.toMatch (n + pos) (n + stop) { slots := (groups.shift n).slots keys } =
      (a.toMatch pos stop { slots := groups.slots keys }).shift n := by
  have hspan := funext (Registers.span?_shift keys groups n)
  unfold toMatch Match.shift
  rw [hspan]
  simp [Span.shift, Function.comp_def]

/-- The match at a position behind a prefix is the one in the rest, moved. -/
theorem matchAt_rest (h : compile o p = .ok a) (hp : p.looksBack = false)
    (hrest : Subject.Rest before whole rest) (pos : Nat) :
    a.matchAt whole (byteLength before + pos) =
      ((a.matchAt rest pos).map (Option.map (Match.shift (byteLength before)))).mapError
        (Fault.shift (byteLength before)) := by
  have hboundary := hrest.isBoundary pos
  cases hpos : rest.isBoundary pos with
  | false =>
    rw [hpos] at hboundary
    rw [matchAt_of_not_isBoundary hboundary, matchAt_of_not_isBoundary hpos]
    rfl
  | true =>
    rw [hpos] at hboundary
    obtain ⟨keys, hkeyed, hmatch⟩ := exists_keys_matchAt h whole hboundary
    obtain ⟨keys', hkeyed', hmatch'⟩ := exists_keys_matchAt h rest hpos
    have hendings : p.meaning whole o 0 whole.size (byteLength before + pos) .fresh =
        (p.meaning rest o 0 rest.size pos .fresh).map (Ending.shift (byteLength before)) := by
      rw [hrest.size]
      exact Pattern.shifts_meaning hrest o 0 p hp rest.size pos .fresh
    rw [hmatch, hmatch', hkeyed.eq hkeyed' fun _ => rfl, hendings, List.head?_map]
    match (p.meaning rest o 0 rest.size pos .fresh).head? with
    | none => rfl
    | some (.error fault) => rfl
    | some (.ok (stop, groups)) =>
      show Except.ok (some (a.toMatch _ (byteLength before + stop) _)) = Except.ok (some _)
      rw [toMatch_shift]

/-- A pattern that asks for nothing that comes before a match does not see it: just behind a prefix
it has the match that it has at the start of what follows, with all offsets moved, or none, or the
same fault with its offsets moved.  That holds with deterministic automata and without. -/
theorem matchAt_behind (h : compile o p = .ok a) (hp : p.looksBack = false) :
    ∃ b, ofPattern o p = .ok b ∧ ∀ before after : List Char,
      a.matchAt (.ofList (before ++ after)) (byteLength before) =
        ((a.matchAt (.ofList after) 0).map (Option.map (Match.shift (byteLength before)))).mapError
          (Fault.shift (byteLength before)) ∧
      b.matchAt (.ofList (before ++ after)) (byteLength before) =
        ((b.matchAt (.ofList after) 0).map (Option.map (Match.shift (byteLength before)))).mapError
          (Fault.shift (byteLength before)) := by
  refine ⟨a.promote, ofPattern_eq_promote h, ?_⟩
  intro before after
  rw [matchAt_promote h, matchAt_promote h]
  have hbehind := matchAt_rest h hp (Subject.rest_ofList before after) 0
  exact ⟨hbehind, hbehind⟩

/-- A group ahead of its text once more, up to the end of the input. -/
def groupTwice : Pattern :=
  .concat [.capture (some "n") (.oneOrMore (.text ['a']) .lazy), .lookAhead (.text ['a']),
    .atomic (.reference (.name "n")), .assert .inputEnd]

theorem matchAt_behind_groupTwice :
    ∃ a, compile {} groupTwice = .ok a ∧ groupTwice.looksBack = false ∧
      ∃ b, ofPattern {} groupTwice = .ok b ∧
        a.matchAt (.ofList (['é'] ++ ['a', 'a'])) 2 =
          ((a.matchAt (.ofList ['a', 'a']) 0).map (Option.map (Match.shift 2))).mapError
            (Fault.shift 2) ∧
        b.matchAt (.ofList (['é'] ++ ['a', 'a'])) 2 =
          ((b.matchAt (.ofList ['a', 'a']) 0).map (Option.map (Match.shift 2))).mapError
            (Fault.shift 2) := by
  have hcompile : (compile {} groupTwice).toOption.isSome := by decide +kernel
  cases ha : compile {} groupTwice with
  | error fault => simp [ha, Except.toOption] at hcompile
  | ok a =>
    have hp : groupTwice.looksBack = false := by decide
    obtain ⟨b, hb, hbehind⟩ := matchAt_behind ha hp
    exact ⟨a, rfl, hp, b, hb, hbehind ['é'] ['a', 'a']⟩

end Automaton

end RegexEngine
