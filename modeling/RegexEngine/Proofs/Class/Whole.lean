import RegexEngine.Proofs.Class.Grammar
import RegexEngine.Proofs.Parsing.Outcome

/-!
# Patterns that are one class

A pattern text that starts with a bracket is read as a class alone just if the rest of the text
is that of a class, without the bracket.

The class is the first token.  Whatever token follows makes more of the pattern than a class:
the level `Exceeds` it, or a group is open and a level of which something has been read is around
it.  Each later token keeps that.
-/

namespace RegexEngine

namespace Level

variable {l : Level} {p : Pattern} {parts : List Pattern} {set : CharSet}

/-- Something of a level has been read. -/
def Begun (l : Level) : Prop :=
  l.branches ≠ [] ∨ l.settled ≠ []

/-- More of a level has been read than a class. -/
def Exceeds (l : Level) : Prop :=
  l.branches ≠ [] ∨ l.settled ≠ [] ∧ ∀ set, l.settled ≠ [.oneOf set]

theorem Exceeds.begun (h : l.Exceeds) : l.Begun :=
  h.imp_right And.left

theorem push_ne_nil : push p parts ≠ [] := by
  fun_cases push p parts <;> simp

/-- What is pushed onto other parts is not alone, or it is a text. -/
theorem push_ne_oneOf (h : parts ≠ []) : push p parts ≠ [.oneOf set] := by
  fun_cases push p parts <;> simp_all

theorem Begun.addAtom (h : l.Begun) (p : Pattern) : (l.addAtom p).Exceeds :=
  h.imp_right fun hsettled => ⟨push_ne_nil, fun _ => push_ne_oneOf hsettled⟩

theorem exceeds_repeated (l : Level) (p : Pattern) (min : Nat) (max : Option Nat) (mode : Mode) :
    Exceeds { l with parts := .repeated p min max mode :: l.parts, atom := none } :=
  .inr ⟨List.cons_ne_nil _ _, fun _ h => by cases h⟩

theorem exceeds_addBar (l : Level) : l.addBar.Exceeds :=
  .inl (List.cons_ne_nil _ _)

/-- A level of which more than a class has been read is no class. -/
theorem Exceeds.pattern_ne (h : l.Exceeds) : l.pattern ≠ .oneOf set := by
  unfold pattern
  by_cases hbranches : l.branches = []
  · obtain ⟨hne, hset⟩ := h.resolve_left (not_not_intro hbranches)
    rw [hbranches]
    show l.branch ≠ _
    unfold branch
    by_cases hlen : l.settled.length = 1
    · obtain ⟨p, hp⟩ := List.length_eq_one_iff.1 hlen
      rw [hp] at hset ⊢
      exact fun heq => hset set (congrArg (fun p => [p]) heq)
    · rw [Pattern.seq_of_length_ne (by simpa using hlen)]
      exact nofun
  · have hlen : (l.branch :: l.branches).reverse.length ≠ 1 := by simpa using hbranches
    rw [Pattern.choice_of_length_ne hlen]
    exact nofun

end Level

namespace Partial

variable {p q : Partial (List Char)} {start s : List Char} {token : Token} {pattern : Pattern}

/-- More of a pattern has been read than a class: of the only level, or something before the
outermost group that is open. -/
def Exceeds (p : Partial (List Char)) : Prop :=
  p.groups = [] ∧ p.level.Exceeds ∨ ∃ group, p.groups.getLast? = some group ∧ group.outer.Begun

/-- One more token makes more of a pattern than a class. -/
theorem exceeds_of_begun (hgroups : p.groups = []) (h : p.level.Begun)
    (hadd : p.add start token = .ok q) :
    q.Exceeds := by
  cases token with
  | atom pattern =>
    obtain rfl := Except.ok.inj hadd
    exact .inl ⟨hgroups, h.addAtom pattern⟩
  | quantifier min max mode =>
    simp only [add] at hadd
    split at hadd
    · cases hadd
    · obtain rfl := Except.ok.inj hadd
      exact .inl ⟨hgroups, Level.exceeds_repeated p.level _ min max mode⟩
  | opening kind =>
    obtain rfl := Except.ok.inj hadd
    refine .inr ⟨⟨kind, start, p.level⟩, ?_, h⟩
    rw [hgroups]
    rfl
  | bar =>
    obtain rfl := Except.ok.inj hadd
    exact .inl ⟨hgroups, Level.exceeds_addBar p.level⟩
  | close =>
    simp only [add, hgroups] at hadd
    cases hadd

/-- No token makes a class of it again. -/
theorem exceeds_add (h : p.Exceeds) (hadd : p.add start token = .ok q) : q.Exceeds := by
  rcases h with ⟨hgroups, hlevel⟩ | ⟨outermost, hlast, hbegun⟩
  · exact exceeds_of_begun hgroups hlevel.begun hadd
  · cases token with
    | atom pattern =>
      obtain rfl := Except.ok.inj hadd
      exact .inr ⟨outermost, hlast, hbegun⟩
    | quantifier min max mode =>
      simp only [add] at hadd
      split at hadd
      · cases hadd
      · obtain rfl := Except.ok.inj hadd
        exact .inr ⟨outermost, hlast, hbegun⟩
    | opening kind =>
      obtain rfl := Except.ok.inj hadd
      refine .inr ⟨outermost, ?_, hbegun⟩
      rw [List.getLast?_cons, hlast]
      rfl
    | bar =>
      obtain rfl := Except.ok.inj hadd
      exact .inr ⟨outermost, hlast, hbegun⟩
    | close =>
      simp only [add] at hadd
      split at hadd
      · cases hadd
      · rename_i group groups hgroups
        obtain rfl := Except.ok.inj hadd
        rw [hgroups, List.getLast?_cons] at hlast
        -- The group that ends is the outermost one, or that one is still open.
        cases hinner : groups.getLast? with
        | none =>
          rw [hinner] at hlast
          obtain rfl := Option.some.inj hlast
          exact .inl ⟨List.getLast?_eq_none_iff.1 hinner, hbegun.addAtom _⟩
        | some outer =>
          rw [hinner] at hlast
          obtain rfl := Option.some.inj hlast
          exact .inr ⟨_, hinner, hbegun⟩

/-- Where more than a class has been read, the pattern is no class. -/
theorem ne_of_readAll (h : p.Exceeds) (hread : p.readAll s = .ok pattern) (set : CharSet) :
    pattern ≠ .oneOf set := by
  fun_induction readAll p s with
  | case1 p =>
    unfold finish at hread
    split at hread
    · rename_i hgroups
      obtain rfl := Except.ok.inj hread
      rcases h with ⟨_, hlevel⟩ | ⟨outermost, hlast, _⟩
      · exact hlevel.pattern_ne
      · rw [hgroups] at hlast
        cases hlast
    · cases hread
  | case2 => cases hread
  | case3 => cases hread
  | case4 p c s token rest _ q hadd ih => exact ih (exceeds_add h hadd) hread

/-- What is read after a class is a class only if there is nothing to read. -/
theorem readAll_class_iff {set set' : CharSet} :
    readAll { level := Level.addAtom {} (.oneOf set) } s = .ok (.oneOf set') ↔
      s = [] ∧ set = set' := by
  constructor
  · intro h
    rw [readAll.eq_def] at h
    split at h
    · cases h
      exact ⟨rfl, rfl⟩
    · split at h
      · cases h
      · split at h
        · cases h
        · rename_i hadd
          have hbegun : (Level.addAtom {} (.oneOf set)).Begun :=
            .inr (List.cons_ne_nil (Pattern.oneOf set) [])
          exact absurd rfl (ne_of_readAll (exceeds_of_begun rfl hbegun hadd) h set')
  · rintro ⟨rfl, rfl⟩
    rw [readAll]
    rfl

end Partial

/-- A pattern text that starts with a bracket is read as a class just if it is the text of a
class. -/
theorem Pattern.parse_class_iff {s : List Char} {set : CharSet} :
    parse ('[' :: s) = .ok (.oneOf set) ↔
      ∃ negated items, Class.Spells s negated items ∧ set = Class.denoted negated items := by
  rw [← Class.read_iff ('[' :: s)]
  have htoken : Token.read '[' s =
      (Class.read ('[' :: s) s).map fun result => (.atom (.oneOf result.1), result.2) := rfl
  have hparse (result : Except (ParseError (List Char)) Pattern) :
      result.mapError (·.map (offset ('[' :: s))) = .ok (.oneOf set) ↔
          result = .ok (.oneOf set) := by
    cases result <;> simp [Except.mapError]
  rw [parse, hparse, read, Partial.readAll]
  split
  · rename_i heq
    rw [htoken] at heq
    cases hread : Class.read ('[' :: s) s with
    | error e => simp
    | ok result =>
      rw [hread] at heq
      cases heq
  · rename_i token rest heq
    rw [htoken] at heq
    obtain ⟨⟨set', rest'⟩, hread, htail⟩ := Token.map_eq_ok heq
    cases htail
    rw [hread]
    simp only [Except.ok.injEq, Prod.mk.injEq]
    exact Partial.readAll_class_iff.trans and_comm

end RegexEngine
