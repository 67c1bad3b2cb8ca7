import RegexEngine.Proofs.Meaning.Within
import RegexEngine.Proofs.Rejection

/-!
# Patterns around patterns

A `Pattern.Context` is a pattern with a hole.  The options of what fills the hole, and how many
groups have been numbered before it, come from the context.

What is defined by recursion on a pattern is the same for two patterns in one context if it is
the same for what fills the hole: the error, the number of groups, and the groups.
-/

namespace RegexEngine

namespace Pattern

/-- A pattern with a hole. -/
inductive Context where
  /-- Nothing around the hole. -/
  | hole
  /-- The hole is in one of the parts that come one after the other. -/
  | concat (before : List Pattern) (inner : Context) (after : List Pattern)
  /-- The hole is in one of the branches. -/
  | alt (before : List Pattern) (inner : Context) (after : List Pattern)
  /-- The hole is in what is repeated. -/
  | repeated (inner : Context) (min : Nat) (max : Option Nat) (mode : Mode)
  /-- The hole is under changed options. -/
  | withFlags (flags : FlagOverride) (inner : Context)
  /-- The hole is in what is looked for on a side. -/
  | lookAround (direction : Direction) (negated : Bool) (inner : Context)
  /-- The hole is in what is matched in one way only. -/
  | atomic (inner : Context)
  /-- The hole is in a group. -/
  | capture (name : Option String) (inner : Context)

namespace Context

/-- The pattern with the hole filled. -/
def fill : Context → Pattern → Pattern
  | hole, q => q
  | concat before inner after, q => .concat (before ++ inner.fill q :: after)
  | alt before inner after, q => .alt (before ++ inner.fill q :: after)
  | repeated inner min max mode, q => .repeated (inner.fill q) min max mode
  | withFlags flags inner, q => .withFlags flags (inner.fill q)
  | lookAround direction negated inner, q => .lookAround direction negated (inner.fill q)
  | atomic inner, q => .atomic (inner.fill q)
  | capture name inner, q => .capture name (inner.fill q)

/-- The options at the hole. -/
def options : Context → Options → Options
  | hole, o => o
  | withFlags flags inner, o => inner.options (o.overlay flags)
  | concat _ inner _, o | alt _ inner _, o | repeated inner _ _ _, o | lookAround _ _ inner, o
  | atomic inner, o | capture _ inner, o => inner.options o

/-- How many groups are numbered before those of the hole. -/
def numbered : Context → Nat
  | hole => 0
  | concat before inner _ | alt before inner _ => numberedAll before + inner.numbered
  | repeated inner _ _ _ | withFlags _ inner | lookAround _ _ inner | atomic inner => inner.numbered
  | capture none inner => inner.numbered + 1
  | capture (some _) inner => inner.numbered

end Context

/-! ## Lists of patterns -/

theorem numberedAll_append (parts parts' : List Pattern) :
    numberedAll (parts ++ parts') = numberedAll parts + numberedAll parts' := by
  induction parts with
  | nil => simp [numberedAll]
  | cons part parts ih =>
    simp only [List.cons_append, numberedAll, ih]
    omega

theorem keysAll_append (base : Nat) (parts parts' : List Pattern) :
    keysAll base (parts ++ parts') = keysAll base parts ++
      keysAll (base + numberedAll parts) parts' := by
  induction parts generalizing base with
  | nil => simp [keysAll, numberedAll]
  | cons part parts ih =>
    simp only [List.cons_append, keysAll, numberedAll, ih, List.append_assoc, Nat.add_assoc]

theorem errorAmong?_append (parts parts' : List Pattern) :
    errorAmong? (parts ++ parts') = (errorAmong? parts).or (errorAmong? parts') := by
  induction parts with
  | nil => rfl
  | cons part parts ih => simp only [List.cons_append, errorAmong?, ih, Option.or_assoc]

/-! ## Equal holes -/

namespace Context

variable {q q' : Pattern}

theorem numbered_fill (C : Context) (h : q.numbered = q'.numbered) :
    (C.fill q).numbered = (C.fill q').numbered := by
  induction C with
  | hole => exact h
  | concat before inner after ih | alt before inner after ih =>
    simp only [fill, Pattern.numbered, numberedAll_append, numberedAll, ih]
  | repeated inner min max mode ih => simp only [fill, Pattern.numbered, ih]
  | withFlags flags inner ih | lookAround direction negated inner ih | atomic inner ih =>
    simpa only [fill, Pattern.numbered] using ih
  | capture name inner ih => cases name <;> simp only [fill, Pattern.numbered, ih]

theorem keys_fill (C : Context) (hnumbered : q.numbered = q'.numbered)
    (h : ∀ base, q.keys base = q'.keys base) (base : Nat) :
    (C.fill q).keys base = (C.fill q').keys base := by
  induction C generalizing base with
  | hole => exact h base
  | concat before inner after ih | alt before inner after ih =>
    simp only [fill, Pattern.keys, keysAll_append, keysAll, ih, inner.numbered_fill hnumbered]
  | repeated inner min max mode ih => simp only [fill, Pattern.keys, ih]
  | withFlags flags inner ih | lookAround direction negated inner ih | atomic inner ih =>
    simpa only [fill, Pattern.keys] using ih base
  | capture name inner ih => cases name <;> simp only [fill, Pattern.keys, ih]

theorem error?_fill (C : Context) (h : q.error? = q'.error?) :
    (C.fill q).error? = (C.fill q').error? := by
  induction C with
  | hole => exact h
  | concat before inner after ih | alt before inner after ih =>
    simp only [fill, error?, errorAmong?_append, errorAmong?, ih]
  | repeated inner min max mode ih => simp only [fill, error?, ih]
  | withFlags flags inner ih | lookAround direction negated inner ih | atomic inner ih
  | capture name inner ih => simpa only [fill, error?] using ih

/-- A context that can be compiled with one pattern can be compiled with another one, if that can
be compiled whenever the first one can. -/
theorem error?_fill_eq_none (C : Context) (h : q.error? = none → q'.error? = none) :
    (C.fill q).error? = none → (C.fill q').error? = none := by
  induction C with
  | hole => exact h
  | concat before inner after ih | alt before inner after ih =>
    simp only [fill, error?, errorAmong?_append, errorAmong?, Option.or_eq_none_iff]
    exact fun ⟨hbefore, hinner, hafter⟩ => ⟨hbefore, ih hinner, hafter⟩
  | repeated inner min max mode ih =>
    intro he
    have hmax := le_of_error?_eq_none he
    rw [fill, error?_repeated hmax] at he ⊢
    split at he
    · rename_i hskip
      rw [if_pos hskip]
    · rename_i hmany
      rw [if_neg hmany]
      exact ih he
  | withFlags flags inner ih | lookAround direction negated inner ih | atomic inner ih
  | capture name inner ih => simpa only [fill, error?] using ih

end Context

end Pattern

end RegexEngine
