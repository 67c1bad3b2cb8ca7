/-!
# Items that come one after the other

What comes one after the other may break off.  The items before are there all the same, and what
would come behind is not.

* `Yield.append` goes on with other items behind the last one.
* `Yield.join` goes through several yields.
* `Yield.tryMap` does something to each item that may break off too.
-/

namespace RegexEngine

/-- Items, and why no more of them come, if they break off. -/
structure Yield (ε α : Type) where
  /-- The items, in order. -/
  items : List α := []
  /-- Why they break off. -/
  stop : Option ε := none
deriving DecidableEq, Repr

namespace Yield

variable {ε α β : Type}

/-- No items, since they have broken off before. -/
def stopped (why : ε) : Yield ε α where
  stop := some why

/-- An item before the others. -/
def cons (x : α) (y : Yield ε α) : Yield ε α :=
  { y with items := x :: y.items }

/-- Other items behind the last one, if they do not break off. -/
def append (y later : Yield ε α) : Yield ε α :=
  match y.stop with
  | some _ => y
  | none => { later with items := y.items ++ later.items }

/-- All items, until they break off. -/
def join : List (Yield ε α) → Yield ε α
  | [] => {}
  | y :: later => y.append (join later)

/-- Does something to each item. -/
def tryMap (f : α → Except ε β) (y : Yield ε α) : Yield ε β :=
  go y.items
where
  go : List α → Yield ε β
    | [] => { stop := y.stop }
    | x :: later =>
      match f x with
      | .error why => stopped why
      | .ok x' => (go later).cons x'

/-- The items with a property. -/
def filter (p : α → Bool) (y : Yield ε α) : Yield ε α :=
  { y with items := y.items.filter p }

/-- Gives another reason for breaking off. -/
def mapStop {ε' : Type} (f : ε → ε') (y : Yield ε α) : Yield ε' α where
  items := y.items
  stop := y.stop.map f

@[simp] theorem stop_mapStop {ε' : Type} (f : ε → ε') (y : Yield ε α) :
    (y.mapStop f).stop = y.stop.map f := rfl

/-- Where the items break off first is where they do together. -/
@[simp] theorem stop_append (y later : Yield ε α) :
    (y.append later).stop = y.stop.or later.stop := by
  obtain ⟨items, _ | why⟩ := y <;> rfl

@[simp] theorem append_nil (y : Yield ε α) : y.append {} = y := by
  obtain ⟨items, _ | why⟩ := y
  · simp [append]
  · rfl

theorem append_assoc (y y' later : Yield ε α) :
    (y.append y').append later = y.append (y'.append later) := by
  obtain ⟨items, _ | why⟩ := y
  · obtain ⟨items', _ | why'⟩ := y'
    · simp [append]
    · rfl
  · rfl

end Yield

end RegexEngine
