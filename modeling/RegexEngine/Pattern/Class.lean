import RegexEngine.Pattern.Escape

/-!
# Character classes

A class lists its members between brackets.  An item is a character, a range of
characters or an escape, and the class is the union of its items, or what
remains without them after a leading `^`.  Directly at the start a `]` or `-`
stands for itself.

* `Class.readItems` reads the items up to the closing bracket.
* `Class.members` is the set of the characters that some item lists.
* `Class.read` reads a whole class.
-/

namespace RegexEngine

/-- An item of a class. -/
inductive ClassItem where
  /-- The characters from `first` to `last`. -/
  | range (first last : Char)
  /-- The characters of a set. -/
  | set (members : CharSet)
deriving DecidableEq, Repr

/-- The characters that an item lists. -/
def ClassItem.members : ClassItem → CharSet
  | range first last => CharSet.ofRange first last
  | set members => members

namespace Class

/-- The characters that some item lists. -/
def members (items : List ClassItem) : CharSet :=
  items.foldl (fun s item => s.union item.members) .empty

/-- Reads a character or an escape. -/
def readAtom : List Char → Reading ClassAtom
  | [] => .error (.unterminatedClass [])
  | '\\' :: s => Escape.read true s
  | c :: s => .ok (.char c, s)

/-- The text after the dash, if a range goes on here. -/
def afterDash? : List Char → Option (List Char)
  | '-' :: c :: s => if c = ']' then none else some (c :: s)
  | _ => none

/-- Reads what follows the dash of a range that starts with `first`. -/
def readRange (first : Char) (s : List Char) : Reading ClassItem :=
  match readAtom s with
  | .error e => .error e
  | .ok (.set _, _) => .error (.badClassRange first '-')
  | .ok (.char last, rest) =>
    if first ≤ last then .ok (.range first last, rest)
    else .error (.badClassRange first last)

/-- Reads an item. -/
def readItem (s : List Char) : Reading ClassItem :=
  match readAtom s with
  | .error e => .error e
  | .ok (.set members, rest) => .ok (.set members, rest)
  | .ok (.char c, rest) =>
    match afterDash? rest with
    | some tail => readRange c tail
    | none => .ok (.range c c, rest)

theorem length_lt_of_readAtom {s rest : List Char} {atom : ClassAtom}
    (h : readAtom s = .ok (atom, rest)) : rest.length < s.length := by
  unfold readAtom at h
  split at h
  · simp at h
  · have := Escape.length_lt_of_read h
    simp
    omega
  · simp only [Except.ok.injEq, Prod.mk.injEq] at h
    simp [← h.2]

theorem length_lt_of_afterDash? {s rest : List Char} (h : afterDash? s = some rest) :
    rest.length < s.length := by
  unfold afterDash? at h
  split at h
  · simp only [Option.ite_none_left_eq_some, Option.some.injEq] at h
    simp [← h.2]
  · simp at h

theorem length_lt_of_readRange {s rest : List Char} {first : Char} {item : ClassItem}
    (h : readRange first s = .ok (item, rest)) : rest.length < s.length := by
  unfold readRange at h
  split at h
  · simp at h
  · simp at h
  · rename_i hatom
    split at h
    · simp only [Except.ok.injEq, Prod.mk.injEq] at h
      exact h.2 ▸ length_lt_of_readAtom hatom
    · simp at h

/-- Reading an item leaves less text than there was. -/
theorem length_lt_of_readItem {s rest : List Char} {item : ClassItem}
    (h : readItem s = .ok (item, rest)) : rest.length < s.length := by
  unfold readItem at h
  split at h
  · simp at h
  · rename_i hatom
    simp only [Except.ok.injEq, Prod.mk.injEq] at h
    exact h.2 ▸ length_lt_of_readAtom hatom
  · rename_i hatom
    have := length_lt_of_readAtom hatom
    split at h
    · rename_i hdash
      have := length_lt_of_afterDash? hdash
      have := length_lt_of_readRange h
      omega
    · simp only [Except.ok.injEq, Prod.mk.injEq] at h
      exact h.2 ▸ this

/-- Reads the items up to the closing bracket of the class that was opened at
`opening`. -/
def readItems (opening s : List Char) : Reading (List ClassItem) :=
  match s with
  | [] => .error (.unterminatedClass opening)
  | ']' :: rest => .ok ([], rest)
  | c :: s =>
    match _h : readItem (c :: s) with
    | .error e => .error e
    | .ok (item, rest) =>
      match readItems opening rest with
      | .error e => .error e
      | .ok (items, rest) => .ok (item :: items, rest)
termination_by s.length
decreasing_by exact length_lt_of_readItem _h

/-- Reads the bracket or dash that may stand at the start of a class. -/
def readFirst : List Char → List ClassItem × List Char
  | ']' :: s => ([.range ']' ']'], s)
  | '-' :: s => ([.range '-' '-'], s)
  | s => ([], s)

/-- Reads the `^` that may follow the opening bracket. -/
def readNegation : List Char → Bool × List Char
  | '^' :: s => (true, s)
  | s => (false, s)

/-- Reads a class of which the opening bracket, at `opening`, has been read. -/
def read (opening s : List Char) : Reading CharSet :=
  let (negated, s) := readNegation s
  let (first, s) := readFirst s
  match readItems opening s with
  | .error e => .error e
  | .ok (items, rest) =>
    let set := members (first ++ items)
    .ok (if negated then set.compl else set, rest)

theorem length_readFirst_le (s : List Char) : (readFirst s).2.length ≤ s.length := by
  unfold readFirst
  split <;> simp

theorem length_readNegation_le (s : List Char) : (readNegation s).2.length ≤ s.length := by
  unfold readNegation
  split <;> simp

theorem length_lt_of_readItems {opening s rest : List Char} {items : List ClassItem}
    (h : readItems opening s = .ok (items, rest)) : rest.length < s.length := by
  fun_induction readItems opening s generalizing items rest with
  | case1 => simp at h
  | case2 =>
    simp only [Except.ok.injEq, Prod.mk.injEq] at h
    simp [← h.2]
  | case3 => simp at h
  | case4 => simp at h
  | case5 c s _ item mid hitem items' tail htail ih =>
    simp only [Except.ok.injEq, Prod.mk.injEq] at h
    obtain ⟨_, rfl⟩ := h
    exact Nat.lt_trans (ih htail) (length_lt_of_readItem hitem)

/-- Reading a class leaves less text than there was. -/
theorem length_lt_of_read {opening s rest : List Char} {set : CharSet}
    (h : read opening s = .ok (set, rest)) : rest.length < s.length := by
  simp only [read] at h
  split at h
  · simp at h
  · rename_i hitems
    simp only [Except.ok.injEq, Prod.mk.injEq] at h
    obtain ⟨_, rfl⟩ := h
    have := length_lt_of_readItems hitems
    have := length_readFirst_le (readNegation s).2
    have := length_readNegation_le s
    omega

end Class

end RegexEngine
