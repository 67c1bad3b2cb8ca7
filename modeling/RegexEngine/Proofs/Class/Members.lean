import RegexEngine.Proofs.CharSet.Complement
import RegexEngine.Proofs.Class.Grammar

/-!
# What a class denotes

A class stands for the characters that some item lists, or for all others.  `Class.admits` says
this character by character, from the items alone.  `test_denoted` is that the set of a class
agrees.

If a negated class lists U+D7FF and U+E000 by different ranges, its set is wrong about these two
characters, since only surrogates lie between them.  Such items are `Severed`.
-/

namespace RegexEngine

/-- Whether an item lists a character. -/
def ClassItem.lists : ClassItem → Char → Bool
  | range first last, c => first ≤ c && c ≤ last
  | set members, c => members.test c

/-- Whether the bounds of an item are in order. -/
def ClassItem.InOrder : ClassItem → Prop
  | range first last => first ≤ last
  | set _ => True

theorem ClassItem.test_members {item : ClassItem} (h : item.InOrder) (c : Char) :
    item.members.test c = item.lists c := by
  cases item with
  | range first last =>
    rw [Bool.eq_iff_iff, members, CharSet.test_ofRange h]
    simp [lists]
  | set members => rfl

namespace Class

variable {s rest : List Char} {negated : Bool} {items : List ClassItem} {a b c : Char}

/-- Whether some item lists a character. -/
def lists (items : List ClassItem) (c : Char) : Bool :=
  items.any (·.lists c)

/-- Whether a class with these items stands for a character. -/
def admits (negated : Bool) (items : List ClassItem) (c : Char) : Bool :=
  if negated then !lists items c else lists items c

/-- Whether the items list the characters on both sides of the surrogates, but by different
ranges. -/
def Severed (items : List ClassItem) : Prop :=
  lists items '\uD7FF' ∧ lists items '\uE000' ∧
    ∀ item ∈ items, ¬item.members.Joins '\uD7FF' '\uE000'

/-! ## Items that have been read -/

theorem ItemsAt.inOrder (h : ItemsAt s items rest) : ∀ item ∈ items, item.InOrder := by
  induction h with
  | close => exact nofun
  | item _ hitem _ ih =>
    refine List.forall_mem_cons.2 ⟨?_, ih⟩
    cases hitem with
    | set => exact True.intro
    | range _ _ _ hle => exact hle
    | char => exact Char.le_refl _

theorem BodyAt.inOrder (h : BodyAt s items rest) : ∀ item ∈ items, item.InOrder := by
  cases h with
  | literal _ h => exact List.forall_mem_cons.2 ⟨Char.le_refl _, h.inOrder⟩
  | items _ h => exact h.inOrder

theorem Spells.inOrder (h : Spells s negated items) : ∀ item ∈ items, item.InOrder := by
  cases h with
  | negated h | plain _ h => exact h.inOrder

/-! ## The set of the items -/

theorem test_foldl_union (set : CharSet) (h : ∀ item ∈ items, item.InOrder) :
    (items.foldl (fun set item => set.union item.members) set).test c =
    (set.test c || lists items c) := by
  induction items generalizing set with
  | nil => simp [lists]
  | cons item items ih =>
    obtain ⟨hitem, hitems⟩ := List.forall_mem_cons.1 h
    rw [List.foldl_cons, ih _ hitems, CharSet.test_union, item.test_members hitem, Bool.or_assoc]
    rfl

/-- The set of the items has the characters that some item lists. -/
theorem test_members (h : ∀ item ∈ items, item.InOrder) (c : Char) :
    (members items).test c = lists items c := by
  rw [members, test_foldl_union _ h, CharSet.test_empty, Bool.false_or]

theorem canonical_members (items : List ClassItem) : (members items).Canonical := by
  have hfold (set : CharSet) (h : set.Canonical) :
      (items.foldl (fun set item => set.union item.members) set).Canonical := by
    induction items generalizing set with
    | nil => exact h
    | cons item items ih => exact ih _ (h.union _)
  exact hfold _ CharSet.canonical_empty

theorem joins_foldl_union (set : CharSet)
    (h : set.Joins a b ∨ ∃ item ∈ items, item.members.Joins a b) :
    (items.foldl (fun set item => set.union item.members) set).Joins a b := by
  induction items generalizing set with
  | nil => simpa using h
  | cons item items ih =>
    rw [List.exists_mem_cons_iff, ← or_assoc] at h
    exact ih _ (h.imp_left CharSet.joins_union)

/-- The set of the items joins what one of them joins. -/
theorem joins_members (h : ∃ item ∈ items, item.members.Joins a b) : (members items).Joins a b :=
  joins_foldl_union .empty (.inr h)

theorem severed_of_severed_members (hitems : ∀ item ∈ items, item.InOrder)
    (h : (members items).Severed) :
    Severed items := by
  obtain ⟨hbefore, hafter, hjoins⟩ := h
  rw [test_members hitems] at hbefore hafter
  exact ⟨hbefore, hafter, fun item hitem hjoin => hjoins (joins_members ⟨item, hitem, hjoin⟩)⟩

/-- The set of a class has the characters that the class stands for.  If the items are severed,
this is not said of the complement for the characters on the two sides of the surrogates. -/
theorem test_denoted (h : ∀ item ∈ items, item.InOrder)
    (hc : negated = true → Severed items → c ≠ '\uD7FF' ∧ c ≠ '\uE000') :
    (denoted negated items).test c = admits negated items c := by
  cases negated with
  | false => exact test_members h c
  | true =>
    have hwhole (hsevered : (members items).Severed) : c ≠ '\uD7FF' ∧ c ≠ '\uE000' :=
      hc rfl (severed_of_severed_members h hsevered)
    show (members items).compl.test c = !lists items c
    rw [CharSet.test_compl_of_canonical (canonical_members items) hwhole, test_members h]

/-- The complement of a severed set has both characters on the sides of the surrogates. -/
example : (denoted true [.range '\uD7FF' '\uD7FF', .range '\uE000' '\uE000']).test '\uD7FF' := by
  decide +kernel

end Class

end RegexEngine
