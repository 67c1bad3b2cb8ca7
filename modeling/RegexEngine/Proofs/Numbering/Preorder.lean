import RegexEngine.Proofs.Context
import RegexEngine.Proofs.Numbering.Table

/-!
# Groups in the order of a pattern

The captures of a pattern stand in an order, each before those in its body.  Those without a
name are numbered in that order, and a capture that repetition copies has one number.  What is
repeated no times at all is not compiled, so that the captures in there have no number.

* `Pattern.groups` lists the captures, and `Pattern.numberFrom` numbers them.
* `Pattern.keepsGroups` says that no capture stands in what is repeated no times at all.
* `Pattern.keys_eq_numberFrom`: then the groups of a pattern are its captures.
-/

namespace RegexEngine

namespace Pattern

mutual

/-- The captures of a pattern, each before those in its body, with their names. -/
def groups : Pattern → List (Option String)
  | text _ | oneOf _ | assert _ | reference _ => []
  | concat parts => groupsAmong parts
  | alt branches => groupsAmong branches
  | repeated body _ _ _ | withFlags _ body | lookAround _ _ body | atomic body => groups body
  | capture name body => name :: groups body

/-- The captures of patterns, one after the other. -/
def groupsAmong : List Pattern → List (Option String)
  | [] => []
  | part :: parts => groups part ++ groupsAmong parts

end

/-- The keys of captures in their order, where `base` captures without a name come before. -/
def numberFrom (base : Nat) : List (Option String) → List GroupKey
  | [] => []
  | none :: groups => .index (base + 1) :: numberFrom (base + 1) groups
  | some name :: groups => .name name :: numberFrom base groups

mutual

/-- No capture stands in what is repeated no times at all.  What is possessive is compiled
nevertheless. -/
def keepsGroups : Pattern → Bool
  | text _ | oneOf _ | assert _ | reference _ => true
  | concat parts => keepAllGroups parts
  | alt branches => keepAllGroups branches
  | repeated body _ max mode =>
    (decide (max = some 0 ∧ mode ≠ .possessive → groups body = [])) && keepsGroups body
  | withFlags _ body | lookAround _ _ body | atomic body | capture _ body => keepsGroups body

/-- No capture of the patterns stands in what is repeated no times at all. -/
def keepAllGroups : List Pattern → Bool
  | [] => true
  | part :: parts => keepsGroups part && keepAllGroups parts

end

theorem numberFrom_append (base : Nat) (groups groups' : List (Option String)) :
    numberFrom base (groups ++ groups') =
      numberFrom base groups ++ numberFrom (base + groups.count none) groups' := by
  induction groups generalizing base with
  | nil => rfl
  | cons group groups ih =>
    cases group with
    | none =>
      simp only [List.cons_append, numberFrom, ih, List.count_cons_self]
      rw [Nat.add_right_comm, Nat.add_assoc]
    | some name => simp [numberFrom, ih]

theorem name_mem_numberFrom {base : Nat} {groups : List (Option String)} {s : String} :
    .name s ∈ numberFrom base groups ↔ some s ∈ groups := by
  induction groups generalizing base with
  | nil => simp [numberFrom]
  | cons group groups ih => cases group <;> simp [numberFrom, ih]

mutual

/-- The numbered groups of a pattern are its captures without a name. -/
theorem numbered_eq_count : (p : Pattern) → p.keepsGroups → p.numbered = p.groups.count none
  | text _, _ | oneOf _, _ | assert _, _ | reference _, _ => rfl
  | concat parts, h => numberedAll_eq_count parts h
  | alt branches, h => numberedAll_eq_count branches h
  | repeated body min max mode, h => by
    obtain ⟨hzero, hbody⟩ := Bool.and_eq_true_iff.1 h
    rw [numbered, groups]
    split
    · rename_i hskip
      rw [of_decide_eq_true hzero hskip, List.count_nil]
    · exact numbered_eq_count body hbody
  | withFlags _ body, h | lookAround _ _ body, h | atomic body, h => numbered_eq_count body h
  | capture none body, h => by
    rw [numbered, groups, List.count_cons_self, numbered_eq_count body h]
  | capture (some name) body, h => by
    rw [numbered, groups, List.count_cons_of_ne (by simp), numbered_eq_count body h]

theorem numberedAll_eq_count : (parts : List Pattern) → keepAllGroups parts →
    numberedAll parts = (groupsAmong parts).count none
  | [], _ => rfl
  | part :: parts, h => by
    obtain ⟨hpart, hparts⟩ := Bool.and_eq_true_iff.1 h
    rw [numberedAll, groupsAmong, List.count_append, numbered_eq_count part hpart,
      numberedAll_eq_count parts hparts]

end

mutual

/-- The groups that a pattern opens are its captures, numbered in their order. -/
theorem keys_eq_numberFrom (base : Nat) : (p : Pattern) → p.keepsGroups → p.error? = none →
    p.keys base = numberFrom base p.groups
  | text _, _, _ | oneOf _, _, _ | assert _, _, _ | reference _, _, _ => rfl
  | concat parts, h, he => keysAll_eq_numberFrom base parts h he
  | alt branches, h, he => keysAll_eq_numberFrom base branches h he
  | repeated body min max mode, h, he => by
    obtain ⟨hzero, hbody⟩ := Bool.and_eq_true_iff.1 h
    rw [keys_repeated he, groups]
    rcases repeated_of_error?_eq_none he with ⟨hskip, -⟩ | ⟨hmany, he⟩
    · rw [if_pos hskip, of_decide_eq_true hzero hskip]
      rfl
    · rw [if_neg hmany]
      exact keys_eq_numberFrom base body hbody he
  | withFlags _ body, h, he | lookAround _ _ body, h, he | atomic body, h, he =>
    keys_eq_numberFrom base body h he
  | capture none body, h, he => by
    rw [keys, groups, numberFrom, keys_eq_numberFrom (base + 1) body h he]
  | capture (some name) body, h, he => by
    rw [keys, groups, numberFrom, keys_eq_numberFrom base body h he]

theorem keysAll_eq_numberFrom (base : Nat) : (parts : List Pattern) → keepAllGroups parts →
    errorAmong? parts = none → keysAll base parts = numberFrom base (groupsAmong parts)
  | [], _, _ => rfl
  | part :: parts, h, he => by
    obtain ⟨hpart, hparts⟩ := Bool.and_eq_true_iff.1 h
    obtain ⟨he, he'⟩ := Option.or_eq_none_iff.1 he
    rw [keysAll, groupsAmong, numberFrom_append, keys_eq_numberFrom base part hpart he,
      keysAll_eq_numberFrom (base + part.numbered) parts hparts he', numbered_eq_count part hpart]

end

/-! ## Captures in a context -/

theorem groupsAmong_append (parts parts' : List Pattern) :
    groupsAmong (parts ++ parts') = groupsAmong parts ++ groupsAmong parts' := by
  induction parts with
  | nil => rfl
  | cons part parts ih => simp only [List.cons_append, groupsAmong, ih, List.append_assoc]

theorem keepAllGroups_append (parts parts' : List Pattern) :
    keepAllGroups (parts ++ parts') = (keepAllGroups parts && keepAllGroups parts') := by
  induction parts with
  | nil => rfl
  | cons part parts ih => simp only [List.cons_append, keepAllGroups, ih, Bool.and_assoc]

namespace Context

/-- The captures of a context that stand before the hole. -/
def before : Context → List (Option String)
  | hole => []
  | concat before inner _ | alt before inner _ => groupsAmong before ++ inner.before
  | repeated inner _ _ _ | withFlags _ inner | lookAround _ _ inner | atomic inner => inner.before
  | capture name inner => name :: inner.before

/-- The captures of a context that stand after the hole. -/
def after : Context → List (Option String)
  | hole => []
  | concat _ inner after | alt _ inner after => inner.after ++ groupsAmong after
  | repeated inner _ _ _ | withFlags _ inner | lookAround _ _ inner | atomic inner
  | capture _ inner => inner.after

/-- The captures of a filled context. -/
theorem groups_fill (C : Context) (q : Pattern) :
    (C.fill q).groups = C.before ++ q.groups ++ C.after := by
  induction C with
  | hole => simp [fill, before, after]
  | concat parts inner parts' ih | alt parts inner parts' ih =>
    simp only [fill, groups, groupsAmong_append, groupsAmong, ih, before, after, List.append_assoc]
  | repeated inner min max mode ih | withFlags flags inner ih
  | lookAround direction negated inner ih | atomic inner ih =>
    simpa only [fill, groups, before, after] using ih
  | capture name inner ih => simp only [fill, groups, before, after, ih, List.cons_append]

/-- The groups that are numbered before those of the hole are the captures that stand there and
have no name. -/
theorem numbered_eq_count (C : Context) {q : Pattern} (h : (C.fill q).keepsGroups) :
    C.numbered = C.before.count none := by
  induction C with
  | hole => rfl
  | concat parts inner parts' ih | alt parts inner parts' ih =>
    simp only [fill, keepsGroups, keepAllGroups_append, keepAllGroups, Bool.and_eq_true] at h
    rw [numbered, before, List.count_append, numberedAll_eq_count parts h.1, ih h.2.1]
  | repeated inner min max mode ih => exact ih (Bool.and_eq_true_iff.1 h).2
  | withFlags flags inner ih | lookAround direction negated inner ih | atomic inner ih => exact ih h
  | capture name inner ih =>
    cases name with
    | none => rw [numbered, before, List.count_cons_self, ih h]
    | some name => rw [numbered, before, List.count_cons_of_ne (by simp), ih h]

/-- The key of a capture that stands at the hole. -/
def key (C : Context) : Option String → GroupKey
  | none => .index (C.before.count none + 1)
  | some name => .name name

end Context

end Pattern

end RegexEngine
