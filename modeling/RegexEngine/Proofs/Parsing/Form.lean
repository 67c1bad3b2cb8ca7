import RegexEngine.Pattern.Parser
import Mathlib.Data.List.Chain

/-!
# The normal form of patterns

Patterns that have been read have a form in which each text has only one tree.  What may stand
somewhere in a tree depends on the place: as a whole pattern or inside a group, as one of
several branches, as one of several parts, or under a repetition.  `Pattern.Normal` has one
constructor for each kind of pattern.

The places are ranked.  What may be repeated may be a part, a part may be a branch, and a branch
may be a whole pattern.
-/

namespace RegexEngine

/-! ## Classes -/

/-- The ranges of a set have been joined where they touch. -/
def CharSet.Canonical (s : CharSet) : Prop :=
  s.ranges.toList.Pairwise fun r t => r.last.toNat + 1 < t.first.toNat

instance (s : CharSet) : Decidable s.Canonical :=
  inferInstanceAs (Decidable (s.ranges.toList.Pairwise _))

namespace Pattern

mutual

/-- The sets of a pattern. -/
def classes : Pattern → List CharSet
  | text _ | assert _ | reference _ => []
  | concat parts => classesAll parts
  | alt branches => classesAll branches
  | oneOf set => [set]
  | repeated body _ _ _ | withFlags _ body | lookAround _ _ body | atomic body | capture _ body =>
    classes body

/-- The sets of patterns. -/
def classesAll : List Pattern → List CharSet
  | [] => []
  | part :: parts => classes part ++ classesAll parts

end

theorem mem_classesAll {set : CharSet} {parts : List Pattern} :
    set ∈ classesAll parts ↔ ∃ p ∈ parts, set ∈ p.classes := by
  induction parts with
  | nil => simp [classesAll]
  | cons part parts ih => simp [classesAll, ih]

end Pattern

/-! ## Places -/

/-- A place in a pattern. -/
inductive Place where
  /-- A whole pattern, or all of a group. -/
  | whole
  /-- One of several branches. -/
  | branch
  /-- One of several parts. -/
  | part
  /-- What is repeated. -/
  | body
deriving DecidableEq, Repr

/-- How much may stand at a place. -/
def Place.rank : Place → Nat
  | body => 0
  | part => 1
  | branch => 2
  | whole => 3

theorem Place.eq_body_of_rank {q : Place} (h : q.rank ≤ Place.rank .body) : q = .body := by
  cases q <;> simp_all [rank]

/-! ## Names and numbers -/

/-- Whether a text is read as the name of a group where a `>` follows it. -/
def IsGroupName (s : String) : Prop :=
  ∀ rest, Token.readName (s.toList ++ '>' :: rest) = .ok (s, rest)

/-- Whether a text can be the name in the opening of a group, which must not look like that of a
lookaround. -/
def IsCaptureName (s : String) : Prop :=
  IsGroupName s ∧ ∀ c ∈ s.toList.head?, c ≠ '=' ∧ c ≠ '!'

/-- Whether a reference can name the group. -/
def GroupKey.Legible : GroupKey → Prop
  | index n => 0 < n ∧ n < sizeLimit
  | name s => IsGroupName s

/-- Whether the opening of a group can be written. -/
def GroupKind.Legible : GroupKind → Prop
  | capture name => ∀ s ∈ name, IsCaptureName s
  | withFlags _ | lookAround _ _ | atomic => True

/-- Whether a quantifier can have the bounds. -/
def LegibleBounds (min : Nat) (max : Option Nat) : Prop :=
  min < sizeLimit ∧ ∀ m ∈ max, min ≤ m ∧ m < sizeLimit

/-! ## Normal forms -/

namespace Pattern

/-- Whether a pattern is a text. -/
def isText : Pattern → Bool
  | text _ => true
  | _ => false

/-- Whether a quantifier can apply to all of a pattern: it is a single character, a class, a group,
an assertion or a reference. -/
def IsAtom : Pattern → Prop
  | text cs => cs.length = 1
  | concat _ | alt _ | repeated _ _ _ _ => False
  | oneOf _ | assert _ | withFlags _ _ | lookAround _ _ _ | atomic _ | capture _ _ | reference _ =>
    True

/-- No text stands next to a text. -/
def TextsApart (parts : List Pattern) : Prop :=
  parts.IsChain fun p q => ¬(p.isText ∧ q.isText)

theorem seq_of_length_ne {parts : List Pattern} (h : parts.length ≠ 1) :
    seq parts = concat parts := by
  fun_cases seq parts with
  | case1 => simp at h
  | case2 => rfl

theorem choice_of_length_ne {branches : List Pattern} (h : branches.length ≠ 1) :
    choice branches = alt branches := by
  fun_cases choice branches with
  | case1 => simp at h
  | case2 => rfl

/-- The pattern is in normal form for the place. -/
inductive Normal : Place → Pattern → Prop
  /-- A text is not empty, and a repetition takes just one character. -/
  | text {place cs} (hne : cs ≠ []) (hsingle : place = .body → cs.length = 1) :
      Normal place (.text cs)
  /-- There is more than one part, or none at all. -/
  | concat {place parts} (hplace : place = .whole ∨ place = .branch) (hlen : parts.length ≠ 1)
      (hapart : TextsApart parts) (hparts : ∀ p ∈ parts, Normal .part p) :
      Normal place (.concat parts)
  /-- There is more than one branch. -/
  | alt {branches} (hlen : 2 ≤ branches.length) (hbranches : ∀ p ∈ branches, Normal .branch p) :
      Normal .whole (.alt branches)
  /-- The bounds are in order. -/
  | repeated {place body min max mode} (hplace : place ≠ .body) (hbounds : LegibleBounds min max)
      (hbody : Normal .body body) : Normal place (.repeated body min max mode)
  /-- The set is any set. -/
  | oneOf {place set} : Normal place (.oneOf set)
  /-- The assertion is any assertion. -/
  | assert {place assertion} : Normal place (.assert assertion)
  /-- The flags stand before a whole pattern. -/
  | withFlags {place flags body} (hbody : Normal .whole body) : Normal place (.withFlags flags body)
  /-- A whole pattern is looked for. -/
  | lookAround {place direction negated body} (hbody : Normal .whole body) :
      Normal place (.lookAround direction negated body)
  /-- A whole pattern is tried once. -/
  | atomic {place body} (hbody : Normal .whole body) : Normal place (.atomic body)
  /-- A whole pattern is recorded. -/
  | capture {place name body} (hname : ∀ s ∈ name, IsCaptureName s) (hbody : Normal .whole body) :
      Normal place (.capture name body)
  /-- The group has a number or a name. -/
  | reference {place group} (hgroup : group.Legible) : Normal place (.reference group)

/-- What may stand at a place may stand at a place of higher rank. -/
theorem Normal.mono {q r : Place} {p : Pattern} (hle : q.rank ≤ r.rank) (h : Normal q p) :
    Normal r p := by
  have hbody : r = .body → q = .body := by
    rintro rfl
    exact Place.eq_body_of_rank hle
  cases h with
  | text hne hsingle => exact .text hne fun hr => hsingle (hbody hr)
  | concat hplace hlen hapart hparts =>
    have hplace' : r = .whole ∨ r = .branch := by
      rcases hplace with rfl | rfl <;> cases r <;> simp_all [Place.rank]
    exact .concat hplace' hlen hapart hparts
  | alt hlen hbranches =>
    cases r with
    | whole => exact .alt hlen hbranches
    | branch | part | body => simp [Place.rank] at hle
  | repeated hplace hbounds hnormal =>
    exact .repeated (fun hr => hplace (hbody hr)) hbounds hnormal
  | oneOf => exact .oneOf
  | assert => exact .assert
  | withFlags hbody => exact .withFlags hbody
  | lookAround hbody => exact .lookAround hbody
  | atomic hbody => exact .atomic hbody
  | capture hname hbody => exact .capture hname hbody
  | reference hgroup => exact .reference hgroup

end Pattern

open Pattern (Normal)

theorem GroupKind.normal_group {kind : GroupKind} {place : Place} {body : Pattern}
    (hkind : kind.Legible) (hbody : Normal .whole body) : Normal place (kind.group body) := by
  cases kind with
  | capture name => exact .capture hkind hbody
  | withFlags flags => exact .withFlags hbody
  | lookAround direction negated => exact .lookAround hbody
  | atomic => exact .atomic hbody

end RegexEngine
