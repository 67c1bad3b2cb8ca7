import Mathlib
import RegexEngine.Proofs.Parsing.Outcome
import RegexEngine.Proofs.Parsing.Tokens

/-!
# Reading and writing

Reading a pattern is the inverse of writing it, on all patterns that have been read.

A text `Takes` one level to another if reading it does, whatever groups are open and whatever can
follow.  What a pattern does to the level at its place is `Pattern.Reads`: something that can be
repeated becomes the atom of the level, a part is added to the parts, a branch is the first thing
of a level and becomes its current branch, and a whole pattern is all of a level.

* `Pattern.reads_of_normal` is the induction: patterns in normal form are read so.
* `Pattern.parse_render` is about whole patterns.
-/

namespace RegexEngine

/-! ## Texts that are read -/

/-- Reading the text takes one level to the other. -/
def Level.Takes (l : Level) (s : List Char) (l' : Level) : Prop :=
  ∀ groups rest, Starts rest →
    Partial.readAll ⟨l, groups⟩ (s ++ rest) = Partial.readAll ⟨l', groups⟩ rest

namespace Partial

/-- A token that is read is added to what has been read before, and the rest follows. -/
theorem readAll_of_isReadFrom {p : Partial (List Char)} {token : Token} {s rest : List Char}
    {result : Except (ParseError (List Char)) Pattern} (htoken : token.IsReadFrom s)
    (hrest : Starts rest)
    (hadd : ∀ start, ∃ q, p.add start token = .ok q ∧ q.readAll rest = result) :
    p.readAll (s ++ rest) = result := by
  obtain ⟨c, inside, rfl, hread⟩ := htoken
  obtain ⟨q, hq, hresult⟩ := hadd (c :: (inside ++ rest))
  rw [List.cons_append, readAll]
  split
  · rename_i heq
    rw [hread rest hrest] at heq
    cases heq
  · rename_i heq
    rw [hread rest hrest] at heq
    cases heq
    rw [hq]
    exact hresult

end Partial

namespace Level

variable {l m n : Level} {s t : List Char} {p : Pattern}

theorem Takes.refl (l : Level) : l.Takes [] l :=
  fun _ _ _ => rfl

theorem Takes.trans (hs : l.Takes s m) (ht : m.Takes t n) (hstarts : Starts t) :
    l.Takes (s ++ t) n := by
  intro groups rest hrest
  rw [List.append_assoc, hs groups (t ++ rest) (hstarts.append hrest)]
  exact ht groups rest hrest

theorem takes_atom (h : (Token.atom p).IsReadFrom s) (l : Level) : l.Takes s (l.addAtom p) :=
  fun _ _ hrest => Partial.readAll_of_isReadFrom h hrest fun _ => ⟨_, rfl, rfl⟩

theorem takes_bar (l : Level) : l.Takes ['|'] l.addBar :=
  fun _ _ hrest => Partial.readAll_of_isReadFrom Token.isReadFrom_bar hrest fun _ => ⟨_, rfl, rfl⟩

/-- A quantifier applies to the atom before it. -/
theorem takes_quantifier {min : Nat} {max : Option Nat} (mode : Mode)
    (hbounds : LegibleBounds min max) (hatom : l.atom = some p) :
    l.Takes (Render.quantifier min max mode)
      { l with parts := .repeated p min max mode :: l.parts, atom := none } := by
  intro groups rest hrest
  refine Partial.readAll_of_isReadFrom (Token.isReadFrom_quantifier mode hbounds) hrest fun start =>
    ⟨_, ?_, rfl⟩
  simp [Partial.add, hatom]

/-- A group becomes the atom of the level around it. -/
theorem takes_group {kind : GroupKind} (hkind : kind.Legible) (hm : Takes {} s m)
    (hstarts : Starts s) (l : Level) :
    l.Takes (Render.group kind s) (l.addAtom (kind.group m.pattern)) := by
  intro groups rest hrest
  have hopen : Render.group kind s ++ rest = '(' :: Render.kind kind ++ (s ++ ([')'] ++ rest)) := by
    simp [Render.group]
  have hclose : Starts ([')'] ++ rest) := .cons (by decide)
  rw [hopen]
  refine Partial.readAll_of_isReadFrom (Token.isReadFrom_opening hkind) (hstarts.append hclose)
    fun start => ⟨_, rfl, ?_⟩
  rw [hm _ _ hclose]
  exact Partial.readAll_of_isReadFrom Token.isReadFrom_close hrest fun _ => ⟨_, rfl, rfl⟩

theorem push_push_text (s t : List Char) (parts : List Pattern) :
    push (.text t) (push (.text s) parts) = push (.text (s ++ t)) parts := by
  cases parts with
  | nil => rfl
  | cons q parts => cases q <;> simp [push]

/-- A part that makes no text longer is put before the others. -/
theorem push_of_apart {parts : List Pattern} (h : ∀ q ∈ parts.head?, ¬(q.isText ∧ p.isText)) :
    push p parts = p :: parts := by
  fun_cases push p parts with
  | case1 => exact absurd ⟨rfl, rfl⟩ (h _ rfl)
  | case2 => rfl

/-- Pieces that are read as characters become one text. -/
theorem exists_takes_pieces {pieces : List (List Char)} {cs : List Char}
    (h : List.Forall₂ (fun s c => (Token.atom (.text [c])).IsReadFrom s ∧ Starts s) pieces cs)
    (hne : cs ≠ [])
    (l : Level) : ∃ l', l.Takes pieces.flatten l' ∧ Starts pieces.flatten ∧
      l'.branches = l.branches ∧
      l'.settled = push (.text cs) l.settled := by
  induction h generalizing l with
  | nil => exact absurd rfl hne
  | @cons s c pieces cs hc hcs ih =>
    obtain ⟨hread, hstarts⟩ := hc
    have htakes := takes_atom hread l
    rw [List.flatten_cons]
    by_cases hlast : cs = []
    · subst hlast
      obtain rfl := List.forall₂_nil_right_iff.1 hcs
      rw [List.flatten_nil, List.append_nil]
      exact ⟨_, htakes, hstarts, rfl, rfl⟩
    · obtain ⟨l', htakes', hstarts', hbranches, hsettled⟩ := ih hlast (l.addAtom (.text [c]))
      refine ⟨l', htakes.trans htakes' hstarts', hstarts.append hstarts', hbranches, ?_⟩
      rw [hsettled]
      exact push_push_text [c] cs l.settled

/-- The characters of a text are read one by one. -/
theorem exists_takes_text {cs : List Char} (hne : cs ≠ []) (l : Level) :
    ∃ l', l.Takes (cs.flatMap Render.char) l' ∧ l'.branches = l.branches ∧
      l'.settled = push (.text cs) l.settled := by
  have hchars : List.Forall₂ (fun s c => (Token.atom (.text [c])).IsReadFrom s ∧ Starts s)
      (cs.map Render.char) cs :=
    List.forall₂_map_left_iff.2 (List.forall₂_same.2 fun c _ => ⟨Token.isReadFrom_char c, .char⟩)
  obtain ⟨l', htakes, -, hbranches, hsettled⟩ := exists_takes_pieces hchars hne l
  rw [← List.flatMap_def] at htakes
  exact ⟨l', htakes, hbranches, hsettled⟩

end Level

namespace Pattern

/-! ## What a pattern does to a level -/

/-- How a pattern at a place is read. -/
def Reads (p : Pattern) : Place → Prop
  | .whole => ∃ l, Level.Takes {} p.render l ∧ l.pattern = p
  | .branch => ∀ l : Level, l.settled = [] →
    ∃ l', l.Takes p.render l' ∧ l'.branches = l.branches ∧ l'.branch = p
  | .part => ∀ l : Level,
    ∃ l', l.Takes p.render l' ∧ l'.branches = l.branches ∧ l'.settled = Level.push p l.settled
  | .body => ∀ l : Level, l.Takes p.render (l.addAtom p)

namespace Reads

variable {p : Pattern} {place : Place}

theorem whole_of_branch (h : p.Reads .branch) : p.Reads .whole := by
  obtain ⟨l, htakes, hbranches, hbranch⟩ := h {} rfl
  refine ⟨l, htakes, ?_⟩
  rw [Level.pattern, hbranches, hbranch]
  rfl

/-- What is read as a part is read so wherever a part may stand. -/
theorem of_part (h : p.Reads .part) (hplace : place ≠ .body) : p.Reads place := by
  have hbranch : p.Reads .branch := by
    intro l hl
    obtain ⟨l', htakes, hbranches, hsettled⟩ := h l
    refine ⟨l', htakes, hbranches, ?_⟩
    rw [Level.branch, hsettled, hl, Level.push_of_apart (by simp)]
    rfl
  cases place with
  | whole => exact hbranch.whole_of_branch
  | branch => exact hbranch
  | part => exact h
  | body => exact absurd rfl hplace

/-- What is read as an atom is read so anywhere. -/
theorem of_body (h : p.Reads .body) : p.Reads place := by
  by_cases hplace : place = .body
  · exact hplace ▸ h
  · have hpart : p.Reads .part := fun l => ⟨l.addAtom p, h l, rfl, rfl⟩
    exact hpart.of_part hplace

end Reads

variable {parts branches : List Pattern}

/-- Parts are read one after the other. -/
theorem exists_takes_renderAll (h : ∀ p ∈ parts, p.Reads .part) (l : Level)
    (hapart : TextsApart (l.settled.reverse ++ parts)) :
    ∃ l', l.Takes (renderAll parts) l' ∧ l'.branches = l.branches ∧
      l'.settled = parts.reverse ++ l.settled := by
  induction parts generalizing l with
  | nil => exact ⟨l, .refl l, rfl, rfl⟩
  | cons p parts ih =>
    obtain ⟨hp, hparts⟩ := List.forall_mem_cons.1 h
    obtain ⟨m, htakes, hbranches, hsettled⟩ := hp l
    have hpush : Level.push p l.settled = p :: l.settled := by
      refine Level.push_of_apart fun q hq => ?_
      exact (List.isChain_append.1 hapart).2.2 q (by rwa [List.getLast?_reverse]) p rfl
    rw [hpush] at hsettled
    obtain ⟨l', htakes', hbranches', hsettled'⟩ := ih hparts m (by simpa [hsettled] using hapart)
    refine ⟨l', htakes.trans htakes' (starts_renderAll parts), hbranches'.trans hbranches, ?_⟩
    rw [hsettled', hsettled]
    simp

/-- Branches are read one after the other. -/
theorem exists_takes_renderAny (h : ∀ p ∈ branches, p.Reads .branch) (hne : branches ≠ [])
    (l : Level) (hl : l.settled = []) :
    ∃ l', l.Takes (renderAny branches) l' ∧
      l'.branch :: l'.branches = branches.reverse ++ l.branches := by
  induction branches generalizing l with
  | nil => exact absurd rfl hne
  | cons p branches ih =>
    obtain ⟨hp, hrest⟩ := List.forall_mem_cons.1 h
    obtain ⟨m, htakes, hbranches, hbranch⟩ := hp l hl
    cases branches with
    | nil => exact ⟨m, htakes, by rw [hbranches, hbranch]; rfl⟩
    | cons q branches =>
      obtain ⟨l', htakes', hbranches'⟩ := ih hrest (List.cons_ne_nil q branches) m.addBar rfl
      have hbar := (Level.takes_bar m).trans htakes' (starts_renderAny _)
      refine ⟨l', htakes.trans hbar (.cons (by decide)), ?_⟩
      rw [hbranches']
      simp [Level.addBar, hbranches, hbranch]

theorem render_group (kind : GroupKind) (body : Pattern) :
    (kind.group body).render = Render.group kind body.render := by
  cases kind <;> rfl

/-- A group is read as an atom. -/
theorem reads_group (kind : GroupKind) {body : Pattern} {place : Place} (hkind : kind.Legible)
    (h : body.Reads .whole) : (kind.group body).Reads place := by
  obtain ⟨m, htakes, hm⟩ := h
  have hbody : (kind.group body).Reads .body := by
    intro l
    have hgroup := Level.takes_group hkind htakes (starts_render body) l
    rwa [hm, ← render_group] at hgroup
  exact hbody.of_body

/-- A pattern in normal form is read as what was written. -/
theorem reads_of_normal {place : Place} {p : Pattern} (h : Normal place p)
    (hclasses : ∀ set ∈ p.classes, set.Canonical) : p.Reads place := by
  induction h with
  | @text place cs hne hsingle =>
    by_cases hplace : place = .body
    · obtain ⟨c, rfl⟩ := List.length_eq_one_iff.1 (hsingle hplace)
      have hbody : (text [c]).Reads .body := by
        intro l
        rw [render, List.flatMap_singleton]
        exact Level.takes_atom (Token.isReadFrom_char c) l
      exact hbody.of_body
    · have hpart : (text cs).Reads .part := Level.exists_takes_text hne
      exact hpart.of_part hplace
  | @concat place parts hplace hlen hapart hparts ih =>
    have hreads : ∀ p ∈ parts, p.Reads .part := fun p hp =>
      ih p hp fun set hset => hclasses set (mem_classesAll.2 ⟨p, hp, hset⟩)
    have hbranch : (concat parts).Reads .branch := by
      intro l hl
      obtain ⟨l', htakes, hbranches, hsettled⟩ := exists_takes_renderAll hreads l (by rwa [hl])
      refine ⟨l', htakes, hbranches, ?_⟩
      rw [Level.branch, hsettled, hl, List.append_nil, List.reverse_reverse, seq_of_length_ne hlen]
    rcases hplace with rfl | rfl
    · exact hbranch.whole_of_branch
    · exact hbranch
  | @alt branches hlen hbranches ih =>
    have hreads : ∀ p ∈ branches, p.Reads .branch := fun p hp =>
      ih p hp fun set hset => hclasses set (mem_classesAll.2 ⟨p, hp, hset⟩)
    have hne : branches ≠ [] := List.ne_nil_of_length_pos (by omega)
    obtain ⟨l, htakes, hbranches⟩ := exists_takes_renderAny hreads hne {} rfl
    refine ⟨l, htakes, ?_⟩
    rw [Level.pattern, hbranches, List.append_nil, List.reverse_reverse,
      choice_of_length_ne (by omega)]
  | @repeated place body min max mode hplace hbounds hbody ih =>
    have hpart : (repeated body min max mode).Reads .part := by
      intro l
      have hatom := ih hclasses l
      have hquantifier := Level.takes_quantifier (l := l.addAtom body) mode hbounds rfl
      exact ⟨_, hatom.trans hquantifier (.quantifier min max mode), rfl,
        (Level.push_of_apart (by simp [isText])).symm⟩
    exact hpart.of_part hplace
  | oneOf =>
    have hset := Token.isReadFrom_set (hclasses _ List.mem_cons_self)
    exact Reads.of_body (Level.takes_atom hset)
  | assert => exact Reads.of_body (Level.takes_atom (Token.isReadFrom_assertion _))
  | withFlags hbody ih => exact reads_group (.withFlags _) trivial (ih hclasses)
  | lookAround hbody ih => exact reads_group (.lookAround _ _) trivial (ih hclasses)
  | atomic hbody ih => exact reads_group .atomic trivial (ih hclasses)
  | capture hname hbody ih => exact reads_group (.capture _) hname (ih hclasses)
  | reference hgroup => exact Reads.of_body (Level.takes_atom (Token.isReadFrom_reference hgroup))

/-- Reading undoes writing, for each pattern in normal form of which the classes are canonical. -/
theorem parse_render_of_normal {p : Pattern} (h : Normal .whole p)
    (hclasses : ∀ set ∈ p.classes, set.Canonical) : parse p.render = .ok p := by
  obtain ⟨l, htakes, hl⟩ := reads_of_normal h hclasses
  have hread : read p.render = .ok p :=
    calc Partial.readAll {} p.render
      _ = Partial.readAll {} (p.render ++ []) := by rw [List.append_nil]
      _ = Partial.readAll ⟨l, []⟩ [] := htakes [] [] .nil
      _ = .ok p := by rw [Partial.readAll, Partial.finish, hl]
  rw [parse, hread]
  rfl

/-- A pattern that has been read is in normal form, and it is read again from what is written
for it.  The classes have to be canonical: the complement of a class is made range by range, and
beside the surrogates it may leave ranges that touch. -/
theorem parse_render {text : List Char} {p : Pattern} (h : parse text = .ok p) :
    Normal .whole p ∧ ((∀ set ∈ p.classes, set.Canonical) → parse p.render = .ok p) :=
  ⟨normal_of_parse h, parse_render_of_normal (normal_of_parse h)⟩

/-- A pattern with short forms: they are not written again, but read as the same pattern. -/
theorem parse_render_shortForms :
    ∃ p, parse "a(b+?|\\D)\\1".toList = .ok p ∧ (∀ set ∈ p.classes, set.Canonical) ∧
      parse p.render = .ok p := by
  have hparse : parse "a(b+?|\\D)\\1".toList =
      .ok (.concat [.text ['a'],
        .capture none (.alt [.repeated (.text ['b']) 1 none .lazy, .oneOf CharSet.digit.compl]),
        .reference (.index 1)]) := by
    cbv
  have hclasses : ∀ set ∈ [CharSet.digit.compl], set.Canonical := by decide
  exact ⟨_, hparse, hclasses, (parse_render hparse).2 hclasses⟩

example : ¬(CharSet.ofChars [Char.ofNat 0xD7FF, Char.ofNat 0xE000]).compl.Canonical := by decide

end Pattern

end RegexEngine
