import RegexEngine.Proofs.Context

/-!
# Patterns that end alike

Two meanings are alike if they have the same endings wherever they may be asked for, which is at
boundaries.  What is made of meanings that are alike is alike, and so patterns that are alike
may stand for each other in any context.

* `Meaning.Alike` says so of two meanings, and each combinator keeps it.
* `Pattern.Context.alike_fill` is about contexts.
-/

namespace RegexEngine

namespace Meaning

/-- Two meanings have the same endings at every boundary, up to every limit. -/
def Alike (text : Subject) (meaning meaning' : Meaning) : Prop :=
  ∀ limit pos groups, text.isBoundary limit → text.isBoundary pos → pos ≤ limit →
    meaning limit pos groups = meaning' limit pos groups

/-- All endings lie between the position and the limit. -/
abbrev Bounded (text : Subject) (meaning : Meaning) : Prop :=
  OnCourse text (.keeping (fun _ => True) fun _ => True) meaning

variable {text : Subject} {first first' second second' body body' : Meaning}

theorem Alike.refl (meaning : Meaning) : Alike text meaning meaning :=
  fun _ _ _ _ _ _ => rfl

/-- Going on alike from endings that lie where they should. -/
theorem andThen_congr {course : Groups.Course} {limit pos : Nat} {groups : Groups}
    {endings : List Ending} {next next' : Nat → Groups → List Ending}
    (hcourse : ∀ e ∈ endings, e.OnCourse text course groups limit pos)
    (h : ∀ stop groups, text.isBoundary stop → pos ≤ stop → stop ≤ limit →
      next stop groups = next' stop groups) :
    Ending.andThen endings next = Ending.andThen endings next' := by
  refine List.flatMap_congr fun e he => ?_
  match e, hcourse e he with
  | .error fault, _ => rfl
  | .ok (stop, groups), ⟨hstop, hle, hlimit, _⟩ => exact h stop groups hstop hle hlimit

theorem Alike.seq (h : Alike text first first') (hbounded : Bounded text first)
    (h' : Alike text second second') : Alike text (seq first second) (seq first' second') := by
  intro limit pos groups hlimit hpos hle
  unfold Meaning.seq
  rw [← h limit pos groups hlimit hpos hle]
  exact andThen_congr (hbounded limit pos groups hlimit hpos hle)
    fun stop groups' hstop _ hle' => h' limit stop groups' hlimit hstop hle'

theorem Alike.either (h : Alike text first first') (h' : Alike text second second') :
    Alike text (either first second) (either first' second') := by
  intro limit pos groups hlimit hpos hle
  unfold Meaning.either
  rw [h limit pos groups hlimit hpos hle, h' limit pos groups hlimit hpos hle]

theorem Alike.choose (h : Alike text first first') (h' : Alike text second second') (lazy : Bool) :
    Alike text (choose lazy first second) (choose lazy first' second') := by
  unfold Meaning.choose
  split
  · exact h'.either h
  · exact h.either h'

theorem Alike.capture (h : Alike text body body') (key : GroupKey) :
    Alike text (capture key body) (capture key body') := by
  intro limit pos groups hlimit hpos hle
  unfold Meaning.capture
  rw [h limit pos _ hlimit hpos hle]

theorem Alike.atomic (h : Alike text body body') : Alike text (atomic body) (atomic body') := by
  intro limit pos groups hlimit hpos hle
  unfold Meaning.atomic
  rw [h limit pos groups hlimit hpos hle]

theorem Alike.lookAround (h : Alike text body body') (direction : Direction) (negated : Bool) :
    Alike text (lookAround text direction negated body)
      (lookAround text direction negated body') := by
  intro limit pos groups hlimit hpos hle
  cases direction with
  | ahead =>
    show looking negated (body text.size pos groups) pos groups = _
    rw [h text.size pos groups (Subject.isBoundary_size _) hpos
      (Subject.le_size_of_isBoundary hpos)]
    rfl
  | behind =>
    have hendings : (text.boundariesDownFrom pos).flatMap (fun start =>
        (body pos start groups).filter (endsHere pos)) =
            (text.boundariesDownFrom pos).flatMap fun start =>
        (body' pos start groups).filter (endsHere pos) := by
      refine List.flatMap_congr fun start hstart => ?_
      obtain ⟨hboundary, hle'⟩ := Subject.mem_boundariesDownFrom hstart
      rw [h pos start groups hpos hboundary hle']
    show looking negated _ pos groups = looking negated _ pos groups
    rw [hendings]

/-! ## Repetition -/

section

variable (h : Alike text body body') (hbounded : Bounded text body)

include h hbounded

theorem Alike.copies (n : Nat) : Alike text (copies body n) (copies body' n) := by
  induction n with
  | zero => exact .refl _
  | succ n ih => exact h.seq hbounded ih

theorem Alike.optionalCopies (lazy : Bool) (n : Nat) :
    Alike text (optionalCopies body lazy n) (optionalCopies body' lazy n) := by
  induction n with
  | zero => exact .refl _
  | succ n ih => exact (h.seq hbounded ih).choose (.refl _) lazy

theorem Alike.loop (lazy : Bool) : Alike text (loop text body lazy) (loop text body' lazy) := by
  intro limit pos groups hlimit hpos hle
  induction hn : text.size - pos using Nat.strongRecOn generalizing pos groups with
  | ind n ih =>
    have hmore : (Ending.andThen (body limit pos groups) fun stop groups =>
        if _h : pos < stop ∧ stop ≤ text.size then
          Meaning.loop text body lazy limit stop groups else []) =
      Ending.andThen (body' limit pos groups) fun stop groups =>
        if _h : pos < stop ∧ stop ≤ text.size then
          Meaning.loop text body' lazy limit stop groups else [] := by
      rw [← h limit pos groups hlimit hpos hle]
      refine andThen_congr (hbounded limit pos groups hlimit hpos hle)
        fun stop groups' hstop _ hle' => ?_
      split
      · exact ih (text.size - stop) (by omega) stop groups' hstop hle' rfl
      · rfl
    unfold Meaning.loop
    rw [hmore]

theorem Alike.repeated (min : Nat) (max : Option Nat) (lazy : Bool) :
    Alike text (repeated text body min max lazy) (repeated text body' min max lazy) := by
  refine (h.copies hbounded min).seq (hbounded.copies min) ?_
  cases max with
  | none => exact h.loop hbounded lazy
  | some max => exact h.optionalCopies hbounded lazy _

/-- First endings, one after the other, are the same. -/
theorem Alike.exhaust {limit : Nat} (hlimit : text.isBoundary limit) {max : Option Nat}
    {count pos : Nat} {groups : Groups} (hpos : text.isBoundary pos) (hle : pos ≤ limit) :
    exhaust text body limit max count pos groups =
      exhaust text body' limit max count pos groups := by
  have heq (pos : Nat) (groups : Groups) (hpos : text.isBoundary pos) (hle : pos ≤ limit) :=
    h limit pos groups hlimit hpos hle
  fun_induction Meaning.exhaust text body limit max count pos groups with
  | case1 count pos groups hmax => rw [Meaning.exhaust, if_pos hmax]
  | case2 count pos groups hmax hhead =>
    rw [heq pos groups hpos hle] at hhead
    rw [Meaning.exhaust, if_neg hmax, hhead]
  | case3 count pos groups hmax fault hhead =>
    rw [heq pos groups hpos hle] at hhead
    rw [Meaning.exhaust, if_neg hmax, hhead]
  | case4 count pos groups hmax stop groups' hhead hlt ih =>
    obtain ⟨hboundary, -, hle', -⟩ :=
      hbounded limit pos groups hlimit hpos hle _ (List.mem_of_mem_head? hhead)
    rw [heq pos groups hpos hle] at hhead
    rw [ih hboundary hle', Meaning.exhaust.eq_def text body' limit max count pos,
      if_neg hmax, hhead]
    dsimp only
    rw [dif_pos hlt]
  | case5 count pos groups hmax stop groups' hhead hlt =>
    rw [heq pos groups hpos hle] at hhead
    rw [Meaning.exhaust, if_neg hmax, hhead]
    dsimp only
    rw [dif_neg hlt]

theorem Alike.possessive (min : Nat) (max : Option Nat) :
    Alike text (possessive text body min max) (possessive text body' min max) := by
  intro limit pos groups hlimit hpos hle
  unfold Meaning.possessive
  rw [h.exhaust hbounded hlimit hpos hle]

end

end Meaning

namespace Pattern

open Meaning

theorem bounded_meaning (text : Subject) (o : Options) (base : Nat) (p : Pattern) :
    Bounded text (p.meaning text o base) :=
  onCourse_meaning_of_set o base p fun _ _ _ _ _ => trivial

/-- Parts that follow parts with endings that are alike. -/
theorem alike_meaningAll {text : Subject} {o : Options} {parts parts' : List Pattern}
    (before : List Pattern)
    (base : Nat) (h : Alike text (meaningAll text o (base + numberedAll before) parts)
      (meaningAll text o (base + numberedAll before) parts')) :
    Alike text (meaningAll text o base (before ++ parts))
      (meaningAll text o base (before ++ parts')) := by
  induction before generalizing base with
  | nil => exact h
  | cons part before ih =>
    rw [numberedAll, ← Nat.add_assoc] at h
    exact (Alike.refl _).seq (bounded_meaning text o base part) (ih (base + numbered part) h)

/-- Branches that follow branches with endings that are alike. -/
theorem alike_meaningAny {text : Subject} {o : Options} {branches branches' : List Pattern}
    (before : List Pattern) (base : Nat)
    (h : Alike text (meaningAny text o (base + numberedAll before) branches)
      (meaningAny text o (base + numberedAll before) branches')) :
    Alike text (meaningAny text o base (before ++ branches))
      (meaningAny text o base (before ++ branches')) := by
  induction before generalizing base with
  | nil => exact h
  | cons branch before ih =>
    rw [numberedAll, ← Nat.add_assoc] at h
    exact (Alike.refl _).either (ih (base + numbered branch) h)

/-- Patterns that are alike where the hole of a context is may stand for each other there. -/
theorem Context.alike_fill (text : Subject) {q q' : Pattern} (C : Context) (o : Options)
    (base : Nat) (hnumbered : q.numbered = q'.numbered)
    (h : Alike text (q.meaning text (C.options o) (base + C.numbered))
      (q'.meaning text (C.options o) (base + C.numbered))) :
    Alike text ((C.fill q).meaning text o base) ((C.fill q').meaning text o base) := by
  induction C generalizing o base with
  | hole => exact h
  | concat before inner after ih =>
    have hinner := ih o (base + numberedAll before) (by rwa [Nat.add_assoc])
    refine alike_meaningAll before base ?_
    simp only [meaningAll, inner.numbered_fill hnumbered]
    exact hinner.seq (bounded_meaning text o _ _) (.refl _)
  | alt before inner after ih =>
    have hinner := ih o (base + numberedAll before) (by rwa [Nat.add_assoc])
    refine alike_meaningAny before base ?_
    simp only [meaningAny, inner.numbered_fill hnumbered]
    exact hinner.either (.refl _)
  | repeated inner min max mode ih =>
    have hinner := ih o base h
    have hbounded := bounded_meaning text o base (inner.fill q)
    simp only [fill, meaning]
    split
    · exact hinner.possessive hbounded min max
    · exact hinner.repeated hbounded min max _
  | withFlags flags inner ih => exact ih (o.overlay flags) base h
  | lookAround direction negated inner ih => exact (ih o base h).lookAround direction negated
  | atomic inner ih => exact (ih o base h).atomic
  | capture name inner ih =>
    cases name with
    | some name => exact (ih o base h).capture (.name name)
    | none =>
      refine (ih o (base + 1) ?_).capture (.index (base + 1))
      rw [Nat.add_assoc, Nat.add_comm 1]
      exact h

end Pattern

end RegexEngine
