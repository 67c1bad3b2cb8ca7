import RegexEngine.Proofs.Meaning.Alike

/-!
# Possessive repetition is atomic repetition

A possessive repetition takes first endings of its body, one after the other.  So does a greedy
repetition of which only the first ending counts, if the body has one ending at most.  But the
possessive one stops at an ending that consumes nothing, even if the minimum has not been
reached, and the greedy one goes on.  So they end alike unless there may be such an ending and
more than one iteration is asked for.

The groups are taken to be kept by the body.  It is a matter of the groups otherwise whether an
iteration that consumes nothing counts.

* `Meaning.Constant` says that a body keeps all groups.
* `Meaning.head?_loop` and `Meaning.head?_optionalCopies` are about what need not be there, and
  `Meaning.head?_copies` about what has to be there before it.
* `Meaning.alike_possessive` is about whole repetitions.
-/

namespace RegexEngine

namespace Meaning

variable {text : Subject} {body : Meaning} {max : Option Nat}

/-- The endings lie between the position and the limit and keep all groups. -/
def Constant (text : Subject) (body : Meaning) : Prop :=
  ∀ groups, Within text True (· = groups) body

/-- The first ending is never where it started. -/
def Advances (text : Subject) (body : Meaning) : Prop :=
  ∀ limit pos groups, text.isBoundary limit → text.isBoundary pos → pos ≤ limit →
    ∀ groups', (body limit pos groups).head? ≠ some (.ok (pos, groups'))

/-- The ending that a number of first endings leads to, if there are enough of them. -/
def endingOf? (min : Nat) : Except Fault (Nat × Nat × Groups) → Option Ending
  | .error fault => some (.error fault)
  | .ok (count, stop, groups) => if min ≤ count then some (.ok (stop, groups)) else none

/-- A first ending of the body goes on, or it is where it started. -/
theorem Constant.of_head? (h : Constant text body) {limit pos stop : Nat} {groups groups' : Groups}
    (hlimit : text.isBoundary limit) (hpos : text.isBoundary pos) (hle : pos ≤ limit)
    (hhead : (body limit pos groups).head? = some (.ok (stop, groups'))) :
    groups' = groups ∧ text.isBoundary stop ∧ stop ≤ limit ∧
      ((pos < stop ∧ stop ≤ text.size) ∨ stop = pos ∧ ¬(pos < stop ∧ stop ≤ text.size)) := by
  obtain ⟨hstop, hle', hlimit', hgroups⟩ :=
    h groups limit pos groups hlimit hpos hle rfl _ (List.mem_of_mem_head? hhead)
  have := Subject.le_size_of_isBoundary hstop
  exact ⟨hgroups, hstop, hlimit', by omega⟩

/-! ## One iteration -/

theorem atomic_of_head?_none {limit pos : Nat} {groups : Groups}
    (h : (body limit pos groups).head? = none) : atomic body limit pos groups = [] := by
  rw [atomic, List.head?_eq_none_iff.1 h]
  rfl

theorem atomic_of_head?_some {limit pos : Nat} {groups : Groups} {e : Ending}
    (h : (body limit pos groups).head? = some e) : atomic body limit pos groups = [e] := by
  obtain ⟨es, hes⟩ := List.head?_eq_some_iff.1 h
  rw [atomic, hes]
  rfl

theorem andThen_ok (stop : Nat) (groups : Groups) (next : Nat → Groups → List Ending) :
    Ending.andThen [.ok (stop, groups)] next = next stop groups := by
  simp [Ending.andThen]

theorem andThen_assoc (endings : List Ending) (next next' : Nat → Groups → List Ending) :
    Ending.andThen (Ending.andThen endings next) next' =
      Ending.andThen endings fun stop groups => Ending.andThen (next stop groups) next' := by
  unfold Ending.andThen
  rw [List.flatMap_assoc]
  refine List.flatMap_congr fun e _ => ?_
  cases e with
  | error fault => rfl
  | ok result => rfl

/-- First endings stop where one of them consumes nothing. -/
theorem exhaust_of_stalled {limit pos count : Nat} {groups : Groups}
    (h : (body limit pos groups).head? = some (.ok (pos, groups))) :
    endingOf? 0 (exhaust text body limit max count pos groups) = some (.ok (pos, groups)) := by
  rw [exhaust]
  split
  · rfl
  · rw [h]
    simp [endingOf?]

/-! ## What need not be there -/

/-- The first ending of any number of iterations. -/
theorem head?_loop (h : Constant text body) {limit pos : Nat} (hlimit : text.isBoundary limit)
    (hpos : text.isBoundary pos) (hle : pos ≤ limit) (count : Nat) (groups : Groups) :
    (loop text (atomic body) false limit pos groups).head? =
      endingOf? 0 (exhaust text body limit none count pos groups) := by
  induction hn : text.size - pos using Nat.strongRecOn generalizing pos count groups with
  | ind n ih =>
    rw [loop, exhaust, if_neg (by simp)]
    show (_ ++ [_]).head? = _
    rcases hhead : (body limit pos groups).head? with _ | fault | ⟨stop, groups'⟩
    case none =>
      rw [atomic_of_head?_none hhead]
      rfl
    case some.error =>
      rw [atomic_of_head?_some hhead]
      rfl
    case some.ok =>
      obtain ⟨rfl, hstop, hle', hmoves⟩ := h.of_head? hlimit hpos hle hhead
      rw [atomic_of_head?_some hhead, andThen_ok]
      rcases hmoves with hlt | ⟨rfl, hstalled⟩
      · have hrest := ih (text.size - stop) (by omega) hstop hle' (count + 1) groups' rfl
        dsimp only
        rw [dif_pos hlt, dif_pos hlt, List.head?_append, hrest]
        cases exhaust text body limit none (count + 1) stop groups' with
        | error fault => rfl
        | ok result => rfl
      · dsimp only
        rw [dif_neg hstalled, dif_neg hstalled]
        rfl

/-- The first ending of a bounded number of iterations. -/
theorem head?_optionalCopies (h : Constant text body) {limit pos : Nat}
    (hlimit : text.isBoundary limit)
    (hpos : text.isBoundary pos) (hle : pos ≤ limit) (count n : Nat) (groups : Groups) :
    (optionalCopies (atomic body) false n limit pos groups).head? =
      endingOf? 0 (exhaust text body limit (some (count + n)) count pos groups) := by
  induction n generalizing pos count groups with
  | zero =>
    rw [exhaust, if_pos (by simp)]
    rfl
  | succ n ih =>
    rw [exhaust, if_neg (by simp)]
    show (seq (atomic body) (optionalCopies (atomic body) false n) limit pos groups ++
      skip limit pos groups).head? = _
    unfold seq
    rcases hhead : (body limit pos groups).head? with _ | fault | ⟨stop, groups'⟩
    case none =>
      rw [atomic_of_head?_none hhead]
      rfl
    case some.error =>
      rw [atomic_of_head?_some hhead]
      rfl
    case some.ok =>
      obtain ⟨rfl, hstop, hle', hmoves⟩ := h.of_head? hlimit hpos hle hhead
      rw [atomic_of_head?_some hhead, andThen_ok, List.head?_append,
        ih hstop hle' (count + 1) groups']
      rw [Nat.add_right_comm, Nat.add_assoc]
      rcases hmoves with hlt | ⟨rfl, hstalled⟩
      · dsimp only
        rw [dif_pos hlt]
        cases exhaust text body limit (some (count + (n + 1))) (count + 1) stop groups' with
        | error fault => rfl
        | ok result => rfl
      · rw [exhaust_of_stalled hhead]
        dsimp only
        rw [dif_neg hstalled]
        rfl

/-! ## What has to be there -/

/-- What follows the iterations that have to be there. -/
def others (text : Subject) (body : Meaning) (count : Nat) : Option Nat → Meaning
  | none => loop text body false
  | some max => optionalCopies body false (max - count)

/-- First endings are counted from the given number on. -/
theorem le_of_exhaust {limit count pos : Nat} {groups : Groups} {count' stop : Nat}
    {groups' : Groups}
    (h : exhaust text body limit max count pos groups = .ok (count', stop, groups')) :
      count ≤ count' := by
  fun_induction exhaust text body limit max count pos groups with
  | case1 | case2 =>
    cases h
    exact Nat.le_refl _
  | case3 => cases h
  | case4 count pos groups _ stop groups _ _ ih => exact Nat.le_of_succ_le (ih h)
  | case5 =>
    cases h
    exact Nat.le_succ _

theorem endingOf?_exhaust {limit count pos : Nat} {groups : Groups} :
    endingOf? count (exhaust text body limit max count pos groups) =
      endingOf? 0 (exhaust text body limit max count pos groups) := by
  cases hresult : exhaust text body limit max count pos groups with
  | error fault => rfl
  | ok result => simp [endingOf?, le_of_exhaust hresult]

theorem head?_others (h : Constant text body) {limit pos : Nat} (hlimit : text.isBoundary limit)
    (hpos : text.isBoundary pos) (hle : pos ≤ limit) (count : Nat)
    (hmax : ∀ m, max = some m → count ≤ m)
    (groups : Groups) : (others text (atomic body) count max limit pos groups).head? =
      endingOf? count (exhaust text body limit max count pos groups) := by
  rw [endingOf?_exhaust]
  cases max with
  | none => exact head?_loop h hlimit hpos hle count groups
  | some max =>
    have hhead := head?_optionalCopies h hlimit hpos hle count (max - count) groups
    rwa [Nat.add_sub_of_le (hmax max rfl)] at hhead

/-- The first ending of iterations that have to be there, and of others.  If there may be an
iteration that consumes nothing then no other one has to come after it. -/
theorem head?_copies (h : Constant text body) {limit pos : Nat} (hlimit : text.isBoundary limit)
    (hpos : text.isBoundary pos) (hle : pos ≤ limit) (count n : Nat)
    (hmax : ∀ m, max = some m → count + n ≤ m) (hmany : n ≤ 1 ∨ Advances text body)
    (groups : Groups) :
    (seq (copies (atomic body) n) (others text (atomic body) (count + n) max)
      limit pos groups).head? =
      endingOf? (count + n) (exhaust text body limit max count pos groups) := by
  induction n generalizing count pos groups with
  | zero =>
    show (Ending.andThen [.ok (pos, groups)] _).head? = _
    rw [andThen_ok]
    exact head?_others h hlimit hpos hle count hmax groups
  | succ n ih =>
    have hbelow : ¬max.any (· ≤ count) := by
      cases max with
      | none => simp
      | some max =>
        have := hmax max rfl
        simp
        omega
    have hfirst : seq (copies (atomic body) (n + 1))
      (others text (atomic body) (count + (n + 1)) max) limit pos groups =
        Ending.andThen (atomic body limit pos groups)
          (seq (copies (atomic body) n) (others text (atomic body) (count + 1 + n) max) limit) := by
      rw [Nat.add_right_comm, Nat.add_assoc]
      exact andThen_assoc _ _ _
    rw [hfirst, exhaust, if_neg hbelow]
    rcases hhead : (body limit pos groups).head? with _ | fault | ⟨stop, groups'⟩
    case none =>
      rw [atomic_of_head?_none hhead]
      simp [Ending.andThen, endingOf?]
    case some.error =>
      rw [atomic_of_head?_some hhead]
      rfl
    case some.ok =>
      obtain ⟨rfl, hstop, hle', hmoves⟩ := h.of_head? hlimit hpos hle hhead
      have hrest := ih hstop hle' (count + 1) (fun m hm => by have := hmax m hm; omega)
        (hmany.imp_left (by omega)) groups'
      rw [atomic_of_head?_some hhead, andThen_ok, hrest, Nat.add_right_comm, Nat.add_assoc]
      dsimp only
      rcases hmoves with hlt | ⟨rfl, hstalled⟩
      · rw [dif_pos hlt]
      · -- Nothing has been consumed, so that no other iteration has to be there.
        have hzero : n = 0 := by
          rcases hmany with hle | hadvances
          · omega
          · exact absurd hhead (hadvances limit stop groups' hlimit hstop hle' groups')
        subst hzero
        rw [dif_neg hstalled, Nat.zero_add, endingOf?_exhaust, exhaust_of_stalled hhead]
        simp [endingOf?]

/-! ## Whole repetitions -/

/-- A possessive repetition ends as the first ending of a greedy one, of which each iteration has
one ending at most. -/
theorem alike_possessive (h : Constant text body) {min : Nat} (hmax : ∀ m, max = some m → min ≤ m)
    (hmany : min ≤ 1 ∨ Advances text body) :
    Alike text (possessive text body min max)
      (atomic (repeated text (atomic body) min max false)) := by
  intro limit pos groups hlimit hpos hle
  have hbound : ∀ m, max = some m → 0 + min ≤ m := by simpa using hmax
  have hhead := head?_copies h hlimit hpos hle 0 min hbound hmany groups
  rw [Nat.zero_add] at hhead
  have hrepeated : repeated text (atomic body) min max false =
      seq (copies (atomic body) min) (others text (atomic body) min max) := by
    cases max <;> rfl
  rw [hrepeated, possessive]
  cases hresult : exhaust text body limit max 0 pos groups with
  | error fault =>
    rw [hresult] at hhead
    exact (atomic_of_head?_some hhead).symm
  | ok result =>
    obtain ⟨count, stop, groups'⟩ := result
    rw [hresult, endingOf?] at hhead
    dsimp only
    split at hhead
    · rename_i hle
      rw [if_pos hle]
      exact (atomic_of_head?_some hhead).symm
    · rename_i hfew
      rw [if_neg hfew]
      exact (atomic_of_head?_none hhead).symm

/-- A character is consumed. -/
theorem advances_chars (p : Char → Bool) (ps : List (Char → Bool)) :
    Advances text (chars text (p :: ps)) := by
  intro limit pos groups hlimit hpos hle groups' hhead
  rcases Ending.mem_andThen.1 (List.mem_of_mem_head? hhead) with
    ⟨fault, _, heq⟩ | ⟨stop, groups'', hchar, hrest⟩
  · cases heq
  · have hfirst : Bounded text (char text p) := onCourse_char p
    have hothers : Bounded text (chars text ps) := onCourse_chars ps
    obtain ⟨hstop, -, hlimit', -⟩ := hfirst limit pos groups hlimit hpos hle _ hchar
    obtain ⟨-, hback, -, -⟩ := hothers limit stop groups'' hlimit hstop hlimit' _ hrest
    unfold char at hchar
    split at hchar
    · cases hchar
    · split at hchar
      · cases hchar
      · rename_i c _
        split at hchar
        · obtain ⟨rfl, -⟩ := Prod.mk.inj (Except.ok.inj (List.mem_singleton.1 hchar))
          have := c.utf8Size_pos
          omega
        · cases hchar

end Meaning

end RegexEngine
