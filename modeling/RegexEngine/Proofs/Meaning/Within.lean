import RegexEngine.Proofs.Meaning.Basic
import RegexEngine.Proofs.Text.Boundary

/-!
# Where a pattern can end

The endings of a pattern lie at boundaries between the position and the limit.  What can come of the
groups and of reading them once more is said by a course, which need not mention any pattern.

* `Groups.Course` is such a description.
* `Meaning.OnCourse` says that all endings follow one, and each combinator keeps it.
* `Pattern.onCourse_meaning` is the induction over a pattern.
* `Meaning.Within` is about a property that the groups keep, and `Pattern.within_meaning` about one
  that is kept whatever the slots hold.
-/

namespace RegexEngine

/-- What can come of groups on the way to an ending: which faults there may be, and what the groups
may hold when a position has been reached. -/
structure Groups.Course where
  /-- Which faults there may be. -/
  faults : Groups → Fault → Prop
  /-- What the groups may hold at a position. -/
  leads : Groups → Nat → Groups → Prop
  /-- They may hold what they did. -/
  refl : ∀ groups pos, leads groups pos groups
  /-- They may hold what comes of what they may hold. -/
  trans : ∀ {groups groups' groups'' : Groups} {stop stop' : Nat}, leads groups stop groups' →
    stop ≤ stop' → leads groups' stop' groups'' → leads groups stop' groups''
  /-- A fault may come of what they may hold. -/
  faults_of_leads : ∀ {groups groups' : Groups} {stop : Nat} {fault : Fault},
    leads groups stop groups' → faults groups' fault → faults groups fault

namespace Groups.Course

/-- The groups keep a property, and as long as they have it only some faults can come of them. -/
def keeping (faults : Fault → Prop) (P : Groups → Prop) : Course where
  faults groups fault := P groups → faults fault
  leads groups _ groups' := P groups → P groups'
  refl _ _ := id
  trans h _ h' hP := h' (h hP)
  faults_of_leads h hfault hP := hfault (h hP)

end Groups.Course

open Groups (Course)

namespace Ending

variable {text : Subject} {course : Course} {groups : Groups} {limit pos : Nat}

/-- An ending lies between a position and a limit, and it follows a course. -/
def OnCourse (text : Subject) (course : Course) (groups : Groups) (limit pos : Nat) : Ending → Prop
  | .error fault => course.faults groups fault
  | .ok (stop, groups') =>
    text.isBoundary stop ∧ pos ≤ stop ∧ stop ≤ limit ∧ course.leads groups stop groups'

theorem mem_andThen {endings : List Ending} {next : Nat → Groups → List Ending} {e : Ending} :
    e ∈ andThen endings next ↔
      (∃ fault, .error fault ∈ endings ∧ e = .error fault) ∨
        ∃ stop groups, .ok (stop, groups) ∈ endings ∧ e ∈ next stop groups := by
  unfold andThen
  rw [List.mem_flatMap]
  constructor
  · rintro ⟨ending, hmem, he⟩
    match ending with
    | .error fault => exact .inl ⟨fault, hmem, by simpa using he⟩
    | .ok (stop, groups) => exact .inr ⟨stop, groups, hmem, he⟩
  · rintro (⟨fault, hmem, rfl⟩ | ⟨stop, groups, hmem, he⟩)
    · exact ⟨.error fault, hmem, by simp⟩
    · exact ⟨.ok (stop, groups), hmem, he⟩

/-- The ending where the position is. -/
theorem onCourse_self (hpos : text.isBoundary pos) (hle : pos ≤ limit) :
    OnCourse text course groups limit pos (.ok (pos, groups)) :=
  ⟨hpos, Nat.le_refl _, hle, course.refl groups pos⟩

/-- An ending further on may be reached from an ending before it. -/
theorem OnCourse.of_leads {stop : Nat} {groups' : Groups} {e : Ending}
    (h : e.OnCourse text course groups' limit stop) (hle : pos ≤ stop)
    (hleads : course.leads groups stop groups') : e.OnCourse text course groups limit pos := by
  match e, h with
  | .error fault, h => exact course.faults_of_leads hleads h
  | .ok (stop', groups''), ⟨hboundary, hle', hlimit, hleads'⟩ =>
    exact ⟨hboundary, Nat.le_trans hle hle', hlimit, course.trans hleads hle' hleads'⟩

end Ending

namespace Meaning

variable {text : Subject} {course : Course}

/-- All endings lie between the position and the limit, and they follow a course. -/
def OnCourse (text : Subject) (course : Course) (meaning : Meaning) : Prop :=
  ∀ limit pos groups, text.isBoundary limit → text.isBoundary pos → pos ≤ limit →
    ∀ e ∈ meaning limit pos groups, e.OnCourse text course groups limit pos

/-- Going on from endings that lie where they should. -/
theorem onCourse_andThen {limit pos : Nat} {groups : Groups} {endings : List Ending}
    (h : ∀ e ∈ endings, e.OnCourse text course groups limit pos)
    (next : Nat → Groups → List Ending)
    (hnext : ∀ stop groups', .ok (stop, groups') ∈ endings → text.isBoundary stop → pos ≤ stop →
      stop ≤ limit → ∀ e ∈ next stop groups', e.OnCourse text course groups' limit stop) :
    ∀ e ∈ Ending.andThen endings next, e.OnCourse text course groups limit pos := by
  intro e he
  rcases Ending.mem_andThen.1 he with ⟨fault, hmem, rfl⟩ | ⟨stop, groups', hmem, he⟩
  · exact h _ hmem
  · obtain ⟨hboundary, hle, hlimit, hleads⟩ := h _ hmem
    exact (hnext stop groups' hmem hboundary hle hlimit e he).of_leads hle hleads

theorem onCourse_skip : OnCourse text course .skip := by
  intro limit pos groups _ hpos hle e he
  obtain rfl := List.mem_singleton.1 he
  exact Ending.onCourse_self hpos hle

theorem OnCourse.seq {first second : Meaning} (h : OnCourse text course first)
    (h' : OnCourse text course second) : OnCourse text course (seq first second) := by
  intro limit pos groups hlimit hpos hle
  exact onCourse_andThen (h limit pos groups hlimit hpos hle) _
    fun stop groups' _ hstop _ hle' => h' limit stop groups' hlimit hstop hle'

theorem OnCourse.either {first second : Meaning} (h : OnCourse text course first)
    (h' : OnCourse text course second) : OnCourse text course (either first second) := by
  intro limit pos groups hlimit hpos hle e he
  rcases List.mem_append.1 he with he | he
  · exact h limit pos groups hlimit hpos hle e he
  · exact h' limit pos groups hlimit hpos hle e he

theorem onCourse_char (p : Char → Bool) : OnCourse text course (char text p) := by
  intro limit pos groups hlimit _ _ e he
  unfold char at he
  split at he
  · cases he
  · split at he
    · cases he
    · rename_i hlt c hc
      split at he
      · obtain rfl := List.mem_singleton.1 he
        exact ⟨Subject.isBoundary_add hc, Nat.le_add_right _ _,
          Subject.add_le_of_lt hc hlimit (by omega), course.refl groups _⟩
      · cases he

theorem onCourse_chars (ps : List (Char → Bool)) : OnCourse text course (chars text ps) := by
  induction ps with
  | nil => exact onCourse_skip
  | cons p ps ih => exact (onCourse_char p).seq ih

theorem onCourse_look (l : Look) : OnCourse text course (look text l) := by
  intro limit pos groups _ hpos hle e he
  unfold look at he
  split at he
  · obtain rfl := List.mem_singleton.1 he
    exact Ending.onCourse_self hpos hle
  · cases he

/-- Reading a group once more is a fault only if the course allows for it. -/
theorem onCourse_reference (ignoreCase : Bool) (key : GroupKey)
    (hslice : ∀ groups start stop fault, (groups key).bind Slot.span = some (start, stop) →
      text.slice start stop = .error fault → course.faults groups fault) :
    OnCourse text course (reference text ignoreCase key) := by
  intro limit pos groups hlimit hpos hle e he
  unfold reference at he
  split at he
  · cases he
  · rename_i start stop hspan
    split at he
    · rename_i fault hfault
      obtain rfl := List.mem_singleton.1 he
      exact hslice groups start stop fault hspan hfault
    · exact onCourse_chars _ limit pos groups hlimit hpos hle e he

/-! ## Repetition -/

theorem OnCourse.copies {body : Meaning} (h : OnCourse text course body) (n : Nat) :
    OnCourse text course (copies body n) := by
  induction n with
  | zero => exact onCourse_skip
  | succ n ih => exact h.seq ih

theorem OnCourse.choose {more stop : Meaning} (h : OnCourse text course more)
    (h' : OnCourse text course stop) (lazy : Bool) :
    OnCourse text course (choose lazy more stop) := by
  unfold Meaning.choose
  split
  · exact h'.either h
  · exact h.either h'

theorem OnCourse.optionalCopies {body : Meaning} (h : OnCourse text course body) (lazy : Bool)
    (n : Nat) : OnCourse text course (optionalCopies body lazy n) := by
  induction n with
  | zero => exact onCourse_skip
  | succ n ih => exact (h.seq ih).choose onCourse_skip lazy

theorem OnCourse.loop {body : Meaning} (h : OnCourse text course body) (lazy : Bool) :
    OnCourse text course (loop text body lazy) := by
  intro limit pos groups hlimit hpos hle
  induction hn : text.size - pos using Nat.strongRecOn generalizing pos groups with
  | ind n ih =>
    have hmore := onCourse_andThen (h limit pos groups hlimit hpos hle)
      (fun stop groups =>
        if _h : pos < stop ∧ stop ≤ text.size then Meaning.loop text body lazy limit stop groups
        else []) (by
        intro stop groups' _ hstop _ hle' e he
        split at he
        · exact ih (text.size - stop) (by omega) stop groups' hstop hle' rfl e he
        · cases he)
    have hstop : Ending.OnCourse text course groups limit pos (.ok (pos, groups)) :=
      Ending.onCourse_self hpos hle
    rw [Meaning.loop]
    intro e he
    split at he
    · rcases List.mem_cons.1 he with rfl | he
      · exact hstop
      · exact hmore e he
    · rcases List.mem_append.1 he with he | he
      · exact hmore e he
      · obtain rfl := List.mem_singleton.1 he
        exact hstop

theorem OnCourse.repeated {body : Meaning} {min : Nat} {max : Option Nat}
    (h : max ≠ some 0 ∨ min ≠ 0 → OnCourse text course body) (lazy : Bool) :
    OnCourse text course (repeated text body min max lazy) := by
  have hcopies : OnCourse text course (Meaning.copies body min) := by
    cases min with
    | zero => exact onCourse_skip
    | succ min => exact (h (.inr (by omega))).copies _
  refine hcopies.seq ?_
  cases max with
  | none => exact (h (.inl (by simp))).loop lazy
  | some max =>
    cases hn : max - min with
    | zero =>
      dsimp only
      rw [hn]
      exact onCourse_skip
    | succ n => exact (h (.inl (by simp; omega))).optionalCopies lazy _

/-! ## First endings -/

theorem OnCourse.atomic {body : Meaning} (h : OnCourse text course body) :
    OnCourse text course (atomic body) := by
  intro limit pos groups hlimit hpos hle e he
  exact h limit pos groups hlimit hpos hle e (List.mem_of_mem_take he)

/-- What comes of first endings, one after the other, lies where it should. -/
theorem OnCourse.exhaust {body : Meaning} (h : OnCourse text course body) {limit : Nat}
    (hlimit : text.isBoundary limit) (max : Option Nat) (count : Nat) {pos : Nat} (groups : Groups)
    (hpos : text.isBoundary pos) (hle : pos ≤ limit) :
    Ending.OnCourse text course groups limit pos
      ((Meaning.exhaust text body limit max count pos groups).map Prod.snd) := by
  fun_induction Meaning.exhaust text body limit max count pos groups with
  | case1 count pos groups => exact Ending.onCourse_self hpos hle
  | case2 count pos groups _ hnone => exact Ending.onCourse_self hpos hle
  | case3 count pos groups _ fault hsome =>
    exact h limit pos groups hlimit hpos hle _ (List.mem_of_mem_head? hsome)
  | case4 count pos groups _ stop groups' hsome hlt ih =>
    obtain ⟨hboundary, hle', hlimit', hleads⟩ :=
      h limit pos groups hlimit hpos hle _ (List.mem_of_mem_head? hsome)
    exact (ih hboundary hlimit').of_leads hle' hleads
  | case5 count pos groups _ stop groups' hsome hlt =>
    exact h limit pos groups hlimit hpos hle _ (List.mem_of_mem_head? hsome)

theorem OnCourse.possessive {body : Meaning} (h : OnCourse text course body) (min : Nat)
    (max : Option Nat) : OnCourse text course (possessive text body min max) := by
  intro limit pos groups hlimit hpos hle e he
  have hexhausts := h.exhaust hlimit max 0 groups hpos hle
  unfold Meaning.possessive at he
  split at he
  · rename_i hresult
    rw [hresult] at hexhausts
    obtain rfl := List.mem_singleton.1 he
    exact hexhausts
  · rename_i hresult
    rw [hresult] at hexhausts
    split at he
    · obtain rfl := List.mem_singleton.1 he
      exact hexhausts
    · cases he

/-- Looking somewhere stays where it was, and groups are kept only if something has been found that
was looked for. -/
theorem onCourse_looking {negated : Bool} {endings : List Ending} {limit pos : Nat}
    {groups : Groups} (hpos : text.isBoundary pos) (hle : pos ≤ limit)
    (hfaults : ∀ fault, .error fault ∈ endings → course.faults groups fault)
    (h : negated = false → ∀ stop groups', .ok (stop, groups') ∈ endings →
      course.leads groups pos groups') :
    ∀ e ∈ looking negated endings pos groups, e.OnCourse text course groups limit pos := by
  intro e he
  unfold looking at he
  split at he
  · rename_i fault hhead
    obtain rfl := List.mem_singleton.1 he
    exact hfaults fault (List.mem_of_mem_head? hhead)
  · rename_i stop groups' hhead
    split at he
    · cases he
    · rename_i hnegated
      obtain rfl := List.mem_singleton.1 he
      exact ⟨hpos, Nat.le_refl _, hle,
        h (Bool.eq_false_iff.2 hnegated) stop groups' (List.mem_of_mem_head? hhead)⟩
  · split at he
    · obtain rfl := List.mem_singleton.1 he
      exact Ending.onCourse_self hpos hle
    · cases he

/-- What has been found ahead of a position has to lead to what the groups may hold there. -/
theorem OnCourse.lookAhead {body : Meaning} (h : OnCourse text course body) (negated : Bool)
    (hback : negated = false → ∀ pos groups stop groups', text.isBoundary pos →
      .ok (stop, groups') ∈ body text.size pos groups → course.leads groups pos groups') :
    OnCourse text course (lookAround text .ahead negated body) := by
  intro limit pos groups hlimit hpos hle
  have hbody := h text.size pos groups (Subject.isBoundary_size _) hpos
    (Subject.le_size_of_isBoundary hpos)
  exact onCourse_looking hpos hle (fun fault hmem => hbody _ hmem)
    fun hnegated stop groups' hmem => hback hnegated pos groups stop groups' hpos hmem

/-- What has been found behind a position ends there. -/
theorem OnCourse.lookBehind {body : Meaning} (h : OnCourse text course body) (negated : Bool) :
    OnCourse text course (lookAround text .behind negated body) := by
  intro limit pos groups hlimit hpos hle
  have hbody {e : Ending} (hmem : e ∈ (text.boundariesDownFrom pos).flatMap fun start =>
      (body pos start groups).filter (endsHere pos)) :
      endsHere pos e ∧ ∃ start, e.OnCourse text course groups pos start := by
    obtain ⟨start, hstart, hmem⟩ := List.mem_flatMap.1 hmem
    obtain ⟨hboundary, hle'⟩ := Subject.mem_boundariesDownFrom hstart
    obtain ⟨hmem, hends⟩ := List.mem_filter.1 hmem
    exact ⟨hends, start, h pos start groups hpos hboundary hle' _ hmem⟩
  refine onCourse_looking hpos hle (fun fault hmem => ?_) fun _ stop groups' hmem => ?_
  · exact (hbody hmem).2.choose_spec
  · obtain ⟨hends, start, -, -, -, hleads⟩ := hbody hmem
    obtain rfl : stop = pos := by simpa [endsHere] using hends
    exact hleads

/-- The groups of a capture are those of its body, where its group has been opened and is closed. -/
theorem OnCourse.capture {body : Meaning} {key : GroupKey} (h : OnCourse text course body)
    (hfaults : ∀ groups pos fault, text.isBoundary pos →
      course.faults (groups.opened key pos) fault → course.faults groups fault)
    (hleads : ∀ groups pos stop groups', text.isBoundary pos → text.isBoundary stop → pos ≤ stop →
      course.leads (groups.opened key pos) stop groups' →
        course.leads groups stop (groups'.closed key stop)) :
    OnCourse text course (Meaning.capture key body) := by
  intro limit pos groups hlimit hpos hle e he
  rcases Ending.mem_andThen.1 he with ⟨fault, hmem, rfl⟩ | ⟨stop, groups', hmem, he⟩
  · exact hfaults groups pos fault hpos (h limit pos _ hlimit hpos hle _ hmem)
  · obtain ⟨hstop, hle', hlimit', hbody⟩ := h limit pos _ hlimit hpos hle _ hmem
    obtain rfl := List.mem_singleton.1 he
    exact ⟨hstop, hle', hlimit', hleads groups pos stop groups' hpos hstop hle' hbody⟩

/-! ## Properties that are kept -/

section

variable {faults : Fault → Prop} {P : Groups → Prop} {body : Meaning}

theorem OnCourse.capture_keeping {key : GroupKey} (h : OnCourse text (.keeping faults P) body)
    (hkey : ∀ groups slot, P groups → P (groups.set key slot)) :
    OnCourse text (.keeping faults P) (Meaning.capture key body) :=
  h.capture (fun _ _ _ _ hfault hP => hfault (hkey _ _ hP))
    fun _ _ _ _ _ _ _ hleads hP => hkey _ _ (hleads (hkey _ _ hP))

/-- What is kept does not depend on the position. -/
theorem OnCourse.lookAhead_keeping (h : OnCourse text (.keeping faults P) body) (negated : Bool) :
    OnCourse text (.keeping faults P) (lookAround text .ahead negated body) :=
  h.lookAhead negated fun _ _ groups _ _ hpos hmem =>
    (h _ _ groups (Subject.isBoundary_size _) hpos (Subject.le_size_of_isBoundary hpos)
      _ hmem).2.2.2

end

end Meaning

/-- An ending lies between a position and a limit, with groups that have a property.  It is
a fault only if there may be faults. -/
def Ending.Within (text : Subject) (faults : Prop) (P : Groups → Prop) (limit pos : Nat) :
    Ending → Prop
  | .error _ => faults
  | .ok (stop, groups) => text.isBoundary stop ∧ pos ≤ stop ∧ stop ≤ limit ∧ P groups

namespace Meaning

variable {faults : Prop} {P : Groups → Prop}

/-- All endings lie between the position and the limit, with groups that keep a
property. -/
def Within (text : Subject) (faults : Prop) (P : Groups → Prop) (meaning : Meaning) : Prop :=
  ∀ limit pos groups, text.isBoundary limit → text.isBoundary pos → pos ≤ limit → P groups →
    ∀ e ∈ meaning limit pos groups, e.Within text faults P limit pos

theorem OnCourse.within {meaning : Meaning}
    (h : OnCourse text (.keeping (fun _ => faults) P) meaning) : Within text faults P meaning := by
  intro limit pos groups hlimit hpos hle hgroups e he
  match e, h limit pos groups hlimit hpos hle e he with
  | .error fault, hfault => exact hfault hgroups
  | .ok (stop, groups'), ⟨hstop, hle', hlimit', hleads⟩ =>
    exact ⟨hstop, hle', hlimit', hleads hgroups⟩

end Meaning

/-! ## Patterns -/

namespace Pattern

mutual

/-- The groups that a pattern opens, where `base` groups have been numbered before. -/
def keys (base : Nat) : Pattern → List GroupKey
  | text _ | oneOf _ | assert _ | reference _ => []
  | concat parts => keysAll base parts
  | alt branches => keysAll base branches
  | repeated body min max mode =>
    if max = some 0 ∧ min = 0 ∧ mode ≠ .possessive then [] else keys base body
  | withFlags _ body | lookAround _ _ body | atomic body => keys base body
  | capture none body => .index (base + 1) :: keys (base + 1) body
  | capture (some name) body => .name name :: keys base body

/-- The groups that patterns open, one after the other. -/
def keysAll (base : Nat) : List Pattern → List GroupKey
  | [] => []
  | part :: parts => keys base part ++ keysAll (base + numbered part) parts

end

mutual

/-- The captures of a pattern: the group of each, how many groups have been numbered before its
body, and the body. -/
def captures (base : Nat) : Pattern → List (GroupKey × Nat × Pattern)
  | text _ | oneOf _ | assert _ | reference _ => []
  | concat parts => capturesAll base parts
  | alt branches => capturesAll base branches
  | repeated body min max mode =>
    if max = some 0 ∧ min = 0 ∧ mode ≠ .possessive then [] else captures base body
  | withFlags _ body | lookAround _ _ body | atomic body => captures base body
  | capture none body => (.index (base + 1), base + 1, body) :: captures (base + 1) body
  | capture (some name) body => (.name name, base, body) :: captures base body

/-- The captures of patterns, one after the other. -/
def capturesAll (base : Nat) : List Pattern → List (GroupKey × Nat × Pattern)
  | [] => []
  | part :: parts => captures base part ++ capturesAll (base + numbered part) parts

end

mutual

/-- The lookaheads of a pattern that may keep groups: how many groups have been numbered before the
body of each, and the body. -/
def lookaheads (base : Nat) : Pattern → List (Nat × Pattern)
  | text _ | oneOf _ | assert _ | reference _ => []
  | concat parts => lookaheadsAll base parts
  | alt branches => lookaheadsAll base branches
  | repeated body min max mode =>
    if max = some 0 ∧ min = 0 ∧ mode ≠ .possessive then [] else lookaheads base body
  | lookAround .ahead false body => (base, body) :: lookaheads base body
  | lookAround _ _ body | withFlags _ body | atomic body => lookaheads base body
  | capture none body => lookaheads (base + 1) body
  | capture (some _) body => lookaheads base body

/-- The lookaheads of patterns, one after the other. -/
def lookaheadsAll (base : Nat) : List Pattern → List (Nat × Pattern)
  | [] => []
  | part :: parts => lookaheads base part ++ lookaheadsAll (base + numbered part) parts

end

mutual

/-- The groups that a pattern opens are those of its captures. -/
theorem keys_eq_map_captures (base : Nat) :
    (p : Pattern) → keys base p = (captures base p).map (·.1)
  | text _ | oneOf _ | assert _ | reference _ => rfl
  | concat parts => keysAll_eq_map_capturesAll base parts
  | alt branches => keysAll_eq_map_capturesAll base branches
  | repeated body min max mode => by
    unfold keys captures
    split
    · rfl
    · exact keys_eq_map_captures base body
  | withFlags _ body | lookAround _ _ body | atomic body => keys_eq_map_captures base body
  | capture none body => by simp [keys, captures, keys_eq_map_captures (base + 1) body]
  | capture (some name) body => by simp [keys, captures, keys_eq_map_captures base body]

theorem keysAll_eq_map_capturesAll (base : Nat) : (parts : List Pattern) →
    keysAll base parts = (capturesAll base parts).map (·.1)
  | [] => rfl
  | part :: parts => by
    simp [keysAll, capturesAll, keys_eq_map_captures base part,
      keysAll_eq_map_capturesAll (base + numbered part) parts]

end

variable {subject : Subject} {course : Course}

/-- Reading a group once more, opening and closing the groups of the given captures, and looking
ahead for the given bodies follow a course. -/
structure Heeds (subject : Subject) (course : Course) (captures : List (GroupKey × Nat × Pattern))
    (lookaheads : List (Nat × Pattern)) : Prop where
  /-- Any group may be read. -/
  reference : ∀ ignoreCase key,
    Meaning.OnCourse subject course (.reference subject ignoreCase key)
  /-- The captures may be opened and closed. -/
  capture : ∀ key base body, (key, base, body) ∈ captures → ∀ o,
    Meaning.OnCourse subject course (meaning subject o base body) →
      Meaning.OnCourse subject course (.capture key (meaning subject o base body))
  /-- The bodies may be found ahead. -/
  ahead : ∀ base body, (base, body) ∈ lookaheads → ∀ o,
    Meaning.OnCourse subject course (meaning subject o base body) →
      Meaning.OnCourse subject course
        (.lookAround subject .ahead false (meaning subject o base body))

theorem Heeds.mono {captures captures' : List (GroupKey × Nat × Pattern)}
    {lookaheads lookaheads' : List (Nat × Pattern)} (h : Heeds subject course captures lookaheads)
    (hcaptures : captures' ⊆ captures) (hlookaheads : lookaheads' ⊆ lookaheads) :
    Heeds subject course captures' lookaheads' where
  reference := h.reference
  capture key base body hmem := h.capture key base body (hcaptures hmem)
  ahead base body hmem := h.ahead base body (hlookaheads hmem)

mutual

/-- The endings of a pattern follow a course if its captures and lookaheads do. -/
theorem onCourse_meaning (o : Options) (base : Nat) : (p : Pattern) →
    Heeds subject course (captures base p) (lookaheads base p) →
      Meaning.OnCourse subject course (meaning subject o base p)
  | text cs, _ => Meaning.onCourse_chars _
  | concat parts, h => onCourse_meaningAll o base parts h
  | alt branches, h => onCourse_meaningAny o base branches h
  | repeated body min max mode, h => by
    have hbody (hmany : ¬(max = some 0 ∧ min = 0 ∧ mode ≠ .possessive)) :=
      onCourse_meaning o base body (by rwa [captures, lookaheads, if_neg hmany, if_neg hmany] at h)
    unfold meaning
    by_cases hmode : mode = .possessive
    · rw [if_pos hmode]
      exact (hbody fun hmany => hmany.2.2 hmode).possessive min max
    · rw [if_neg hmode]
      refine Meaning.OnCourse.repeated (fun hmany => hbody ?_) _
      rintro ⟨rfl, rfl, -⟩
      simp at hmany
  | oneOf set, _ => Meaning.onCourse_char _
  | assert assertion, _ => Meaning.onCourse_look _
  | withFlags flags body, h => onCourse_meaning (o.overlay flags) base body h
  | lookAround .ahead false body, h =>
    h.ahead _ _ List.mem_cons_self o
      (onCourse_meaning o base body (h.mono (fun _ => id) (List.subset_cons_self _ _)))
  | lookAround .ahead true body, h => (onCourse_meaning o base body h).lookAhead true nofun
  | lookAround .behind negated body, h => (onCourse_meaning o base body h).lookBehind negated
  | atomic body, h => (onCourse_meaning o base body h).atomic
  | capture (some name) body, h =>
    h.capture _ _ _ List.mem_cons_self o
      (onCourse_meaning o base body (h.mono (List.subset_cons_self _ _) fun _ => id))
  | capture none body, h =>
    h.capture _ _ _ List.mem_cons_self o
      (onCourse_meaning o (base + 1) body (h.mono (List.subset_cons_self _ _) fun _ => id))
  | reference group, h => h.reference _ group

theorem onCourse_meaningAll (o : Options) (base : Nat) : (parts : List Pattern) →
    Heeds subject course (capturesAll base parts) (lookaheadsAll base parts) →
      Meaning.OnCourse subject course (meaningAll subject o base parts)
  | [], _ => Meaning.onCourse_skip
  | part :: parts, h =>
    (onCourse_meaning o base part
      (h.mono (List.subset_append_left _ _) (List.subset_append_left _ _))).seq
      (onCourse_meaningAll o (base + numbered part) parts
        (h.mono (List.subset_append_right _ _) (List.subset_append_right _ _)))

theorem onCourse_meaningAny (o : Options) (base : Nat) : (branches : List Pattern) →
    Heeds subject course (capturesAll base branches) (lookaheadsAll base branches) →
      Meaning.OnCourse subject course (meaningAny subject o base branches)
  | [], _ => fun _ _ _ _ _ _ _ he => by cases he
  | branch :: branches, h =>
    (onCourse_meaning o base branch
      (h.mono (List.subset_append_left _ _) (List.subset_append_left _ _))).either
      (onCourse_meaningAny o (base + numbered branch) branches
        (h.mono (List.subset_append_right _ _) (List.subset_append_right _ _)))

end

/-- A property is kept if the captures keep it and reading a group is no other fault. -/
theorem onCourse_meaning_keeping {faults : Fault → Prop} {P : Groups → Prop} (o : Options)
    (base : Nat) (p : Pattern)
    (hreference : ∀ ignoreCase key, Meaning.OnCourse subject (.keeping faults P)
      (.reference subject ignoreCase key))
    (hcapture : ∀ key base' body, (key, base', body) ∈ captures base p → ∀ o,
      Meaning.OnCourse subject (.keeping faults P) (meaning subject o base' body) →
        Meaning.OnCourse subject (.keeping faults P)
          (.capture key (meaning subject o base' body))) :
    Meaning.OnCourse subject (.keeping faults P) (meaning subject o base p) :=
  onCourse_meaning o base p ⟨hreference, hcapture, fun _ _ _ _ h => h.lookAhead_keeping false⟩

/-- What no change of the groups of a pattern breaks is kept. -/
theorem onCourse_meaning_of_set {P : Groups → Prop} (o : Options) (base : Nat) (p : Pattern)
    (h : ∀ key ∈ keys base p, ∀ groups slot, P groups → P (groups.set key slot)) :
    Meaning.OnCourse subject (.keeping (fun _ => True) P) (meaning subject o base p) := by
  refine onCourse_meaning_keeping o base p
    (fun _ key => Meaning.onCourse_reference _ key fun _ _ _ _ _ _ _ => trivial) ?_
  intro key base' body hmem o hbody
  refine hbody.capture_keeping (h key ?_)
  rw [keys_eq_map_captures]
  exact List.mem_map.2 ⟨_, hmem, rfl⟩

theorem within_meaning {P : Groups → Prop} (o : Options) (base : Nat) (p : Pattern)
    (h : ∀ key ∈ keys base p, ∀ groups slot, P groups → P (groups.set key slot)) :
    Meaning.Within subject True P (meaning subject o base p) :=
  (onCourse_meaning_of_set o base p h).within

end Pattern

end RegexEngine
