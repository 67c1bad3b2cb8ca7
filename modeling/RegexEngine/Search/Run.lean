import RegexEngine.Search.Stack
import RegexEngine.Search.Step

/-!
# Searching by preference

`Automaton.run` follows an automaton from a state and finds the first match in
order of preference.  Where there is only one way it is followed at once.  Where
there are more, those not taken are put on a stack, each but the first behind
the slots as they were, so that the slots always belong to the way that is being
tried.

* `Trial.chase` goes on until there is a choice.
* `Trial.handle` does one piece of pending work.
* `Trial.walk` does pending work until a match has been found.
* `Trial.runFragment` runs a fragment, on a stack of its own.
-/

namespace RegexEngine

/-! ## Choices -/

/-- A way out of a state. -/
inductive Way where
  /-- By the action or the transition of the state. -/
  | step
  /-- By ending the match. -/
  | accept
  /-- By an epsilon, which may start an iteration of a loop. -/
  | epsilon (next : Nat) (loop : Option Nat)
deriving DecidableEq, Repr

/-- The ways along the epsilons of a state, in their order.  The first epsilon of
the head of a loop starts an iteration. -/
def Automaton.State.epsilonWays (s : State) : List Way :=
  s.epsilons.map fun next =>
    .epsilon next (if s.epsilons.head? = some next then s.loopHead else none)

/-- The ways out of a state, in order of preference. -/
def Automaton.State.ways (s : State) (mayEnd : Bool) : List Way :=
  let steps := if s.transition.isSome || s.action != .none then [Way.step] else []
  let accepts := if s.accepting && mayEnd then [Way.accept] else []
  if s.lazy then s.epsilonWays.reverse ++ steps ++ accepts
  else steps ++ accepts ++ s.epsilonWays

/-- The frame that takes up a way. -/
def Way.frame (budget state pos : Nat) : Way → Frame
  | step => .step budget state pos
  | accept => .accept pos
  | epsilon next none => .visit budget next pos
  | epsilon next (some loop) => .enter budget loop next pos

/-- The frames of a choice, the first way on top and each other one behind the
given frames. -/
def choiceFrames (undo : List Frame) : List Frame → List Frame
  | [] => []
  | first :: others => first :: others.flatMap fun frame => undo ++ [frame]

/-- What comes of a piece of work. -/
inductive Outcome where
  /-- A match that ends here. -/
  | found (stop : Nat)
  /-- More work, on top of what is pending. -/
  | more (frames : List Frame)
deriving Repr

namespace Trial

/-! ## Going on -/

/-- Whether a state ends an iteration that has consumed nothing. -/
def isIdle (s : Automaton.State) (pos : Nat) : Search Bool :=
  match s.loopBack with
  | none => return false
  | some loop => return (← Search.iteration loop) == some pos

/-- Puts the ways out of a state on the stack.  The slots matter only if there
are groups. -/
def choice (t : Trial) (budget state pos : Nat) (ways : List Way) : Search Outcome := do
  let slots := (← get).slots
  let undo := if 1 < t.automaton.slotCount then [.restoreSlots slots] else []
  return .more (choiceFrames undo (ways.map (Way.frame budget state pos)))

/-- Goes on from a state until there is a choice, a match or no way. -/
def chase (t : Trial) (run : FragmentRunner) (window : Window) :
    Nat → Nat → Nat → Search Outcome
  | 0, _, _ => throw .tooDeep
  | budget + 1, state, pos => do
    let s ← t.state state
    if ← isIdle s pos then return .more []
    match s.ways (window.mayEnd pos) with
    | [way] =>
      match way with
      | .step =>
        match ← t.step run window.limit s pos with
        | none => return .more []
        | some (next, pos) => t.chase run window budget next pos
      | .accept => return .found pos
      | .epsilon next _ => t.chase run window budget next pos
    | ways => t.choice budget state pos ways

/-- Does a piece of pending work. -/
def handle (t : Trial) (run : FragmentRunner) (window : Window) : Frame → Search Outcome
  | .visit budget state pos => t.chase run window budget state pos
  | .step budget state pos => do
    match ← t.step run window.limit (← t.state state) pos with
    | none => return .more []
    | some (next, pos) => return .more [.visit budget next pos]
  | .enter budget loop state pos => do
    let start ← Search.iteration loop
    Search.setIteration loop (some pos)
    return .more [.visit budget state pos, .restoreLoop loop start]
  | .accept pos => return .found pos
  | .restoreSlots slots => do
    Search.restore slots
    return .more []
  | .restoreLoop loop start => do
    Search.setIteration loop start
    return .more []

/-! ## Work ends -/

theorem rank_lt_of_mem_choiceFrames {undo frames : List Frame} {k : Nat} {g : Frame}
    (hundo : ∀ f ∈ undo, f.rank < k) (hframes : ∀ f ∈ frames, f.rank < k)
    (h : g ∈ choiceFrames undo frames) : g.rank < k := by
  cases frames with
  | nil => simp [choiceFrames] at h
  | cons first others =>
    simp only [choiceFrames, List.mem_cons, List.mem_flatMap, List.mem_append,
      List.not_mem_nil, or_false] at h
    rcases h with rfl | ⟨f, hf, hg | rfl⟩
    · exact hframes _ (by simp)
    · exact hundo _ hg
    · exact hframes _ (by simp [hf])

theorem rank_frame_lt (budget state pos : Nat) (way : Way) :
    (way.frame budget state pos).rank < 2 * (budget + 1) := by
  unfold Way.frame
  split <;> simp only [Frame.rank] <;> omega

/-- Going on leaves only work of lower rank. -/
theorem rank_lt_of_chase {t : Trial} {run : FragmentRunner} {window : Window}
    {budget state pos : Nat} {r r' : Registers} {frames : List Frame}
    (h : t.chase run window budget state pos r = .ok (.more frames, r')) :
    ∀ g ∈ frames, g.rank < 2 * budget := by
  induction budget generalizing state pos r with
  | zero => cases h
  | succ budget ih =>
    have weaken : (∀ g ∈ frames, g.rank < 2 * budget) →
        ∀ g ∈ frames, g.rank < 2 * (budget + 1) :=
      fun hall g hg => by have := hall g hg; omega
    have choice {r₂ : Registers} {ways : List Way}
        (h : t.choice budget state pos ways r₂ = .ok (.more frames, r')) :
        ∀ g ∈ frames, g.rank < 2 * (budget + 1) := by
      obtain ⟨now, r₃, _, h⟩ := Search.bind_eq_ok.1 h
      simp only [Search.pure_eq_ok, Outcome.more.injEq] at h
      rw [← h.1]
      intro g hg
      refine rank_lt_of_mem_choiceFrames ?_ ?_ hg
      · intro f hf
        split at hf
        · simp only [List.mem_singleton] at hf
          simp [hf, Frame.rank]
        · simp at hf
      · simp only [List.mem_map, forall_exists_index, and_imp, forall_apply_eq_imp_iff₂]
        exact fun way _ => rank_frame_lt _ _ _ way
    obtain ⟨s, r₁, _, h⟩ := Search.bind_eq_ok.1 h
    obtain ⟨idle, r₂, _, h⟩ := Search.bind_eq_ok.1 h
    split at h
    · simp only [Search.pure_eq_ok, Outcome.more.injEq] at h
      simp [← h.1]
    · generalize s.ways (window.mayEnd pos) = ways at h
      match ways, h with
      | [], h => exact choice h
      | [.step], h =>
        obtain ⟨next, r₃, _, h⟩ := Search.bind_eq_ok.1 h
        match next, h with
        | none, h =>
          simp only [Search.pure_eq_ok, Outcome.more.injEq] at h
          simp [← h.1]
        | some _, h => exact weaken (ih h)
      | [.accept], h => simp [Search.pure_eq_ok] at h
      | [.epsilon _ _], h => exact weaken (ih h)
      | _ :: _ :: _, h => exact choice h

/-- Handling a frame leaves only work of lower rank. -/
theorem rank_lt_of_handle {t : Trial} {run : FragmentRunner} {window : Window}
    {frame : Frame} {r r' : Registers} {frames : List Frame}
    (h : t.handle run window frame r = .ok (.more frames, r')) :
    ∀ g ∈ frames, g.rank < frame.rank := by
  cases frame with
  | visit budget state pos => exact rank_lt_of_chase h
  | step budget state pos =>
    obtain ⟨s, r₁, _, h⟩ := Search.bind_eq_ok.1 h
    obtain ⟨next, r₂, _, h⟩ := Search.bind_eq_ok.1 h
    split at h
    · simp only [Search.pure_eq_ok, Outcome.more.injEq] at h
      simp [← h.1]
    · simp only [Search.pure_eq_ok, Outcome.more.injEq] at h
      simp [← h.1, Frame.rank]
  | enter budget loop state pos =>
    obtain ⟨start, r₁, _, h⟩ := Search.bind_eq_ok.1 h
    obtain ⟨_, r₂, _, h⟩ := Search.bind_eq_ok.1 h
    simp only [Search.pure_eq_ok, Outcome.more.injEq] at h
    simp [← h.1, Frame.rank]
  | accept pos => simp [handle, Search.pure_eq_ok] at h
  | restoreSlots slots =>
    obtain ⟨_, r₁, _, h⟩ := Search.bind_eq_ok.1 h
    simp only [Search.pure_eq_ok, Outcome.more.injEq] at h
    simp [← h.1]
  | restoreLoop loop start =>
    obtain ⟨_, r₁, _, h⟩ := Search.bind_eq_ok.1 h
    simp only [Search.pure_eq_ok, Outcome.more.injEq] at h
    simp [← h.1]

/-! ## Walking -/

/-- Does pending work until a match has been found or none is left. -/
def walk (t : Trial) (run : FragmentRunner) (window : Window) (stack : List Frame) :
    Search (Option Nat) := fun r =>
  match stack with
  | [] => .ok (none, r)
  | frame :: stack =>
    match _h : t.handle run window frame r with
    | .error fault => .error fault
    | .ok (.found stop, r) => .ok (some stop, r)
    | .ok (.more frames, r) => t.walk run window (frames ++ stack) r
termination_by RankStack.ofFrames stack
decreasing_by exact RankStack.replaces_ofFrames (rank_lt_of_handle _h)

/-- How many states a way may visit.  Without consuming anything it can end an
iteration of each loop and begin one, and between two such moves it meets no
state twice. -/
def budget (t : Trial) : Nat :=
  ((2 * t.automaton.loopCount + 1) * (t.text.size + 1)) * (t.automaton.states.size + 1)

/-- Follows the automaton from a state to the end of the first match. -/
def search (t : Trial) (run : FragmentRunner) (window : Window) (state pos : Nat) :
    Search (Option Nat) :=
  t.walk run window [.visit t.budget state pos]

/-- Runs a fragment in which other fragments are nested up to the given
depth. -/
def runFragment (t : Trial) : Nat → FragmentRunner
  | 0, _, _, _ => throw .tooDeep
  | depth + 1, window, id, pos => do
    let fragment ← t.fragment id
    match fragment.dfa with
    | some dfa => return (← t.runDfa dfa pos window.limit).filter window.mayEnd
    | none => t.search (t.runFragment depth) window fragment.start pos

end Trial

/-- Follows the automaton from a state to the end of the first match in order of
preference.  A fragment is nested only in fragments with other numbers, which
bounds the depth. -/
def Automaton.run (a : Automaton) (text : Subject) (state pos : Nat) :
    Search (Option Nat) :=
  let t : Trial := ⟨a, text⟩
  t.search (t.runFragment a.fragments.size) ⟨text.size, none⟩ state pos

end RegexEngine
