import Mathlib.Order.Bounds.Basic
import Mathlib.Order.Lattice.Nat
import RegexEngine.Proofs.Dfa.Construction

/-!
# Deterministic automata are exact

The deterministic automaton of a part of an automaton finds the end of the
longest path through that part.  Assertions on a path see the whole subject.

* `longest_scan` is the invariant of a run: it finds the greatest end of the
  paths from the states of the current key.
* `runBounded_ofPart` says it of a whole run.
-/

namespace RegexEngine.Dfa

variable {a : Automaton} {goal : Nat} {text : Subject}

/-- The ends of the paths from one of the states, as far as the limit allows. -/
def endsFrom (a : Automaton) (text : Subject) (goal : Nat) (states : List Nat) (limit pos : Nat) :
    Set Nat :=
  {stop | pos ≤ stop ∧ stop ≤ max pos limit ∧ ∃ s ∈ states, a.Reads text goal s pos stop}

/-- `result` is the greatest of the ends, or `last` if there are none. -/
structure Longest (ends : Set Nat) (last result : Option Nat) : Prop where
  /-- The greatest end is the result. -/
  greatest : ∀ stop, IsGreatest ends stop → result = some stop
  /-- Without ends nothing new is found. -/
  empty : ends = ∅ → result = last

/-- If only the current position can be an end, it is the result. -/
theorem longest_here {pos : Nat} {ends : Set Nat} {accepts : Bool} (last : Option Nat)
    (h : ∀ stop, stop ∈ ends ↔ stop = pos ∧ accepts) :
    Longest ends last (if accepts then some pos else last) where
  greatest := by
    intro stop hgreatest
    obtain ⟨rfl, haccepts⟩ := (h stop).1 hgreatest.1
    rw [if_pos haccepts]
  empty := by
    intro hempty
    refine if_neg fun haccepts => ?_
    have := (h pos).2 ⟨rfl, haccepts⟩
    rw [hempty] at this
    exact this

/-- The ends behind a character are longer than the current position. -/
theorem longest_later {pos : Nat} {ends later : Set Nat} {accepts : Bool}
    {last result : Option Nat}
    (h : ∀ stop, stop ∈ ends ↔ stop = pos ∧ accepts ∨ stop ∈ later)
    (hlater : ∀ stop ∈ later, pos < stop)
    (hresult : Longest later (if accepts then some pos else last) result) :
    Longest ends last result where
  greatest := by
    intro stop hgreatest
    rcases (h stop).1 hgreatest.1 with ⟨rfl, haccepts⟩ | hstop
    · rw [hresult.empty, if_pos haccepts]
      refine Set.eq_empty_of_forall_notMem fun other hother => ?_
      have hle := hgreatest.2 ((h other).2 (Or.inr hother))
      have := hlater other hother
      omega
    · refine hresult.greatest stop ⟨hstop, fun other hother => ?_⟩
      exact hgreatest.2 ((h other).2 (Or.inr hother))
  empty := by
    intro hempty
    have hnone (stop : Nat) : stop ∉ ends := by simp [hempty]
    rw [hresult.empty, if_neg]
    · exact fun haccepts => hnone pos ((h pos).2 (Or.inl ⟨rfl, haccepts⟩))
    · exact Set.eq_empty_of_forall_notMem fun stop hstop => hnone stop ((h stop).2 (Or.inr hstop))

/-- The automaton has a state for each key that does what the key says. -/
def Complete (a : Automaton) (goal : Nat) (keys : Array Key) (d : Dfa) : Prop :=
  ∀ (id : Nat) (key : Key), keys[id]? = some key →
    ∃ s, d.states[id]? = some s ∧ RightState a goal keys key s

/-- Paths end here, if the state of their key accepts, or they read a character. -/
theorem mem_endsFrom_iff (hgoal : goal < a.states.size) {states : List Nat} {keys : Array Key}
    {limit pos stop : Nat} {s : State}
    (hright : RightState a goal keys (keyOf a goal (closure a goal states) (.before text pos)) s) :
    stop ∈ endsFrom a text goal states limit pos ↔
      (stop = pos ∧ s.accepting.get (.after text pos)) ∨
      ∃ c, text.charAt? pos = some c ∧ stop ≤ max pos limit ∧
        ∃ t ∈ targets a goal ((keyOf a goal (closure a goal states) (.before text pos)).resolved
          a goal (.of c)) c, a.Reads text goal t (pos + c.utf8Size) stop := by
  show (pos ≤ stop ∧ stop ≤ max pos limit ∧ ∃ s ∈ states, a.Reads text goal s pos stop) ↔ _
  rw [← reads_closure_iff hgoal, reads_states_iff hgoal, hright.accepting, resolve_keyOf,
    List.contains_iff_mem]
  simp only [resolve_keyOf]
  constructor
  · rintro ⟨_, hlimit, hstop | ⟨c, hc, ht⟩⟩
    · exact Or.inl hstop
    · exact Or.inr ⟨c, hc, hlimit, ht⟩
  · rintro (⟨rfl, hmem⟩ | ⟨c, hc, hlimit, t, ht, hreads⟩)
    · exact ⟨Nat.le_refl _, Nat.le_max_left _ _, Or.inl ⟨rfl, hmem⟩⟩
    · have := hreads.le
      exact ⟨by omega, hlimit, Or.inr ⟨c, hc, t, ht, hreads⟩⟩

/-- A run finds the greatest end of the paths from the states of its key. -/
theorem longest_scan {keys : Array Key} {d : Dfa} (hd : Complete a goal keys d)
    (hgoal : goal < a.states.size) {limit : Nat} (hlimit : text.isBoundary limit)
    (state pos : Nat) (last : Option Nat) (states : List Nat)
    (hkey : keys[state]? = some (keyOf a goal (closure a goal states) (.before text pos))) :
    Longest (endsFrom a text goal states limit pos) last (d.scan text limit state pos last) := by
  have right {state : Nat} {s : State} {key : Key} (hs : d.states[state]? = some s)
      (hkey : keys[state]? = some key) : RightState a goal keys key s := by
    obtain ⟨s', hs', hright⟩ := hd state key hkey
    rwa [Option.some.inj (hs.symm.trans hs')]
  revert states
  fun_induction scan d text limit state pos last with
  | case1 state pos last hnone =>
    intro states hkey
    obtain ⟨s, hs, _⟩ := hd state _ hkey
    rw [hnone] at hs
    cases hs
  | case2 state pos last s hs last' hle =>
    intro states hkey
    refine longest_here last fun stop => ?_
    rw [mem_endsFrom_iff hgoal (right hs hkey), or_iff_left]
    rintro ⟨c, _, hstop, t, _, hreads⟩
    have := hreads.le
    have := c.utf8Size_pos
    omega
  | case3 state pos last s hs last' hlt hnone =>
    intro states hkey
    refine longest_here last fun stop => ?_
    rw [mem_endsFrom_iff hgoal (right hs hkey), or_iff_left]
    rintro ⟨c, hc, _⟩
    rw [hnone] at hc
    cases hc
  | case4 state pos last s hs last' hlt c hc hstep =>
    intro states hkey
    refine longest_here last fun stop => ?_
    rw [mem_endsFrom_iff hgoal (right hs hkey), or_iff_left]
    rintro ⟨c', hc', _, t, ht, _⟩
    obtain rfl := Option.some.inj (hc.symm.trans hc')
    obtain ⟨id, hspells⟩ := (right hs hkey).total c (List.ne_nil_of_mem ht)
    exact not_spells_of_step hstep hspells
  | case5 state pos last s hs last' hlt c hc next hstep ih =>
    intro states hkey
    have hnext := (right hs hkey).sound c next (spells_of_step hstep)
    rw [Key.next, ← Category.before_add hc] at hnext
    have hadd : pos + c.utf8Size ≤ limit := Subject.add_le_of_lt hc hlimit (by omega)
    refine longest_later (fun stop => ?_) (fun stop hstop => ?_) (ih _ hnext)
    · rw [mem_endsFrom_iff hgoal (right hs hkey)]
      refine or_congr_right ⟨?_, ?_⟩
      · rintro ⟨c', hc', hstop, t, ht, hreads⟩
        obtain rfl := Option.some.inj (hc.symm.trans hc')
        have := hreads.le
        rw [Category.before_add hc]
        exact ⟨by omega, by omega, t, ht, hreads⟩
      · rintro ⟨_, hstop, t, ht, hreads⟩
        rw [Category.before_add hc] at ht
        exact ⟨c, hc, by omega, t, ht, hreads⟩
    · have := hstop.1
      have := c.utf8Size_pos
      omega

/-! ## The whole automaton -/

/-- The construction starts with the states for all categories before. -/
theorem builds_seed (start : Nat) :
    Builds a goal [] (seed a start goal) fun keys roots =>
      ∀ before, keys[roots.get before]? = some (keyOf a goal (closure a goal [start]) before) := by
  refine builds_bind (builds_intern (proper_keyOf _ _)) fun edge => ?_
  refine builds_bind (builds_intern (proper_keyOf _ _)) fun word => ?_
  refine builds_bind (builds_intern (proper_keyOf _ _)) fun lineTerminator => ?_
  refine builds_bind (builds_intern (proper_keyOf _ _)) fun other => builds_pure fun keys => ?_
  intro keys₄ hkept₄ hother keys₃ hkept₃ hlineTerminator keys₂ hkept₂ hword keys₁ hkept₁
    hedge before
  cases before with
  | edge => exact hkept₁ _ _ hedge
  | word => exact hkept₂ _ _ hword
  | lineTerminator => exact hkept₃ _ _ hlineTerminator
  | other => exact hkept₄ _ _ hother

theorem wellBuilt_empty : WellBuilt a goal [] {} where
  size_eq := rfl
  nodup := List.nodup_nil
  proper := fun key hkey => by cases hkey
  pending_lt := fun id hid => by cases hid
  finished := fun id hlt => by cases hlt

/-- The draft of the deterministic automaton of a part, when all states have been made. -/
def wholeDraft (a : Automaton) (start goal : Nat) : Draft :=
  complete a goal (5 * Nat.pow 2 a.states.size) (seed a start goal {}).2

/-- In the end no state is pending, and the roots have the keys of the start state. -/
theorem wellBuilt_wholeDraft (a : Automaton) (start goal : Nat) :
    WellBuilt a goal [] (wholeDraft a start goal) ∧ (wholeDraft a start goal).pending = [] ∧
      ∀ before, (wholeDraft a start goal).keys[(ofPart a start goal).roots.get before]? =
        some (keyOf a goal (closure a goal [start]) before) := by
  obtain ⟨hseed, hextends, hroots⟩ := (builds_seed start : Builds a goal [] _ _) {} wellBuilt_empty
  have hcount := hextends.count
  have hfuel : 5 * Nat.pow 2 a.states.size + (seed a start goal {}).2.pending.length ≤
      5 * Nat.pow 2 a.states.size + (seed a start goal {}).2.keys.size := by
    simp at hcount
    omega
  obtain ⟨hwell, hkept, hpending⟩ := complete_spec hseed hfuel
  exact ⟨hwell, hpending, fun before => hkept _ _ (hroots before)⟩

/-- The deterministic automaton has a right state for each key. -/
theorem complete_wholeDraft (a : Automaton) (start goal : Nat) :
    Complete a goal (wholeDraft a start goal).keys (ofPart a start goal) := by
  obtain ⟨hwell, hpending, -⟩ := wellBuilt_wholeDraft a start goal
  intro id key hkey
  rcases hwell.finished id (Array.getElem?_eq_some_iff.1 hkey).1 with hnone | hmem | hfinished
  · cases hnone
  · rw [hpending] at hmem
    cases hmem
  · obtain ⟨key', s, hkey', hs, hright⟩ := hfinished
    obtain rfl := Option.some.inj (hkey.symm.trans hkey')
    exact ⟨s, hs, hright⟩

/-- The deterministic automaton has a right state for each key, and starts with the
keys of the start state. -/
theorem complete_ofPart (a : Automaton) (start goal : Nat) :
    ∃ keys, Complete a goal keys (ofPart a start goal) ∧
      ∀ before, keys[(ofPart a start goal).roots.get before]? =
        some (keyOf a goal (closure a goal [start]) before) :=
  ⟨_, complete_wholeDraft a start goal, (wellBuilt_wholeDraft a start goal).2.2⟩

/-- Bounded ends are none or have a greatest one, which is the result. -/
theorem Longest.result_iff {ends : Set Nat} {result : Option Nat} (h : Longest ends none result)
    (hbounded : BddAbove ends) :
    (∀ stop, result = some stop ↔ IsGreatest ends stop) ∧ (result = none ↔ ends = ∅) := by
  rcases ends.eq_empty_or_nonempty with hempty | hnonempty
  · have hnone := h.empty hempty
    refine ⟨fun stop => ?_, by simp [hnone, hempty]⟩
    simp [hnone, hempty, IsGreatest]
  · have hgreatest : IsGreatest ends (sSup ends) :=
      ⟨Nat.sSup_mem hnonempty hbounded, fun _ hstop => le_csSup hbounded hstop⟩
    have hresult := h.greatest _ hgreatest
    refine ⟨fun stop => ⟨fun hstop => ?_, h.greatest stop⟩, ?_⟩
    · rw [hresult] at hstop
      exact Option.some.inj hstop ▸ hgreatest
    · simp [hresult, hnonempty.ne_empty]

/-- A run of the deterministic automaton of a part has an answer, the greatest end of the
paths through the part. -/
theorem longest_runBounded (a : Automaton) (text : Subject) (start : Nat) {goal pos limit : Nat}
    (hgoal : goal < a.states.size) (hpos : text.isBoundary pos) (hlimit : text.isBoundary limit) :
    ∃ result, (ofPart a start goal).runBounded text pos limit = .ok result ∧
      Longest (endsFrom a text goal [start] limit pos) none result := by
  obtain ⟨keys, hcomplete, hroots⟩ := complete_ofPart a start goal
  refine ⟨_, ?_, longest_scan hcomplete hgoal hlimit _ pos none _ (hroots (.before text pos))⟩
  simp [runBounded, Subject.checkBoundary, hpos]

/-- A greatest end is a boundary within the limit. -/
theorem Longest.allows {start pos limit stop : Nat} (hpos : text.isBoundary pos)
    (h : Longest (endsFrom a text goal [start] limit pos) none (some stop)) :
    text.isBoundary stop ∧ pos ≤ stop ∧ stop ≤ max pos limit := by
  have hbounded : BddAbove (endsFrom a text goal [start] limit pos) :=
    ⟨max pos limit, fun stop hstop => hstop.2.1⟩
  obtain ⟨⟨hle, hlimit, state, _, hreads⟩, _⟩ := ((h.result_iff hbounded).1 stop).1 rfl
  exact ⟨hreads.isBoundary hpos, hle, hlimit⟩

/-- Between boundaries every run has an answer, and what is found lies between them. -/
def Reliable (d : Dfa) : Prop :=
  ∀ (text : Subject) (pos limit : Nat), text.isBoundary pos → text.isBoundary limit →
    ∃ result, d.runBounded text pos limit = .ok result ∧
      ∀ stop, result = some stop → text.isBoundary stop ∧ pos ≤ stop ∧ stop ≤ max pos limit

theorem reliable_ofPart (a : Automaton) (start : Nat) {goal : Nat} (hgoal : goal < a.states.size) :
    (ofPart a start goal).Reliable := by
  intro text pos limit hpos hlimit
  obtain ⟨result, hresult, hlongest⟩ := longest_runBounded a text start hgoal hpos hlimit
  refine ⟨result, hresult, fun stop hstop => ?_⟩
  subst hstop
  exact hlongest.allows hpos

/-- The deterministic automaton of a part finds the greatest end of the paths
through the part that do not go beyond the limit, and nothing just if there is
no such path. -/
theorem runBounded_ofPart (a : Automaton) (text : Subject) (start : Nat) {goal pos limit : Nat}
    (hgoal : goal < a.states.size) (hpos : text.isBoundary pos) (hlimit : text.isBoundary limit) :
    ∃ result, (ofPart a start goal).runBounded text pos limit = .ok result ∧
      (∀ stop, result = some stop ↔
        IsGreatest {stop | pos ≤ stop ∧ stop ≤ max pos limit ∧
          a.Reads text goal start pos stop} stop) ∧
      (result = none ↔ ∀ stop, pos ≤ stop → stop ≤ max pos limit →
        ¬a.Reads text goal start pos stop) := by
  obtain ⟨keys, hcomplete, hroots⟩ := complete_ofPart a start goal
  have hlongest := longest_scan hcomplete hgoal hlimit _ pos none _ (hroots (.before text pos))
  have hends : {stop | pos ≤ stop ∧ stop ≤ max pos limit ∧ a.Reads text goal start pos stop} =
      endsFrom a text goal [start] limit pos := by
    simp [endsFrom]
  have hbounded : BddAbove (endsFrom a text goal [start] limit pos) :=
    ⟨max pos limit, fun stop hstop => hstop.2.1⟩
  obtain ⟨hsome, hnone⟩ := hlongest.result_iff hbounded
  refine ⟨_, by simp [runBounded, Subject.checkBoundary, hpos]; rfl, ?_, ?_⟩
  · rw [hends]
    exact hsome
  · rw [hnone, ← hends, Set.eq_empty_iff_forall_notMem]
    simp

/-- A loop over word characters that ends at a boundary of words. -/
def wordThenBoundary : Automaton where
  states := #[
    { transition := some ⟨.oneOf .word, 1⟩ },
    { transition := some ⟨.look .wordBoundary, 2⟩, epsilons := [0] },
    { accepting := true }]
  fragments := #[]
  dfas := #[]
  regions := []
  slotCount := 1
  groups := #[0]
  names := []
  loopCount := 0
  start := 0
  accept := 2
  entry := 0

theorem runBounded_ofPart_wordThenBoundary :
    2 < wordThenBoundary.states.size ∧
      (Subject.ofList ['a', 'b', ' ']).isBoundary 0 ∧
        (Subject.ofList ['a', 'b', ' ']).isBoundary 2 ∧
      ∃ result, (ofPart wordThenBoundary 0 2).runBounded (.ofList ['a', 'b', ' ']) 0 2 =
        .ok result ∧
        (∀ stop, result = some stop ↔
          IsGreatest {stop | 0 ≤ stop ∧ stop ≤ max 0 2 ∧
            wordThenBoundary.Reads (.ofList ['a', 'b', ' ']) 2 0 0 stop} stop) ∧
        (result = none ↔ ∀ stop, 0 ≤ stop → stop ≤ max 0 2 →
          ¬wordThenBoundary.Reads (.ofList ['a', 'b', ' ']) 2 0 0 stop) :=
  ⟨by decide, by decide, by decide, runBounded_ofPart wordThenBoundary (.ofList ['a', 'b', ' ']) 0
    (by decide) (by decide) (by decide)⟩

end RegexEngine.Dfa
