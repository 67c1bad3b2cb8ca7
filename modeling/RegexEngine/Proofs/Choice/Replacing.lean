import RegexEngine.Proofs.Choice.Longest
import RegexEngine.Proofs.Dfa.Exact
import RegexEngine.Proofs.Priority

/-!
# What may run on a deterministic automaton

A deterministic automaton finds the longest path through a region.  Where the next character
settles every choice this is what a search takes, so the search may leave the region to it.

* `Automaton.Replaces` says that a deterministic automaton stands for a region.
* `captureReplaced` says it of the body of a capture, and `exists_result_of_accepting` of a part
  that ends in an accepting state, such as a fragment.
-/

namespace RegexEngine

open Automaton

/-- A deterministic automaton finds the longest path through a region in which the next
character settles every choice. -/
structure Automaton.Replaces (a : Automaton) (c : Chart) (dfa : Dfa) (start goal : Nat) : Prop where
  /-- The next character settles every choice. -/
  deterministic : a.isDeterministic start goal
  /-- The first state exists. -/
  start_lt : start < a.states.size
  /-- The region lies in one fragment, inside the same loops. -/
  beside : c.Beside start goal
  /-- The longest path is found. -/
  longest : ∀ (text : Subject) (pos limit : Nat), text.isBoundary pos → text.isBoundary limit →
    ∃ result, dfa.runBounded text pos limit = .ok result ∧
      Dfa.Longest (Dfa.endsFrom a text goal [start] limit pos) none result

section

variable {a : Automaton} {c : Chart} {dfa : Dfa} {start goal : Nat} {t : Setting}

/-- The states of a part are a region, if the choices between its start and its goal are
settled. -/
theorem exists_foreseen (hc : a.HasChart c) (h : a.isDeterministic start goal)
    (hstart : start < a.states.size) {inside : Nat → Prop} {lo : Nat}
    (hterritory : a.Territory inside (· = goal) lo) (hfirst : inside start ∨ start = goal) :
    ∃ region : Nat → Prop, a.Foreseen goal region ∧ region start ∧
      ∀ id, region id → id ≠ goal → inside id := by
  have hmem {id : Nat} : id ∈ reachable a.states.size (a.successors goal) [start] ↔
      id < a.states.size ∧
        Relation.ReflTransGen (StepBelow a.states.size (a.successors goal)) start id := by
    simp [mem_reachable_iff]
  have hsettled {id : Nat} (hid : id ∈ reachable a.states.size (a.successors goal) [start])
      (hgoal : id ≠ goal) : a.isSettled goal id := by
    have hall := List.all_eq_true.1 h id hid
    simpa [hgoal] using hall
  refine ⟨fun id => id ∈ reachable a.states.size (a.successors goal) [start] ∧
    (inside id ∨ id = goal),
    ⟨fun id hid hgoal => ?_, fun id s target hid hgoal hstate htarget => ?_⟩,
    ⟨hmem.2 ⟨hstart, .refl⟩, hfirst⟩, fun id hid hgoal => hid.2.resolve_right hgoal⟩
  · obtain ⟨hreachable, hin⟩ := hid
    have hsettled := hsettled hreachable hgoal
    unfold isSettled at hsettled
    cases hstate : a.states[id]? with
    | none => simp [hstate] at hsettled
    | some s =>
      simp only [hstate, Bool.and_eq_true, Bool.not_eq_true'] at hsettled
      obtain ⟨⟨hlazy, hplain⟩, hways⟩ := hsettled
      exact ⟨s, rfl, hlazy, hterritory.accepting id s (hin.resolve_right hgoal) hstate, hplain,
        (pairwise_of_settled hways).1⟩
  · obtain ⟨hreachable, hin⟩ := hid
    obtain ⟨hlt, hpath⟩ := hmem.1 hreachable
    have hplain : s.action.isPlain := by
      have hsettled := hsettled hreachable hgoal
      simp only [isSettled, hstate, Bool.and_eq_true] at hsettled
      exact hsettled.1.2
    have hsuccessor : target ∈ a.successors goal id := by
      simp only [successors, if_neg hgoal, hstate, List.mem_append, Option.mem_toList,
        Option.map_eq_some_iff]
      refine htarget.imp_left fun ⟨guard, htransition⟩ => ?_
      exact ⟨_, htransition, rfl⟩
    have htargets : target ∈ s.targets := by
      rcases htarget with ⟨guard, htransition⟩ | htarget
      · simp [State.targets, htransition]
      · simp [State.targets, htarget]
    have hexists : target < a.states.size := (hc.holds.states id s hstate).target_lt htargets
    exact ⟨hmem.2 ⟨hexists, hpath.tail ⟨hlt, hsuccessor⟩⟩,
      hterritory.closed id s (hin.resolve_right hgoal) hstate hplain target htarget⟩

/-- What is yielded is what follows the path that the deterministic automaton finds. -/
theorem eq_of_judged {follow : Nat → Verdict} {ends : Set Nat} {v : Verdict} {result : Option Nat}
    (hjudged : Judged follow ends v) (hlongest : Dfa.Longest ends none result)
    (hbounded : BddAbove ends) :
    v = result.elim .failure follow := by
  obtain ⟨hsome, hnone⟩ := hlongest.result_iff hbounded
  cases result with
  | none => exact hjudged.empty (hnone.1 rfl)
  | some stop => exact hjudged.greatest stop ((hsome stop).1 rfl)

/-- A deterministic automaton that stands for a region gives what a search yields. -/
theorem exists_result (h : t.automaton.Replaces c dfa start goal) (hc : t.automaton.HasChart c)
    (hdecided : t.Decided) (hwindow : t.window.Sensible t.text) {inside : Nat → Prop} {lo : Nat}
    (hterritory : t.automaton.Territory inside (· = goal) lo) (hfirst : inside start ∨ start = goal)
    {its : Iterations} (hlo : ∀ loop start, its loop = some start → loop < lo) {n pos : Nat}
    (hbegan : ∀ loop start, its loop = some start → start ≤ pos) {slots : Slots} {v : Verdict}
    {follow : Nat → Verdict} (hpos : t.Allows pos) (hyields : Yields t n its start pos slots v)
    (hfollows : ∀ stop, t.Allows stop → pos ≤ stop →
      ∃ n, Yields t n its goal stop slots (follow stop)) :
    ∃ result, dfa.runBounded t.text pos t.window.limit = .ok result ∧
      (∀ stop, result = some stop → t.Allows stop ∧ pos ≤ stop) ∧
      v = match result with
        | none => .failure
        | some stop => follow stop := by
  obtain ⟨region, hforeseen, hstart, hinside⟩ :=
    exists_foreseen hc h.deterministic h.start_lt hterritory hfirst
  have hpassage : Passage t c goal region its slots follow pos :=
    { foreseen := hforeseen
      hasChart := hc
      decided := hdecided
      window := hwindow
      follows := hfollows
      began := hbegan
      loopBack := fun id s loop start hid hgoal hstate hback hopen => by
        have := hterritory.loopBack id s loop (hinside id hid hgoal) hstate hback
        have := hlo loop start hopen
        omega }
  have haround := h.beside.around_eq
  have hinner : Inner t.automaton c goal its its start pos :=
    { around_subset := haround.subset
      same := fun _ _ => rfl
      closed := fun loop hloop hout => absurd (haround ▸ hloop) hout
      idle := fun loop hloop hout => absurd (haround ▸ hloop) hout
      began := hbegan }
  have hjudged := hpassage.judged_of_yields hyields hstart hinner hpos (Nat.le_refl pos)
  obtain ⟨result, hresult, hlongest⟩ :=
    h.longest t.text pos t.window.limit hpos.boundary hwindow.limit
  have hends : Dfa.endsFrom t.automaton t.text goal [start] t.window.limit pos =
      t.ends goal start pos := by
    have hmax := Nat.max_eq_right hpos.le_limit
    ext stop
    simp only [Dfa.endsFrom, Setting.ends, hmax, List.mem_singleton, exists_eq_left,
      Set.mem_ofPred_eq]
    exact ⟨fun hstop => hstop.2, fun hstop => ⟨hstop.2.le, hstop⟩⟩
  refine ⟨result, hresult, fun stop hstop => ?_, ?_⟩
  · subst hstop
    obtain ⟨hboundary, hle, hmax⟩ := hlongest.allows hpos.boundary
    rw [Nat.max_eq_right hpos.le_limit] at hmax
    exact ⟨⟨hboundary, hmax⟩, hle⟩
  · rw [hends] at hlongest
    rw [eq_of_judged hjudged hlongest ⟨t.window.limit, fun stop hstop => hstop.1⟩]
    cases result <;> rfl

/-- The body of a capture may run on a deterministic automaton that stands for it. -/
theorem captureReplaced {body close : Nat} (h : t.automaton.Replaces c dfa body close)
    (hc : t.automaton.HasChart c) (hdecided : t.Decided) (hwindow : t.window.Sensible t.text) :
    CaptureReplaced t dfa body close := by
  intro n its pos slots v closes hpos hencloses hyields hcloses
  obtain ⟨inside, lo, hterritory, hfirst, hlo⟩ := hencloses.territory
  exact exists_result h hc hdecided hwindow hterritory hfirst hlo hencloses.began hpos hyields
    fun stop hstop hle => ⟨n, hcloses stop hstop hle⟩

/-- A part that ends in an accepting state may run on a deterministic automaton. -/
theorem exists_result_of_accepting (h : t.automaton.Replaces c dfa start goal)
    (hc : t.automaton.HasChart c) (hdecided : t.Decided) (hwindow : t.window.Sensible t.text)
    {inside : Nat → Prop} {lo : Nat} (hterritory : t.automaton.Territory inside (· = goal) lo)
    (hfirst : inside start ∨ start = goal)
    (haccept : t.automaton.states[goal]? = some { accepting := true })
    (hinside : t.inside goal) {n pos : Nat} {slots : Slots} {v : Verdict} (hpos : t.Allows pos)
    (hyields : Yields t n .none start pos slots v) :
    ∃ result, dfa.runBounded t.text pos t.window.limit = .ok result ∧
      v = match result.filter t.window.mayEnd with
        | none => .failure
        | some stop => .success stop slots := by
  obtain ⟨result, hresult, -, hv⟩ := exists_result h hc hdecided hwindow hterritory hfirst
    (fun _ _ hopen => by cases hopen) (fun _ _ hopen => by cases hopen) hpos hyields
    (fun stop hstop _ => ⟨1, Yields.of_accepting hinside hstop haccept⟩)
  refine ⟨result, hresult, ?_⟩
  rw [hv]
  cases result with
  | none => rfl
  | some stop => cases hmay : t.window.mayEnd stop <;> simp [Option.filter, hmay]

end

end RegexEngine
