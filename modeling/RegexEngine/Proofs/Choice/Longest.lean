import RegexEngine.Proofs.Choice.Judged

/-!
# A search takes the longest path through a region

Where the next character settles every choice, a search from a state of a region yields what
follows the longest path from there to the goal.  Iterations that are open inside of the
region are closed before the goal is reached, so what follows does not depend on the path.

* `Passage` is what is known of the region, and `Inner` of the open iterations in it.
* `judged_of_yields` is the induction over the states on a way.
-/

namespace RegexEngine

open Automaton Relation

/-- The ends of the paths from a state to a goal, as far as the limit allows. -/
def Setting.ends (t : Setting) (goal id pos : Nat) : Set Nat :=
  {stop | stop ≤ t.window.limit ∧ t.automaton.Reads t.text goal id pos stop}

/-- The ends of the paths that begin with one of the ways out of a state. -/
def Setting.wayEnds (t : Setting) (goal : Nat) (s : State) (pos : Nat) : Way → Set Nat
  | .step =>
    match s.transition with
    | some ⟨.oneOf set, target⟩ =>
      {stop | ∃ mid ∈ t.spelled [set.test] pos, stop ∈ t.ends goal target mid}
    | some ⟨.look look, target⟩ => {stop | look.holdsAt t.text pos ∧ stop ∈ t.ends goal target pos}
    | none => ∅
  | .accept => ∅
  | .epsilon target _ => t.ends goal target pos

/-- What is seen on one of the ways out of a state. -/
def Automaton.waySees (a : Automaton) (goal : Nat) (s : State) : Way → Option Char → Prop
  | .step, next =>
    match s.transition with
    | some ⟨.oneOf set, _⟩ => ∃ ch, next = some ch ∧ set.test ch
    | some ⟨.look _, target⟩ => a.Sees goal false target next
    | none => False
  | .accept, _ => False
  | .epsilon target _, next => a.Sees goal false target next

/-- What is known of a region and of what lies behind it. -/
structure Passage (t : Setting) (c : Chart) (goal : Nat) (inside : Nat → Prop) (outer : Iterations)
    (slots : Slots) (follow : Nat → Verdict) (first : Nat) : Prop where
  /-- The next character settles every choice in it. -/
  foreseen : t.automaton.Foreseen goal inside
  /-- The automaton has a chart. -/
  hasChart : t.automaton.HasChart c
  /-- Fragments have one verdict each. -/
  decided : t.Decided
  /-- The window is sensible. -/
  window : t.window.Sensible t.text
  /-- Behind it the search goes on in the same way, wherever the path ends. -/
  follows : ∀ stop, t.Allows stop → first ≤ stop →
    ∃ n, Yields t n outer goal stop slots (follow stop)
  /-- Iterations that are open around it began before. -/
  began : ∀ loop start, outer loop = some start → start ≤ first
  /-- They do not end inside. -/
  loopBack : ∀ id s loop start, inside id → id ≠ goal → t.automaton.states[id]? = some s →
    s.loopBack = some loop → outer loop ≠ some start

/-- The iterations that are open inside of a region, and those that are open around it. -/
structure Inner (a : Automaton) (c : Chart) (goal : Nat) (outer its : Iterations) (id pos : Nat) :
    Prop where
  /-- The loops around the region are around the state. -/
  around_subset : c.around goal ⊆ c.around id
  /-- The iterations of the other loops are those that are open around the region. -/
  same : ∀ loop, loop ∉ c.around id ∨ loop ∈ c.around goal → its loop = outer loop
  /-- The loops of the region are closed around it. -/
  closed : ∀ loop ∈ c.around id, loop ∉ c.around goal → outer loop = none
  /-- An iteration that has consumed nothing is a path without consuming anything. -/
  idle : ∀ loop ∈ c.around id, loop ∉ c.around goal → its loop = some pos →
    ReflTransGen (a.Free goal) (c.head loop) id
  /-- Iterations began here or before. -/
  began : ∀ loop start, its loop = some start → start ≤ pos

section

variable {t : Setting} {c : Chart} {goal id target pos stop first : Nat} {inside : Nat → Prop}
  {outer its : Iterations} {slots : Slots} {follow : Nat → Verdict} {s : State}

/-! ## The ways out of a state -/

/-- The ends of the paths from a state are those of its ways. -/
theorem ends_eq_wayEnds (hgoal : id ≠ goal) (hstate : t.automaton.states[id]? = some s)
    (mayEnd : Bool) :
    t.ends goal id pos = {stop | ∃ way ∈ s.ways mayEnd, stop ∈ t.wayEnds goal s pos way} := by
  have hepsilon {target : Nat} (htarget : target ∈ s.epsilons) :
      ∃ loop, .epsilon target loop ∈ s.ways mayEnd :=
    ⟨_, epsilon_mem_ways.2 (List.mem_map_of_mem htarget)⟩
  have hstep {transition : Transition} (h : s.transition = some transition) :
      .step ∈ s.ways mayEnd :=
    step_mem_ways.2 (by simp [h])
  ext stop
  constructor
  · rintro ⟨hlimit, hreads⟩
    cases hreads with
    | goal => exact absurd rfl hgoal
    | epsilon _ hstate' htarget hrest =>
      obtain rfl := Option.some.inj (hstate.symm.trans hstate')
      obtain ⟨loop, hmem⟩ := hepsilon htarget
      exact ⟨_, hmem, hlimit, hrest⟩
    | look _ hstate' htransition hlook hrest =>
      obtain rfl := Option.some.inj (hstate.symm.trans hstate')
      refine ⟨.step, hstep htransition, ?_⟩
      simp only [Setting.wayEnds, htransition]
      exact ⟨hlook, hlimit, hrest⟩
    | @char _ _ _ _ _ set ch _ hstate' htransition hchar htest hrest =>
      obtain rfl := Option.some.inj (hstate.symm.trans hstate')
      refine ⟨.step, hstep htransition, ?_⟩
      have hle := hrest.le
      have hsize := ch.utf8Size_pos
      have hnext : t.next? pos = some ch := by
        unfold Setting.next?
        rw [if_neg (by omega), hchar]
      simp only [Setting.wayEnds, htransition]
      exact ⟨_, Setting.spelled_cons_eq_some_iff.2 ⟨ch, hnext, htest, rfl⟩, hlimit, hrest⟩
  · rintro ⟨way, hway, hstop⟩
    cases way with
    | accept => exact hstop.elim
    | epsilon target loop =>
      obtain ⟨htarget, -⟩ := mem_epsilons_of_mem_ways hway
      exact ⟨hstop.1, .epsilon hgoal hstate htarget hstop.2⟩
    | step =>
      match htransition : s.transition with
      | none =>
        simp only [Setting.wayEnds, htransition] at hstop
        exact hstop.elim
      | some ⟨.look look, target⟩ =>
        simp only [Setting.wayEnds, htransition] at hstop
        exact ⟨hstop.2.1, .look hgoal hstate htransition hstop.1 hstop.2.2⟩
      | some ⟨.oneOf set, target⟩ =>
        simp only [Setting.wayEnds, htransition] at hstop
        obtain ⟨mid, hmid, hlimit, hrest⟩ := hstop
        obtain ⟨ch, hnext, htest, hmid⟩ := Setting.spelled_cons_eq_some_iff.1 hmid
        cases hmid
        exact ⟨hlimit, .char hgoal hstate htransition (Setting.charAt?_of_next? hnext).2
          htest hrest⟩

/-- The ways out of a state of a region are settled. -/
theorem Automaton.Foreseen.pairwise_waySees {a : Automaton} (h : a.Foreseen goal inside)
    (hid : inside id) (hgoal : id ≠ goal) (hstate : a.states[id]? = some s) (mayEnd : Bool) :
    (s.ways mayEnd).Pairwise fun way other => ¬a.waySees goal s way none ∧
      ∀ ch, ¬(a.waySees goal s way (some ch) ∧ a.waySees goal s other (some ch)) := by
  have hpairwise := List.pairwise_append.1 (h.pairwise_ways hid hgoal hstate)
  obtain ⟨s', hstate', hlazy, haccepting, -, -⟩ := h.settled id hid hgoal
  obtain rfl := Option.some.inj (hstate'.symm.trans hstate)
  have hways : s'.ways mayEnd =
      (if s'.transition.isSome || s'.action != .none then [Way.step] else []) ++
          s'.epsilonWays := by
    simp [State.ways, hlazy, haccepting]
  have happart {target : Nat} {o : Outlook} (h : o.Apart (a.outlook goal target)) :
      o.canEnd = false ∧ ∀ ch, ¬(o.chars.test ch ∧ a.Sees goal false target (some ch)) :=
    ⟨h.1, fun ch hboth => h.2 ch ⟨hboth.1, admits_outlook.2 hboth.2⟩⟩
  have hnone {target : Nat} (h : (a.outlook goal target).canEnd = false) :
      ¬a.Sees goal false target none :=
    fun hsees => by
      have hadmits : (a.outlook goal target).canEnd = true := admits_outlook.2 hsees
      rw [h] at hadmits
      cases hadmits
  rw [hways]
  refine List.pairwise_append.2 ⟨?_, ?_, fun way hway other hother => ?_⟩
  · split
    · exact List.pairwise_singleton _ _
    · exact .nil
  · refine List.pairwise_map.2 ((List.pairwise_map.1 hpairwise.2.1).imp fun {x y} hxy => ?_)
    exact ⟨hnone hxy.1, fun ch hboth => hxy.not_both (admits_outlook.2 hboth.1)
      (admits_outlook.2 hboth.2)⟩
  · obtain ⟨target, htarget, rfl⟩ := List.mem_map.1 hother
    obtain rfl : way = .step := by
      split at hway
      · exact List.mem_singleton.1 hway
      · cases hway
    rcases htransition : s'.transition with _ | ⟨set | look, mid⟩
    · simp [Automaton.waySees, htransition]
    · have hcross :=
        hpairwise.2.2 ⟨set, false⟩ (by simp [htransition]) _ (List.mem_map_of_mem htarget)
      refine ⟨by simp [Automaton.waySees, htransition], fun ch hboth => (happart hcross).2 ch ?_⟩
      simpa [Automaton.waySees, htransition] using hboth
    · have hcross := hpairwise.2.2 (a.outlook goal mid) (by simp [htransition]) _
        (List.mem_map_of_mem htarget)
      simp only [Automaton.waySees, htransition]
      exact ⟨hnone hcross.1, fun ch hboth =>
        hcross.not_both (admits_outlook.2 hboth.1) (admits_outlook.2 hboth.2)⟩

/-! ## Open iterations -/

namespace Inner

variable (h : Inner t.automaton c goal outer its id pos)

include h

/-- At the goal only the iterations around the region are open. -/
theorem eq_outer (hid : id = goal) : its = outer := by
  subst hid
  funext loop
  exact h.same loop (or_not.symm.imp_right fun hmem => hmem)

/-- A state that is no end of an iteration and leads to one inside the same loops. -/
theorem leads (hleads : c.Beside id target) (hle : pos ≤ stop)
    (hfree : stop = pos → t.automaton.Free goal id target) :
    Inner t.automaton c goal outer its target stop where
  around_subset := hleads.around_eq ▸ h.around_subset
  same loop hloop := h.same loop (hleads.around_eq ▸ hloop)
  closed loop hloop := h.closed loop (hleads.around_eq ▸ hloop)
  idle loop hloop hnew hopen := by
    obtain rfl : stop = pos := le_antisymm (h.began loop stop hopen) hle
    exact (h.idle loop (hleads.around_eq ▸ hloop) hnew hopen).tail (hfree rfl)
  began loop start hopen := (h.began loop start hopen).trans hle

/-- The head of a loop opens an iteration. -/
theorem enter {loop : Nat} (hhead : c.head loop = id) (hnew : loop ∉ c.around id)
    (haround : c.around target = insert loop (c.around id)) (hclosed : its loop = none)
    (hfree : t.automaton.Free goal id target) :
    Inner t.automaton c goal outer (its.set loop (some pos)) target pos where
  around_subset := by
    rw [haround]
    exact h.around_subset.trans (Finset.subset_insert _ _)
  same loop' hloop' := by
    rw [haround] at hloop'
    have hne : loop' ≠ loop := by
      rintro rfl
      rcases hloop' with hloop' | hloop'
      · exact hloop' (Finset.mem_insert_self _ _)
      · exact hnew (h.around_subset hloop')
    rw [Iterations.set_ne hne]
    exact h.same loop' (hloop'.imp_left fun hnot hmem => hnot (Finset.mem_insert_of_mem hmem))
  closed loop' hloop' hout := by
    rw [haround] at hloop'
    rcases Finset.mem_insert.1 hloop' with rfl | hloop'
    · rw [← h.same loop' (.inl hnew), hclosed]
    · exact h.closed loop' hloop' hout
  idle loop' hloop' hout hopen := by
    rw [haround] at hloop'
    by_cases heq : loop' = loop
    · subst heq
      rw [hhead]
      exact .single hfree
    · rw [Iterations.set_ne heq] at hopen
      have hmem := (Finset.mem_insert.1 hloop').resolve_left heq
      exact (h.idle loop' hmem hout hopen).tail hfree
  began loop' start hopen := by
    by_cases heq : loop' = loop
    · subst heq
      rw [Iterations.set_self] at hopen
      exact (Option.some.inj hopen).ge
    · rw [Iterations.set_ne heq] at hopen
      exact h.began loop' start hopen

/-- The end of an iteration closes it. -/
theorem back {loop : Nat} (hnew : loop ∉ c.around (c.head loop))
    (haround : c.around id = insert loop (c.around (c.head loop))) (hout : loop ∉ c.around goal)
    (hfree : t.automaton.Free goal id (c.head loop)) :
    Inner t.automaton c goal outer (its.set loop none) (c.head loop) pos where
  around_subset loop' hloop' := by
    have hmem := h.around_subset hloop'
    rw [haround] at hmem
    refine (Finset.mem_insert.1 hmem).resolve_left ?_
    rintro rfl
    exact hout hloop'
  same loop' hloop' := by
    by_cases heq : loop' = loop
    · subst heq
      rw [Iterations.set_self]
      exact (h.closed loop' (haround ▸ Finset.mem_insert_self _ _) hout).symm
    · rw [Iterations.set_ne heq]
      refine h.same loop' (hloop'.imp_left fun hnot hmem => hnot ?_)
      rw [haround] at hmem
      exact (Finset.mem_insert.1 hmem).resolve_left heq
  closed loop' hloop' hout' := h.closed loop' (haround ▸ Finset.mem_insert_of_mem hloop') hout'
  idle loop' hloop' hout' hopen := by
    have hne : loop' ≠ loop := fun heq => hnew (heq ▸ hloop')
    rw [Iterations.set_ne hne] at hopen
    exact (h.idle loop' (haround ▸ Finset.mem_insert_of_mem hloop') hout' hopen).tail hfree
  began loop' start hopen := by
    by_cases heq : loop' = loop
    · simp [heq] at hopen
    · rw [Iterations.set_ne heq] at hopen
      exact h.began loop' start hopen

end Inner

/-! ## Paths -/

namespace Passage

variable (h : Passage t c goal inside outer slots follow first)

include h

/-- Where the search goes on behind the goal, this has been foreseen. -/
theorem goes (hpos : t.Allows pos) (hle : first ≤ pos) (hne : follow pos ≠ .failure) :
    (∀ next, t.automaton.Sees goal false goal next) ∨
      (∃ ch, t.next? pos = some ch ∧ t.automaton.Sees goal false goal (some ch)) ∨
      t.automaton.Sees goal false goal none ∧
        ∀ stop, pos < stop → t.Allows stop → follow stop ≠ .failure := by
  obtain ⟨n, hyields⟩ := h.follows pos hpos hle
  have hgoal {next : Option Char} (hsees : t.automaton.Sees goal true goal next) :
      t.automaton.Sees goal false goal next := by
    cases hsees with
    | here hstate hshows => exact .here hstate (by simpa using hshows)
    | behind hstate hopen htarget hrest =>
      exact .behind hstate (by simpa using hopen) (by simpa using htarget) (by simpa using hrest)
  have hgoes : Goes t goal _ _ _ := goes_of_yields h.hasChart h.window hyields hne
  rcases hgoes with hall | ⟨ch, hch, hsees⟩ | ⟨hsees, hcarries⟩
  · exact .inl fun next => hgoal (hall next)
  · exact .inr (.inl ⟨ch, hch, hgoal hsees⟩)
  · refine .inr (.inr ⟨hgoal hsees, fun stop hlt hstop => ?_⟩)
    obtain ⟨n', hyields'⟩ := h.follows stop hstop (by omega)
    refine hcarries n' outer stop slots _ hlt hstop (fun loop hopen => ?_) hyields'
    have := h.began loop stop hopen
    omega

/-- The paths from a state begin with what is seen from it. -/
theorem offers (hid : inside id) (hpos : t.Allows pos) (hle : first ≤ pos) {v : Verdict}
    (hjudged : Judged follow (t.ends goal id pos) v) :
    Offers t follow pos (t.automaton.Sees goal false id) (t.ends goal id pos) v where
  judged := hjudged
  reached stop hstop := ⟨hstop.2.le, hstop.2.isBoundary hpos.boundary, hstop.1⟩
  reads stop hstop hlt := by
    obtain ⟨ch, hch, hsees⟩ := h.foreseen.sees_of_reads hid hstop.2 hlt
    refine ⟨ch, ?_, hsees⟩
    have := hstop.1
    unfold Setting.next?
    rw [if_neg (by omega), hch]
  stays hmem hne := by
    have hpath := Foreseen.free_of_reads hmem.2 rfl
    have hbehind {next : Option Char} (hsees : t.automaton.Sees goal false goal next) :
        t.automaton.Sees goal false id next := h.foreseen.sees_of_path hid hpath hsees
    rcases h.goes hpos hle hne with hall | ⟨ch, hch, hsees⟩ | ⟨hsees, hcarries⟩
    · exact .inl fun next => hbehind (hall next)
    · exact .inr (.inl ⟨ch, hch, hbehind hsees⟩)
    · exact .inr (.inr ⟨hbehind hsees, hcarries⟩)

/-- Behind an iteration that has consumed nothing there is only a path that leads nowhere. -/
theorem judged_of_cycle (hid : inside id) (hpos : t.Allows pos) (hle : first ≤ pos)
    (hcycle : TransGen (t.automaton.Free goal) id id) :
      Judged follow (t.ends goal id pos) .failure where
  empty _ := rfl
  greatest stop hstop := by
    have hnot (next : Option Char) : ¬t.automaton.Sees goal false id next :=
      h.foreseen.not_sees_of_cycle hid hcycle
    have hreads := hstop.1.2
    obtain rfl : stop = pos := by
      by_contra hne
      have := hreads.le
      obtain ⟨ch, -, hsees⟩ := h.foreseen.sees_of_reads hid hreads (by omega)
      exact hnot _ hsees
    by_contra hne
    have hpath := Foreseen.free_of_reads hreads rfl
    rcases h.goes hpos hle (Ne.symm hne) with hall | ⟨ch, hch, hsees⟩ | ⟨hsees, -⟩
    · exact hnot none (h.foreseen.sees_of_path hid hpath (hall none))
    · exact hnot _ (h.foreseen.sees_of_path hid hpath hsees)
    · exact hnot _ (h.foreseen.sees_of_path hid hpath hsees)

/-- A way along an epsilon leads into the region, with the iterations that are open then. -/
theorem inner_of_epsilon (hid : inside id) (hgoal : id ≠ goal)
    (hstate : t.automaton.states[id]? = some s)
    (hinner : Inner t.automaton c goal outer its id pos) {mayEnd : Bool} {loop : Option Nat}
    (hway : .epsilon target loop ∈ s.ways mayEnd)
    (hclosed : ∀ loop', loop = some loop' → its.passing s loop' = none)
    (hback : ∀ loop, s.loopBack = some loop → ∃ start, its loop = some start) :
    inside target ∧ Inner t.automaton c goal outer
      (loop.elim (its.passing s) fun loop => (its.passing s).set loop (some pos)) target pos := by
  obtain ⟨htarget, hloop⟩ := mem_epsilons_of_mem_ways hway
  have hfree : t.automaton.Free goal id target := ⟨hgoal, s, hstate, .inl htarget⟩
  refine ⟨h.foreseen.inside_of_free hid hfree, ?_⟩
  cases h.hasChart.holds.states id s hstate with
  | ordinary hhead hnone _ hleads =>
    rw [hhead, ite_self] at hloop
    subst hloop
    rw [Option.elim_none, Iterations.passing_of_none hnone]
    exact hinner.leads (hleads target (by simp [State.targets, htarget])).2.toBeside (Nat.le_refl _)
      fun _ => hfree
  | @head enter exit loop' lazy hs _ _ _ hhead hexits _ _ hnew haround =>
    subst hs
    have hnone : its.passing { epsilons := [enter, exit], lazy, loopHead := some loop' } = its :=
      rfl
    rw [hnone] at hclosed ⊢
    by_cases heq : target = enter
    · subst heq
      obtain rfl : loop = some loop' := by simpa using hloop
      exact hinner.enter hhead hnew haround (hclosed loop' rfl) hfree
    · obtain rfl : target = exit := by simpa [heq] using htarget
      obtain rfl : loop = none := by simpa [Ne.symm heq] using hloop
      exact hinner.leads hexits.toBeside (Nat.le_refl _) fun _ => hfree
  | @back loop' hs _ _ _ hnew haround =>
    subst hs
    obtain rfl : target = c.head loop' := by simpa using htarget
    obtain rfl : loop = none := by simpa using hloop
    obtain ⟨start, hstart⟩ := hback loop' rfl
    refine hinner.back hnew haround (fun hout => ?_) hfree
    rw [hinner.same loop' (.inr hout)] at hstart
    exact h.loopBack id _ loop' start hid hgoal hstate rfl hstart

/-- A transition leads into the region, with the same open iterations. -/
theorem inner_of_transition (hid : inside id) (hgoal : id ≠ goal)
    (hstate : t.automaton.states[id]? = some s) (hinner : Inner t.automaton c goal outer its id pos)
    {guard : Guard} (htransition : s.transition = some ⟨guard, target⟩) (hle : pos ≤ stop)
    (hfree : stop = pos → t.automaton.Free goal id target) :
    inside target ∧ Inner t.automaton c goal outer (its.passing s) target stop := by
  refine ⟨h.foreseen.closed id s target hid hgoal hstate (.inl ⟨guard, htransition⟩), ?_⟩
  cases h.hasChart.holds.states id s hstate with
  | ordinary _ hnone _ hleads =>
    rw [Iterations.passing_of_none hnone]
    exact hinner.leads (hleads target (by simp [State.targets, htransition])).2.toBeside hle hfree
  | head hs => simp [hs] at htransition
  | back hs => simp [hs] at htransition

omit h in
/-- At the goal what follows is what is yielded. -/
theorem judged_at_goal {v : Verdict} (hpos : t.Allows pos) (hv : v = follow pos) :
    Judged follow (t.ends goal goal pos) v where
  greatest stop hstop := by
    have hreads := hstop.1.2
    cases hreads with
    | goal => exact hv
    | epsilon hne => exact absurd rfl hne
    | look hne => exact absurd rfl hne
    | char hne => exact absurd rfl hne
  empty hempty := by
    have hmem : pos ∈ t.ends goal goal pos := ⟨hpos.le_limit, .goal pos⟩
    rw [hempty] at hmem
    exact hmem.elim

/-- Where an iteration has consumed nothing, nothing is what follows the longest path. -/
theorem judged_of_idle {loop : Nat} (hid : inside id) (hgoal : id ≠ goal)
    (hstate : t.automaton.states[id]? = some s) (hback : s.loopBack = some loop)
    (hopen : its loop = some pos)
    (hinner : Inner t.automaton c goal outer its id pos) (hpos : t.Allows pos) (hle : first ≤ pos) :
    Judged follow (t.ends goal id pos) .failure := by
  have hout : loop ∉ c.around goal := fun hout =>
    h.loopBack id s loop pos hid hgoal hstate hback
      ((hinner.same loop (.inr hout)).symm.trans hopen)
  cases h.hasChart.holds.states id s hstate with
  | ordinary _ hnone => simp [hnone] at hback
  | head hs => simp [hs] at hback
  | @back loop' hs _ _ _ _ haround =>
    obtain rfl : loop' = loop := by simpa [hs] using hback
    have hfree : t.automaton.Free goal id (c.head loop') := ⟨hgoal, s, hstate, .inl (by simp [hs])⟩
    have hpath := hinner.idle loop' (haround ▸ Finset.mem_insert_self _ _) hout hopen
    exact h.judged_of_cycle hid hpos hle (.head' hfree hpath)

/-- A transition offers the paths that begin with it. -/
theorem offers_step {landing : Landing} {v : Verdict} (hid : inside id) (hgoal : id ≠ goal)
    (hstate : t.automaton.states[id]? = some s) (hplain : s.action.isPlain)
    (hinner : Inner t.automaton c goal outer its id pos) (hpos : t.Allows pos) (hle : first ≤ pos)
    (hsteps : Steps t s pos slots landing) (hstuck : landing = .ok none → v = .failure)
    (hland : ∀ target stop, landing = .ok (some (target, stop, slots)) → inside target →
      Inner t.automaton c goal outer (its.passing s) target stop → t.Allows stop → first ≤ stop →
      Judged follow (t.ends goal target stop) v) :
    Offers t follow pos (t.automaton.waySees goal s .step) (t.wayEnds goal s pos .step) v := by
  rcases hsteps.of_plain hplain with
    ⟨set, target, htransition, rfl⟩ | ⟨look, target, htransition, rfl⟩
  · have hsees (ch : Char) (htest : set.test ch) : t.automaton.waySees goal s .step (some ch) := by
      simpa [Automaton.waySees, htransition] using htest
    simp only [Setting.wayEnds, htransition]
    cases hspelled : t.spelled [set.test] pos with
    | none =>
      rw [hstuck (by simp [hspelled])]
      simpa using offers_none _
    | some mid =>
      obtain ⟨ch, hnext, htest, hmid⟩ := Setting.spelled_cons_eq_some_iff.1 hspelled
      obtain ⟨hmidpos, hmidle⟩ := Setting.allows_of_spelled h.window.limit hpos hspelled
      have hlt : pos < mid := by
        have := ch.utf8Size_pos
        cases hmid
        omega
      obtain ⟨htarget, hinner'⟩ := h.inner_of_transition hid hgoal hstate hinner htransition hmidle
        fun heq => absurd heq (by omega)
      have hends : {stop | ∃ mid' ∈ some mid, stop ∈ t.ends goal target mid'} =
          t.ends goal target mid := by
        ext stop
        simp
      rw [hends]
      exact
        { judged := hland target mid (by simp [hspelled]) htarget hinner' hmidpos (by omega)
          reached := fun stop hstop =>
            ⟨hmidle.trans hstop.2.le, hstop.2.isBoundary hmidpos.boundary, hstop.1⟩
          reads := fun stop _ _ => ⟨ch, hnext, hsees ch htest⟩
          stays := fun hmem => absurd hmem.2.le (by omega) }
  · have hsees : t.automaton.waySees goal s .step = t.automaton.Sees goal false target := by
      funext next
      simp only [Automaton.waySees, htransition]
    simp only [Setting.wayEnds, htransition]
    rw [hsees]
    by_cases hlook : look.holdsAt t.text pos
    · obtain ⟨htarget, hinner'⟩ := h.inner_of_transition hid hgoal hstate hinner htransition
        (Nat.le_refl pos) fun _ => ⟨hgoal, s, hstate, .inr ⟨look, htransition⟩⟩
      have hends : {stop | look.holdsAt t.text pos ∧ stop ∈ t.ends goal target pos} =
          t.ends goal target pos := by
        ext stop
        simp [hlook]
      rw [hends]
      exact h.offers htarget hpos hle (hland target pos (by simp [hlook]) htarget hinner' hpos hle)
    · rw [hstuck (by simp [hlook])]
      simpa [hlook] using offers_none _

/-- What a state yields follows the longest path from there. -/
theorem judged_of_yields {n : Nat} {v : Verdict} (hyields : Yields t n its id pos slots v)
    (hid : inside id)
    (hinner : Inner t.automaton c goal outer its id pos) (hpos : t.Allows pos) (hle : first ≤ pos) :
    Judged follow (t.ends goal id pos) v := by
  induction n generalizing its id pos v with
  | zero => cases hyields
  | succ n ih =>
    by_cases hgoal : id = goal
    · obtain ⟨n', hfollows⟩ := h.follows pos hpos hle
      rw [hinner.eq_outer hgoal, hgoal] at hyields
      rw [hgoal]
      exact judged_at_goal hpos (hyields.unique h.decided hfollows)
    cases hyields with
    | idle hstate hback hopen => exact h.judged_of_idle hid hgoal hstate hback hopen hinner hpos hle
    | @ways _ _ _ s _ _ landing verdicts _ _ _ hstate hback _ hstep hstuck _ hland
        _ _ _ hepsilon henter hiteration =>
      obtain ⟨s', hstate', -, haccepting, hplain, -⟩ := h.foreseen.settled id hid hgoal
      obtain rfl := Option.some.inj (hstate.symm.trans hstate')
      have hopen (loop : Nat) (hloop : s.loopBack = some loop) : ∃ start, its loop = some start :=
        (hback loop hloop).imp fun _ h => h.1
      have hways : ∀ way ∈ s.ways (t.window.mayEnd pos), Offers t follow pos
          (t.automaton.waySees goal s way) (t.wayEnds goal s pos way) (verdicts way) := by
        intro way hway
        cases way with
        | accept =>
          rw [accept_mem_ways, haccepting] at hway
          exact absurd hway.1 Bool.false_ne_true
        | epsilon target loop =>
          cases loop with
          | none =>
            obtain ⟨htarget, hinner'⟩ := h.inner_of_epsilon hid hgoal hstate hinner hway
              (fun _ h => by cases h) hopen
            exact h.offers htarget hpos hle (ih (hepsilon target hway) htarget hinner' hpos hle)
          | some loop =>
            obtain ⟨htarget, hinner'⟩ := h.inner_of_epsilon hid hgoal hstate hinner hway
              (fun loop' hloop' => by cases hloop'; exact (henter target loop hway).2.2.1) hopen
            exact h.offers htarget hpos hle
              (ih (hiteration target loop hway) htarget hinner' hpos hle)
        | step =>
          exact h.offers_step hid hgoal hstate hplain hinner hpos hle (hstep hway) hstuck
            fun target stop hlanding htarget hinner' hstop hle' =>
              ih (hland target stop slots hway hlanding) htarget hinner' hstop hle'
      rw [ends_eq_wayEnds hgoal hstate (t.window.mayEnd pos)]
      exact (offers_firstOf hways
        (h.foreseen.pairwise_waySees hid hgoal hstate (t.window.mayEnd pos))).judged

end Passage

end

end RegexEngine
