import Mathlib.Order.Bounds.Basic
import RegexEngine.Proofs.Choice.Beyond

/-!
# The first match and the longest match

In a region where the next character settles every choice, what a search yields is what
follows the longest path through the region.

* `Judged` says that a verdict is what follows the longest of some ends.
* `Offers` adds what has been foreseen of a way, and `offers_firstOf` puts the ways out of a
  state together.
-/

namespace RegexEngine

open Automaton Relation

/-! ## Ways that are settled -/

/-- A verdict is what follows the greatest of the ends. -/
structure Judged (follow : Nat → Verdict) (ends : Set Nat) (v : Verdict) : Prop where
  /-- It follows the greatest end. -/
  greatest : ∀ stop, IsGreatest ends stop → v = follow stop
  /-- Without ends there is no match. -/
  empty : ends = ∅ → v = .failure

/-- What is known of a way at a position: which ends it has, what is seen on it and what it
yields. -/
structure Offers (t : Setting) (follow : Nat → Verdict) (pos : Nat) (sees : Option Char → Prop)
    (ends : Set Nat) (v : Verdict) : Prop where
  /-- What it yields follows the longest path. -/
  judged : Judged follow ends v
  /-- The ends can be reached. -/
  reached : ∀ stop ∈ ends, pos ≤ stop ∧ t.Allows stop
  /-- A path that consumes something begins with a character that is seen. -/
  reads : ∀ stop ∈ ends, pos < stop → ∃ ch, t.next? pos = some ch ∧ sees (some ch)
  /-- Where a path that consumes nothing goes on behind the goal, this has been foreseen. -/
  stays : pos ∈ ends → follow pos ≠ .failure →
    (∀ next, sees next) ∨ (∃ ch, t.next? pos = some ch ∧ sees (some ch)) ∨
      sees none ∧ ∀ stop, pos < stop → t.Allows stop → follow stop ≠ .failure

section

variable {t : Setting} {follow : Nat → Verdict} {pos : Nat} {sees sees' : Option Char → Prop}
  {ends ends' : Set Nat} {v v' : Verdict}

/-- Bounded ends are none or have a greatest one. -/
theorem Offers.empty_or_greatest (h : Offers t follow pos sees ends v) :
    ends = ∅ ∨ ∃ stop, IsGreatest ends stop := by
  rcases ends.eq_empty_or_nonempty with hempty | hnonempty
  · exact .inl hempty
  · have hbounded : BddAbove ends :=
      ⟨t.window.limit, fun stop hstop => (h.reached stop hstop).2.le_limit⟩
    exact .inr ⟨sSup ends, Nat.sSup_mem hnonempty hbounded, fun _ hstop => le_csSup hbounded hstop⟩

/-- A way without ends offers nothing. -/
theorem offers_none (sees : Option Char → Prop) : Offers t follow pos sees ∅ .failure where
  judged := ⟨fun _ h => h.1.elim, fun _ => rfl⟩
  reached _ h := h.elim
  reads _ h := h.elim
  stays h := h.elim

/-- If the next character is not seen a path consumes nothing, and it goes on behind the goal only
if this has been foreseen without a character. -/
theorem Offers.of_not_sees (h : Offers t follow pos sees ends v) {ch : Char}
    (hch : t.next? pos = some ch) (hnot : ¬sees (some ch)) {stop : Nat} (hstop : stop ∈ ends) :
    stop = pos ∧ (follow pos ≠ .failure →
      sees none ∧ ∀ stop, pos < stop → t.Allows stop → follow stop ≠ .failure) := by
  have hother : ¬∃ ch', t.next? pos = some ch' ∧ sees (some ch') := by
    rintro ⟨ch', hch', hsees⟩
    rw [hch] at hch'
    exact hnot (Option.some.inj hch' ▸ hsees)
  have heq : stop = pos := by
    by_contra hne
    have hle := (h.reached stop hstop).1
    exact hother (h.reads stop hstop (by omega))
  refine ⟨heq, fun hne => ?_⟩
  rcases h.stays (heq ▸ hstop) hne with hall | hsees | hnone
  · exact absurd (hall _) hnot
  · exact absurd hsees hother
  · exact hnone

/-- The longer path is taken, or what follows it does not matter. -/
theorem Offers.judged_orElse (h : Offers t follow pos sees ends v)
    (h' : Offers t follow pos sees' ends' v')
    (hapart : ∀ ch, ¬(sees (some ch) ∧ sees' (some ch))) (hend : ends'.Nonempty → ¬sees none)
    {stop stop' : Nat} (hstop : IsGreatest ends stop) (hstop' : IsGreatest ends' stop') :
    v.orElse v' = follow (max stop stop') := by
  rw [h.judged.greatest stop hstop, h'.judged.greatest stop' hstop']
  rcases Nat.lt_trichotomy stop stop' with hlt | rfl | hlt
  · -- The second path is longer, so the first one consumes nothing and leads nowhere.
    have hle := (h.reached stop hstop.1).1
    obtain ⟨ch, hch, hsees'⟩ := h'.reads stop' hstop'.1 (by omega)
    obtain ⟨rfl, hstays⟩ := h.of_not_sees hch (fun hsees => hapart ch ⟨hsees, hsees'⟩) hstop.1
    have hfailure : follow stop = .failure := by
      by_contra hne
      exact hend ⟨stop', hstop'.1⟩ (hstays hne).1
    rw [hfailure, Verdict.failure_orElse, Nat.max_eq_right (by omega)]
  · rw [Nat.max_self]
    by_cases hfailure : follow stop = .failure
    · rw [hfailure, Verdict.failure_orElse]
    · rw [Verdict.orElse_eq_left hfailure]
  · -- The first path is longer.  The second one goes on only if the first one does.
    have hle := (h'.reached stop' hstop'.1).1
    obtain ⟨ch, hch, hsees⟩ := h.reads stop hstop.1 (by omega)
    obtain ⟨rfl, hstays⟩ := h'.of_not_sees hch (fun hsees' => hapart ch ⟨hsees, hsees'⟩) hstop'.1
    rw [Nat.max_eq_left (by omega)]
    by_cases hfailure : follow stop = .failure
    · rw [hfailure, Verdict.failure_orElse]
      by_contra hne
      exact (hstays hne).2 stop hlt (h.reached stop hstop.1).2 hfailure
    · rw [Verdict.orElse_eq_left hfailure]

/-- Of two ways that are settled the first verdict follows the longest path. -/
theorem Offers.orElse (h : Offers t follow pos sees ends v)
    (h' : Offers t follow pos sees' ends' v')
    (hapart : ∀ ch, ¬(sees (some ch) ∧ sees' (some ch))) (hend : ends'.Nonempty → ¬sees none) :
    Offers t follow pos (fun next => sees next ∨ sees' next) (ends ∪ ends') (v.orElse v') where
  judged := by
    rcases h.empty_or_greatest with hempty | ⟨stop, hstop⟩
    · rw [hempty, Set.empty_union, h.judged.empty hempty, Verdict.failure_orElse]
      exact h'.judged
    rcases h'.empty_or_greatest with hempty | ⟨stop', hstop'⟩
    · rw [hempty, Set.union_empty, h'.judged.empty hempty, Verdict.orElse_failure]
      exact h.judged
    have hmax := hstop.union hstop'
    refine ⟨fun last hlast => ?_, fun hempty => ?_⟩
    · rw [hlast.unique hmax]
      exact h.judged_orElse h' hapart hend hstop hstop'
    · have hmem : max stop stop' ∈ ends ∪ ends' := hmax.1
      rw [hempty] at hmem
      exact hmem.elim
  reached stop hstop := hstop.elim (h.reached stop) (h'.reached stop)
  reads stop hstop hlt := by
    rcases hstop with hstop | hstop
    · exact (h.reads stop hstop hlt).imp fun _ hch => ⟨hch.1, .inl hch.2⟩
    · exact (h'.reads stop hstop hlt).imp fun _ hch => ⟨hch.1, .inr hch.2⟩
  stays hpos hne := by
    rcases hpos with hpos | hpos
    · rcases h.stays hpos hne with hall | ⟨ch, hch, hsees⟩ | ⟨hsees, hcarries⟩
      · exact .inl fun next => .inl (hall next)
      · exact .inr (.inl ⟨ch, hch, .inl hsees⟩)
      · exact .inr (.inr ⟨.inl hsees, hcarries⟩)
    · rcases h'.stays hpos hne with hall | ⟨ch, hch, hsees⟩ | ⟨hsees, hcarries⟩
      · exact .inl fun next => .inr (hall next)
      · exact .inr (.inl ⟨ch, hch, .inr hsees⟩)
      · exact .inr (.inr ⟨.inr hsees, hcarries⟩)

/-- The first verdict of ways that are settled follows the longest path. -/
theorem offers_firstOf {α : Type} {ways : List α} {sees : α → Option Char → Prop}
    {ends : α → Set Nat}
    {v : α → Verdict} (hways : ∀ way ∈ ways, Offers t follow pos (sees way) (ends way) (v way))
    (hpairwise : ways.Pairwise fun way other =>
      ¬sees way none ∧ ∀ ch, ¬(sees way (some ch) ∧ sees other (some ch))) :
    Offers t follow pos (fun next => ∃ way ∈ ways, sees way next)
      {stop | ∃ way ∈ ways, stop ∈ ends way} (firstOf (ways.map v)) := by
  induction ways with
  | nil =>
    have hnone : Offers t follow pos (fun _ => False) ∅ .failure := offers_none _
    simpa using hnone
  | cons way ways ih =>
    obtain ⟨hfirst, hrest⟩ := List.pairwise_cons.1 hpairwise
    have hothers := ih (fun way h => hways way (List.mem_cons_of_mem _ h)) hrest
    have horElse := (hways way List.mem_cons_self).orElse hothers
      (fun ch ⟨hsees, other, hother, hsees'⟩ => (hfirst other hother).2 ch ⟨hsees, hsees'⟩)
      (fun ⟨_, other, hother, _⟩ => (hfirst other hother).1)
    have hsees : (fun next => ∃ other ∈ way :: ways, sees other next) =
        fun next => sees way next ∨ ∃ other ∈ ways, sees other next := by
      funext next
      simp
    have hends : {stop | ∃ other ∈ way :: ways, stop ∈ ends other} =
        ends way ∪ {stop | ∃ other ∈ ways, stop ∈ ends other} := by
      ext stop
      simp
    rw [hsees, hends]
    exact horElse

end

end RegexEngine
