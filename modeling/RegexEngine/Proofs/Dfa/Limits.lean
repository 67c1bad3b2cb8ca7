import Mathlib
import RegexEngine.Automaton.Promotion
import RegexEngine.Proofs.Text.Boundary

/-!
# Limits of a deterministic run

A run reads nothing from its limit on.  It looks at the limit before it reads a character, so
it may read the rest of one inside which the limit lies.

* `scan_within` says how far a run gets: not beyond the first boundary from the limit on.
* `scan_later` compares two runs.  One with a later limit does the same or finds an end behind
  the earlier limit.
* `Dfa.runBounded_limits` says it of whole runs.
-/

namespace RegexEngine.Dfa

variable {d : Dfa} {text : Subject} {limit limit' state pos : Nat} {last : Option Nat}

/-! ## One step of a run -/

/-- The last end, when a state has been looked at. -/
abbrev State.ended (s : State) (text : Subject) (pos : Nat) (last : Option Nat) : Option Nat :=
  if s.accepting.get (.after text pos) then some pos else last

/-- A run ends at its limit and where no character leads on. -/
theorem scan_stop {s : State} (hs : d.states[state]? = some s)
    (h : limit ≤ pos ∨ ∀ c, text.charAt? pos = some c → s.step c = none) :
    d.scan text limit state pos last = s.ended text pos last := by
  rw [scan, hs]
  dsimp only
  split
  · rfl
  · rename_i hlt
    split
    · rfl
    · rename_i c hc
      rw [(h.resolve_left hlt) c hc]

/-- Before its limit a run reads a character that leads on. -/
theorem scan_step {s : State} {c : Char} {next : Nat} (hs : d.states[state]? = some s)
    (hlt : pos < limit) (hc : text.charAt? pos = some c) (hstep : s.step c = some next) :
    d.scan text limit state pos last =
      d.scan text limit next (pos + c.utf8Size) (s.ended text pos last) := by
  rw [scan, hs]
  dsimp only
  rw [if_neg (Nat.not_le.2 hlt)]
  split
  · rename_i hnone
    rw [hc] at hnone
    cases hnone
  · rename_i c' hc'
    obtain rfl := Option.some.inj (hc.symm.trans hc')
    rw [hstep]

/-! ## How far a run gets -/

/-- A boundary from `pos` on, with none from the limit on before it. -/
structure Within (text : Subject) (limit pos stop : Nat) : Prop where
  /-- It is a boundary. -/
  boundary : text.isBoundary stop
  /-- It is not further to the left. -/
  le : pos ≤ stop
  /-- No boundary from the limit on lies before it. -/
  le_bound : ∀ bound, text.isBoundary bound → max pos limit ≤ bound → stop ≤ bound

/-- A run finds an end from `pos` on, or it stays with the last one. -/
def Advances (text : Subject) (limit pos : Nat) (last result : Option Nat) : Prop :=
  result = last ∨ ∃ stop, result = some stop ∧ Within text limit pos stop

theorem advances_ended (hpos : text.isBoundary pos) (s : State) :
    Advances text limit pos last (s.ended text pos last) := by
  unfold State.ended
  split
  · exact .inr ⟨pos, rfl, hpos, Nat.le_refl _, fun _ _ hle => by omega⟩
  · exact .inl rfl

/-- What lies behind a character before the limit can be reached from its front. -/
theorem Within.of_charAt? {c : Char} {stop : Nat} (h : Within text limit (pos + c.utf8Size) stop)
    (hc : text.charAt? pos = some c) (hlt : pos < limit) : Within text limit pos stop where
  boundary := h.boundary
  le := Nat.le_trans (Nat.le_add_right _ _) h.le
  le_bound bound hbound hle := by
    have hnext : pos + c.utf8Size ≤ bound := Subject.add_le_of_lt hc hbound (by omega)
    exact h.le_bound bound hbound (by omega)

/-- A run gets no further than to the first boundary from the limit on. -/
theorem scan_within (hpos : text.isBoundary pos) :
    Advances text limit pos last (d.scan text limit state pos last) := by
  fun_induction scan d text limit state pos last with
  | case1 state pos last hnone => exact .inl rfl
  | case2 state pos last s hs last' hle => exact advances_ended hpos _
  | case3 state pos last s hs last' hlt hnone => exact advances_ended hpos _
  | case4 state pos last s hs last' hlt c hc hstep => exact advances_ended hpos _
  | case5 state pos last s hs last' hlt c hc next hstep ih =>
    rcases ih (Subject.isBoundary_add hc) with hlast | ⟨stop, hstop, hwithin⟩
    · rw [hlast]
      exact advances_ended hpos _
    · exact .inr ⟨stop, hstop, hwithin.of_charAt? hc (Nat.not_le.1 hlt)⟩

/-! ## Two limits -/

/-- The second result is the same, or it lies behind the limit of the first one and behind the
first one. -/
def Later (limit : Nat) (result result' : Option Nat) : Prop :=
  result' = result ∨
    ∃ stop', result' = some stop' ∧ limit < stop' ∧ ∀ stop, result = some stop → stop < stop'

/-- The last end that is known at a position is not beyond it. -/
theorem le_of_ended {s : State} (hlast : ∀ stop, last = some stop → stop ≤ pos) :
    ∀ stop, s.ended text pos last = some stop → stop ≤ pos := by
  intro stop hstop
  unfold State.ended at hstop
  split at hstop
  · exact Nat.le_of_eq (Option.some.inj hstop).symm
  · exact hlast stop hstop

/-- With a later limit a run does the same or goes on behind the earlier one. -/
theorem scan_later (hpos : text.isBoundary pos) (hle : limit ≤ limit')
    (hlast : ∀ stop, last = some stop → stop ≤ pos) :
    Later limit (d.scan text limit state pos last) (d.scan text limit' state pos last) := by
  fun_induction scan d text limit state pos last with
  | case1 state pos last hnone =>
    rw [scan, hnone]
    exact .inl rfl
  | case2 state pos last s hs last' hstop =>
    -- The first run ends here, and the second one may read on.
    by_cases hreads : pos < limit' ∧ ∃ c next, text.charAt? pos = some c ∧ s.step c = some next
    · obtain ⟨hlt, c, next, hc, hstep⟩ := hreads
      rw [scan_step hs hlt hc hstep]
      have hrest : Advances text limit' (pos + c.utf8Size) (s.ended text pos last)
          (d.scan text limit' next (pos + c.utf8Size) (s.ended text pos last)) :=
        scan_within (Subject.isBoundary_add hc)
      rcases hrest with hsame | ⟨stop', hstop', hwithin⟩
      · exact .inl hsame
      · have hpositive := c.utf8Size_pos
        have hbehind := hwithin.le
        refine .inr ⟨stop', hstop', by omega, fun stop hended => ?_⟩
        have hbefore := le_of_ended hlast stop hended
        omega
    · refine .inl (scan_stop hs ?_)
      by_contra hnot
      obtain ⟨hlt, hleads⟩ := not_or.1 hnot
      obtain ⟨c, hleads⟩ := not_forall.1 hleads
      obtain ⟨hc, hstep⟩ := Classical.not_imp.1 hleads
      obtain ⟨next, hnext⟩ := Option.ne_none_iff_exists'.1 hstep
      exact hreads ⟨Nat.not_le.1 hlt, c, next, hc, hnext⟩
  | case3 state pos last s hs last' hlt hnone =>
    exact .inl (scan_stop hs (.inr fun c hc => by simp [hnone] at hc))
  | case4 state pos last s hs last' hlt c hc hstep =>
    refine .inl (scan_stop hs (.inr fun c' hc' => ?_))
    obtain rfl := Option.some.inj (hc.symm.trans hc')
    exact hstep
  | case5 state pos last s hs last' hlt c hc next hstep ih =>
    rw [scan_step hs (by omega) hc hstep]
    refine ih (Subject.isBoundary_add hc) fun stop hended => ?_
    exact Nat.le_trans (le_of_ended hlast stop hended) (Nat.le_add_right _ _)

/-! ## Whole runs -/

/-- What a run finds lies within its limit. -/
theorem within_of_scan {stop : Nat} (hpos : text.isBoundary pos)
    (h : d.scan text limit state pos none = some stop) : Within text limit pos stop := by
  have hadvances : Advances text limit pos none (d.scan text limit state pos none) :=
    scan_within hpos
  rcases hadvances with hnone | ⟨stop', hstop', hwithin⟩
  · rw [hnone] at h
    cases h
  · rw [hstop'] at h
    exact Option.some.inj h ▸ hwithin

/-- A limit that is a boundary is not overrun. -/
theorem Within.le_max {stop : Nat} (h : Within text limit pos stop) (hpos : text.isBoundary pos)
    (hlimit : text.isBoundary limit ∨ text.size ≤ limit) : stop ≤ max pos limit := by
  rcases hlimit with hlimit | hsize
  · refine h.le_bound _ ?_ (Nat.le_refl _)
    rcases Nat.le_total pos limit with hle | hle
    · rwa [Nat.max_eq_right hle]
    · rwa [Nat.max_eq_left hle]
  · have hstop := Subject.le_size_of_isBoundary h.boundary
    omega

/-- Behind the end of the subject all limits are the same. -/
theorem scan_eq_of_size_le (hpos : text.isBoundary pos) (hle : text.size ≤ limit) :
    d.scan text limit state pos none = d.scan text text.size state pos none := by
  have hlater : Later text.size (d.scan text text.size state pos none)
      (d.scan text limit state pos none) := scan_later hpos hle fun _ h => by cases h
  rcases hlater with hsame | ⟨stop, hstop, hlt, -⟩
  · exact hsame
  · have hstop := Subject.le_size_of_isBoundary (within_of_scan hpos hstop).boundary
    omega

theorem runBounded_eq (d : Dfa) {start : Nat} (hstart : text.isBoundary start) (limit : Nat) :
    d.runBounded text start limit =
      .ok (d.scan text limit (d.roots.get (.before text start)) start none) := by
  rw [runBounded, Subject.checkBoundary, if_pos hstart]
  rfl

/-- From a boundary a run has an answer under any limit.  What it finds lies within the limit
if the limit is a boundary, and else not beyond the boundary behind it.  A later limit leads to
the same end or to one behind the earlier limit, and from the end of the subject on a limit
changes nothing. -/
theorem runBounded_limits (d : Dfa) (text : Subject) {start limit limit' : Nat}
    (hstart : text.isBoundary start) (hle : limit ≤ limit') :
    ∃ result result', d.runBounded text start limit = .ok result ∧
      d.runBounded text start limit' = .ok result' ∧
      (∀ stop, result = some stop → text.isBoundary stop ∧ start ≤ stop ∧
        (∀ bound, text.isBoundary bound → max start limit ≤ bound → stop ≤ bound) ∧
        (text.isBoundary limit ∨ text.size ≤ limit → stop ≤ max start limit)) ∧
      (∀ stop, result = some stop → ∃ stop', result' = some stop' ∧ stop ≤ stop') ∧
      (∀ stop, result' = some stop → stop ≤ limit → result = some stop) ∧
      (text.size ≤ limit → d.run text start = .ok result) := by
  have hlater : Later limit (d.scan text limit (d.roots.get (.before text start)) start none)
      (d.scan text limit' (d.roots.get (.before text start)) start none) :=
    scan_later hstart hle fun _ h => by cases h
  refine ⟨_, _, runBounded_eq d hstart limit, runBounded_eq d hstart limit', ?_, ?_, ?_, ?_⟩
  · intro stop hstop
    have hwithin := within_of_scan hstart hstop
    exact ⟨hwithin.boundary, hwithin.le, hwithin.le_bound, hwithin.le_max hstart⟩
  · intro stop hstop
    rcases hlater with hsame | ⟨stop', hstop', -, hbefore⟩
    · exact ⟨stop, hsame.trans hstop, Nat.le_refl _⟩
    · exact ⟨stop', hstop', Nat.le_of_lt (hbefore stop hstop)⟩
  · intro stop hstop hlimit
    rcases hlater with hsame | ⟨stop', hstop', hlt, -⟩
    · exact hsame.symm.trans hstop
    · have heq := Option.some.inj (hstop'.symm.trans hstop)
      omega
  · intro hsize
    rw [run, runBounded_eq d hstart, scan_eq_of_size_le hstart hsize]

/-- A character of two bytes at least once. -/
def someAccents : Pattern :=
  .oneOrMore (.text ['é']) .greedy

theorem runBounded_limits_someAccents :
    ∃ d, ofPattern {} someAccents = .ok d ∧ (Subject.ofList ['é', 'é', 'a']).isBoundary 0 ∧ 2 ≤ 3 ∧
      ∃ result result', d.runBounded (.ofList ['é', 'é', 'a']) 0 2 = .ok result ∧
        d.runBounded (.ofList ['é', 'é', 'a']) 0 3 = .ok result' ∧
        (∀ stop, result = some stop → (Subject.ofList ['é', 'é', 'a']).isBoundary stop ∧ 0 ≤ stop ∧
          (∀ bound, (Subject.ofList ['é', 'é', 'a']).isBoundary bound → max 0 2 ≤ bound →
            stop ≤ bound) ∧
          ((Subject.ofList ['é', 'é', 'a']).isBoundary 2 ∨
            (Subject.ofList ['é', 'é', 'a']).size ≤ 2 →
            stop ≤ max 0 2)) ∧
        (∀ stop, result = some stop → ∃ stop', result' = some stop' ∧ stop ≤ stop') ∧
        (∀ stop, result' = some stop → stop ≤ 2 → result = some stop) ∧
        ((Subject.ofList ['é', 'é', 'a']).size ≤ 2 →
          d.run (.ofList ['é', 'é', 'a']) 0 = .ok result) := by
  have hsome : (ofPattern {} someAccents).toOption.isSome = true := by cbv
  cases hd : ofPattern {} someAccents with
  | error fault => simp [hd, Except.toOption] at hsome
  | ok d =>
    exact ⟨d, rfl, by decide, by decide, runBounded_limits d (.ofList ['é', 'é', 'a']) (by decide)
      (by decide)⟩

/-- A limit inside a character does not keep a run from reading all of it. -/
theorem runBounded_insideCharacter :
    ∃ d, ofPattern {} someAccents = .ok d ∧ (Subject.ofList ['é']).isBoundary 0 ∧
      d.runBounded (.ofList ['é']) 0 1 = .ok (some 2) ∧ ¬2 ≤ max 0 1 := by
  have hrun : (ofPattern {} someAccents).toOption.map (fun d =>
      (d.runBounded (.ofList ['é']) 0 1).toOption) = some (some (some 2)) := by cbv
  cases hd : ofPattern {} someAccents with
  | error fault => simp [hd, Except.toOption] at hrun
  | ok d =>
    rw [hd] at hrun
    have hresult : (d.runBounded (.ofList ['é']) 0 1).toOption = some (some 2) :=
      Option.some.inj hrun
    cases hbounded : d.runBounded (.ofList ['é']) 0 1 with
    | error fault => simp [hbounded, Except.toOption] at hresult
    | ok result =>
      rw [hbounded] at hresult
      have heq : result = some 2 := Option.some.inj hresult
      exact ⟨d, rfl, by decide, hbounded.trans (congrArg Except.ok heq), by decide⟩

end RegexEngine.Dfa
