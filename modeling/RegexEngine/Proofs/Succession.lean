import RegexEngine.Proofs.Possessive
import RegexEngine.Proofs.Spans
import RegexEngine.Proofs.Termination
import RegexEngine.Proofs.Text.Order

/-!
# Matches one after the other

A search from a position finds the leftmost match behind it, and the matches that are found one
after the other lie from left to right and leave out none that could be found between them.  If a
search has no answer the succession breaks off, and the matches before are found all the same.

* `Automaton.Leftmost` says what the leftmost match is, `Automaton.Succession` what a succession of
  matches is, each of them the leftmost one behind the match before.
* `Automaton.leftmost_findAt` and `Automaton.succession_findAllFrom` are about the searches.
* `Automaton.exhausts_findAll` puts together what holds of all matches of a text.
-/

namespace RegexEngine

/-- Where the match after this one may start: where this one ends, or behind the next character if
this one is empty.  No match starts within that character. -/
def Match.beyond (m : Match) : Nat :=
  if m.stop = m.start then m.stop + 1 else m.stop

theorem Match.lt_beyond (m : Match) (h : m.start ≤ m.stop) :
    m.start < m.beyond ∧ m.stop ≤ m.beyond := by
  unfold Match.beyond
  split
  · omega
  · omega

namespace Automaton

variable {o : Options} {p : Pattern} {a b : Automaton} {text : Subject} {start pos : Nat}
  {m : Match} {y : Yield Fault Match}

/-! ## The leftmost match -/

/-- What a search for the leftmost match finds: the match at the first position from `start` on
at which there is one, or that there is none.  A fault at a position before stops the search. -/
inductive Leftmost (a : Automaton) (text : Subject) (start : Nat) :
    Except Fault (Option Match) → Prop
  | found {m : Match} : start ≤ m.start → a.matchAt text m.start = .ok (some m) →
      (∀ pos, start ≤ pos → pos < m.start → a.matchAt text pos = .ok none) →
      a.Leftmost text start (.ok (some m))
  | absent : (∀ pos, start ≤ pos → a.matchAt text pos = .ok none) → a.Leftmost text start (.ok none)
  | stopped {pos : Nat} {fault : Fault} : start ≤ pos → a.matchAt text pos = .error fault →
      (∀ pos', start ≤ pos' → pos' < pos → a.matchAt text pos' = .ok none) →
      a.Leftmost text start (.error fault)

/-- Positions without a match may be left out. -/
theorem Leftmost.of_le {next : Nat} {result : Except Fault (Option Match)}
    (h : a.Leftmost text next result)
    (hle : start ≤ next) (hnone : ∀ pos, start ≤ pos → pos < next → a.matchAt text pos = .ok none) :
    a.Leftmost text start result := by
  have hnone' {bound : Nat}
    (hbefore : ∀ pos, next ≤ pos → pos < bound → a.matchAt text pos = .ok none) :
      ∀ pos, start ≤ pos → pos < bound → a.matchAt text pos = .ok none := by
    intro pos hpos hlt
    by_cases hnext : pos < next
    · exact hnone pos hpos hnext
    · exact hbefore pos (by omega) hlt
  cases h with
  | found hstart hmatch hbefore => exact .found (by omega) hmatch (hnone' hbefore)
  | absent hbefore =>
    refine .absent ?_
    intro pos hpos
    exact hnone' (fun pos hnext _ => hbefore pos hnext) pos hpos (Nat.lt_succ_self pos)
  | stopped hstart hfault hbefore => exact .stopped (by omega) hfault (hnone' hbefore)

/-- Each match of an automaton starts where it has been looked for, and it is a piece of the
subject. -/
def FindsSpans (a : Automaton) (text : Subject) : Prop :=
  ∀ pos m, a.matchAt text pos = .ok (some m) → m.start = pos ∧ text.IsSpan pos m.stop

/-- The search from a position on finds the leftmost match. -/
theorem leftmost_findAt (hspans : a.FindsSpans text) (start : Nat) :
    a.Leftmost text start (a.findAt text start) := by
  unfold findAt
  induction hcount : text.size + 1 - start generalizing start with
  | zero =>
    rw [Subject.boundariesFrom_of_gt (by omega)]
    refine .absent ?_
    intro pos hpos
    apply matchAt_of_not_isBoundary
    rw [Bool.eq_false_iff]
    intro hboundary
    have := Subject.le_size_of_isBoundary hboundary
    omega
  | succ count ih =>
    have hlater := ih (start + 1) (by omega)
    have hskip (hnone : a.matchAt text start = .ok none) :
        ∀ pos, start ≤ pos → pos < start + 1 → a.matchAt text pos = .ok none := by
      intro pos hle hlt
      obtain rfl : pos = start := by omega
      exact hnone
    rw [Subject.boundariesFrom_of_le (by omega)]
    cases hpos : text.isBoundary start with
    | false => exact hlater.of_le (by omega) (hskip (matchAt_of_not_isBoundary hpos))
    | true =>
      rw [if_pos rfl, matchAmong]
      cases hmatch : a.matchAt text start with
      | error fault => exact .stopped (Nat.le_refl start) hmatch (by omega)
      | ok result =>
        cases result with
        | none => exact hlater.of_le (by omega) (hskip hmatch)
        | some m =>
          obtain ⟨hstart, -⟩ := hspans start m hmatch
          refine .found (by omega) ?_ (by omega)
          rw [hstart]
          exact hmatch

/-! ## Successive matches -/

/-- Matches one after the other: the first is the leftmost one from `start` on, each other one the
leftmost one behind the one before.  There is none behind the last, unless the search for it has no
answer. -/
inductive Succession (a : Automaton) (text : Subject) : Nat → Yield Fault Match → Prop
  | nil {start : Nat} : a.Leftmost text start (.ok none) → Succession a text start {}
  | stopped {start : Nat} {fault : Fault} : a.Leftmost text start (.error fault) →
      Succession a text start (.stopped fault)
  | cons {start : Nat} {m : Match} {y : Yield Fault Match} : a.Leftmost text start (.ok (some m)) →
      Succession a text m.beyond y → Succession a text start (y.cons m)

theorem Succession.of_le {next : Nat} (h : a.Succession text next y) (hle : start ≤ next)
    (hnone : ∀ pos, start ≤ pos → pos < next → a.matchAt text pos = .ok none) :
    a.Succession text start y := by
  cases h with
  | nil hleft => exact .nil (hleft.of_le hle hnone)
  | stopped hleft => exact .stopped (hleft.of_le hle hnone)
  | cons hleft hrest => exact .cons (hleft.of_le hle hnone) hrest

/-- Where the search goes on is to the right of where it has been, and between what a match takes
and that position no match starts. -/
theorem resume_eq_some {next : Nat} (hspan : text.IsSpan m.start m.stop)
    (h : m.resume text = some next) :
    m.start < next ∧ m.beyond ≤ next ∧ next ≤ text.size ∧
      ∀ pos, m.beyond ≤ pos → pos < next → a.matchAt text pos = .ok none := by
  have hle := hspan.le
  unfold Match.resume at h
  unfold Match.beyond
  split at h
  · next hempty =>
    obtain ⟨c, hc, rfl⟩ := Option.map_eq_some_iff.1 h
    have hsize := Subject.le_size_of_isBoundary (Subject.isBoundary_add hc)
    have hwidth := c.utf8Size_pos
    rw [if_pos hempty]
    refine ⟨by omega, by omega, hsize, ?_⟩
    intro pos hpos hlt
    apply matchAt_of_not_isBoundary
    rw [Bool.eq_false_iff]
    intro hboundary
    have := Subject.add_le_of_lt hc hboundary (by omega)
    omega
  · next hempty =>
    obtain rfl := Option.some.inj h
    rw [if_neg hempty]
    refine ⟨by omega, Nat.le_refl _, hspan.stop_le, ?_⟩
    intro pos hpos hlt
    omega

/-- The search ends with an empty match at the end of the text. -/
theorem lt_beyond_of_resume_eq_none (hspan : text.IsSpan m.start m.stop)
    (h : m.resume text = none) :
    text.size < m.beyond := by
  unfold Match.resume at h
  unfold Match.beyond
  split at h
  · next hempty =>
    rw [if_pos hempty]
    rcases Nat.lt_or_ge m.stop text.size with hlt | hge
    · obtain ⟨c, hc⟩ := Subject.exists_charAt? hspan.stop hlt
      rw [hc] at h
      cases h
    · omega
  · cases h

/-- The search for all matches finds a succession of them. -/
theorem succession_findAllFrom (hspans : a.FindsSpans text) (start : Nat) :
    a.Succession text start (a.findAllFrom text start) := by
  have hleft := leftmost_findAt hspans start
  rw [findAllFrom]
  cases hfind : a.findAt text start with
  | error fault =>
    rw [hfind] at hleft
    exact .stopped hleft
  | ok result =>
    rw [hfind] at hleft
    cases result with
    | none => exact .nil hleft
    | some m =>
      obtain ⟨hstart, hspan⟩ : start ≤ m.start ∧ text.IsSpan m.start m.stop := by
        cases hleft with
        | found hstart hmatch _ => exact ⟨hstart, (hspans m.start m hmatch).2⟩
      cases hresume : m.resume text with
      | none =>
        have hend := lt_beyond_of_resume_eq_none hspan hresume
        have hrest := leftmost_findAt hspans m.beyond
        unfold findAt at hrest
        rw [Subject.boundariesFrom_of_gt hend] at hrest
        simp only [hresume]
        exact .cons hleft (.nil hrest)
      | some next =>
        obtain ⟨hlt, hbeyond, hsize, hnone⟩ := resume_eq_some (a := a) hspan hresume
        have hguard : start < next ∧ next ≤ text.size := ⟨by omega, hsize⟩
        simp only [hresume, dif_pos hguard]
        exact .cons hleft ((succession_findAllFrom hspans next).of_le hbeyond hnone)
termination_by text.size - start

/-- What holds of matches that leave nothing out. -/
structure Exhausts (a : Automaton) (text : Subject) (y : Yield Fault Match) : Prop where
  /-- Each match is the leftmost one behind the one before, and there is none behind the last,
  unless the search for it has no answer. -/
  succession : a.Succession text 0 y
  /-- They start further and further to the right. -/
  starts : y.items.Pairwise fun m m' => m.start < m'.start
  /-- None starts within another one. -/
  apart : y.items.Pairwise fun m m' => m.stop ≤ m'.start
  /-- There are at most as many as boundaries. -/
  length_le : y.items.length ≤ text.chars.length + 1
  /-- Wherever there is a match one of them starts, or goes on, unless the search has broken off
  further to the left. -/
  covers : ∀ pos m', a.matchAt text pos = .ok (some m') →
    (∃ m ∈ y.items, pos = m.start ∨ m.start ≤ pos ∧ pos < m.stop) ∨
      ∃ fault, y.stop = some fault ∧ ∃ pos' < pos, a.matchAt text pos' = .error fault

/-- No match can be found between those of a succession. -/
theorem Succession.covers (h : a.Succession text start y) (hpos : start ≤ pos) {m' : Match}
    (hmatch : a.matchAt text pos = .ok (some m')) :
    (∃ m ∈ y.items, pos = m.start ∨ m.start ≤ pos ∧ pos < m.stop) ∨
      ∃ fault, y.stop = some fault ∧ ∃ pos' < pos, a.matchAt text pos' = .error fault := by
  induction h with
  | nil hleft =>
    cases hleft with
    | absent hnone =>
      rw [hnone pos hpos] at hmatch
      cases hmatch
  | @stopped start fault hleft =>
    cases hleft with
    | @stopped bad _ _ hfault hbefore =>
      refine .inr ⟨fault, rfl, bad, ?_, hfault⟩
      rcases Nat.lt_trichotomy bad pos with hlt | rfl | hlt
      · exact hlt
      · rw [hfault] at hmatch
        cases hmatch
      · rw [hbefore pos hpos hlt] at hmatch
        cases hmatch
  | @cons start m y hleft _ ih =>
    have hafter : m.start ≤ pos := by
      cases hleft with
      | found _ _ hbefore =>
        by_contra hlt
        rw [hbefore pos hpos (by omega)] at hmatch
        cases hmatch
    by_cases hbeyond : m.beyond ≤ pos
    · refine (ih hbeyond).imp_left fun ⟨m₁, hm₁, hcover⟩ => ?_
      exact ⟨m₁, List.mem_cons_of_mem m hm₁, hcover⟩
    · refine .inl ⟨m, List.mem_cons_self, ?_⟩
      unfold Match.beyond at hbeyond
      split at hbeyond
      · exact .inl (by omega)
      · exact .inr ⟨hafter, by omega⟩

/-- What breaks off a succession is a fault of the search at some position. -/
theorem Succession.exists_fault (h : a.Succession text start y) {fault : Fault}
    (hstop : y.stop = some fault) : ∃ pos, a.matchAt text pos = .error fault := by
  induction h with
  | nil => cases hstop
  | stopped hleft =>
    cases hstop
    cases hleft with
    | stopped _ hfault _ => exact ⟨_, hfault⟩
  | cons _ _ ih => exact ih hstop

section

variable (hspans : a.FindsSpans text)

include hspans

theorem Leftmost.isSpan (h : a.Leftmost text start (.ok (some m))) :
    start ≤ m.start ∧ text.IsSpan m.start m.stop := by
  cases h with
  | found hstart hmatch _ => exact ⟨hstart, (hspans m.start m hmatch).2⟩

/-- All matches of a succession start at its first position or further to the right. -/
theorem Succession.le_start (h : a.Succession text start y) :
    ∀ m ∈ y.items, start ≤ m.start ∧ text.IsSpan m.start m.stop := by
  induction h with
  | nil => simp
  | stopped => simp [Yield.stopped]
  | @cons start m y hleft _ ih =>
    obtain ⟨hstart, hspan⟩ := hleft.isSpan hspans
    have hbeyond := (m.lt_beyond hspan.le).1
    intro m' hm'
    rcases List.mem_cons.1 hm' with rfl | hm'
    · exact ⟨hstart, hspan⟩
    · obtain ⟨hle, hspan'⟩ := ih m' hm'
      exact ⟨by omega, hspan'⟩

/-- The matches of a succession lie from left to right. -/
theorem Succession.pairwise (h : a.Succession text start y) :
    y.items.Pairwise fun m m' => m.start < m'.start ∧ m.stop ≤ m'.start := by
  induction h with
  | nil => exact .nil
  | stopped => exact .nil
  | @cons start m y hleft hrest ih =>
    refine .cons ?_ ih
    intro m' hm'
    obtain ⟨hlt, hle⟩ := m.lt_beyond (hleft.isSpan hspans).2.le
    have hbeyond := (hrest.le_start hspans m' hm').1
    exact ⟨by omega, by omega⟩

/-- A succession from the beginning of the text on leaves nothing out. -/
theorem Succession.exhausts (h : a.Succession text 0 y) : a.Exhausts text y where
  succession := h
  starts := (h.pairwise hspans).imp And.left
  apart := (h.pairwise hspans).imp And.right
  length_le := by
    have hnodup : (y.items.map Match.start).Nodup := by
      rw [List.Nodup, List.pairwise_map]
      exact (h.pairwise hspans).imp fun hlt => Nat.ne_of_lt hlt.1
    have hle := Subject.length_le_of_isBoundary (s := text) hnodup ?_
    · rw [List.length_map] at hle
      exact hle
    · intro pos hpos
      obtain ⟨m, hm, rfl⟩ := List.mem_map.1 hpos
      exact (h.le_start hspans m hm).2.start
  covers := fun pos _ hmatch => h.covers (Nat.zero_le pos) hmatch

end

/-! ## The automata of a pattern -/

/-- With deterministic automata and without there are the same matches. -/
theorem exists_compile_matchAt_eq (h : compile o p = .ok a ∨ ofPattern o p = .ok a) :
    ∃ b, compile o p = .ok b ∧ ∀ text pos, a.matchAt text pos = b.matchAt text pos := by
  rcases h with h | h
  · exact ⟨a, h, fun _ _ => rfl⟩
  · cases hcompile : compile o p with
    | error e =>
      rw [ofPattern, hcompile] at h
      cases h
    | ok b =>
      rw [ofPattern_eq_promote hcompile] at h
      cases h
      exact ⟨b, rfl, matchAt_promote hcompile⟩

theorem findsSpans (h : compile o p = .ok a ∨ ofPattern o p = .ok a) (text : Subject) :
    a.FindsSpans text := by
  obtain ⟨b, hb, hsame⟩ := exists_compile_matchAt_eq h
  intro pos m hmatch
  rw [hsame] at hmatch
  cases hpos : text.isBoundary pos with
  | false =>
    rw [matchAt_of_not_isBoundary hpos] at hmatch
    cases hmatch
  | true =>
    obtain ⟨keys, -, heq⟩ := exists_keys_matchAt hb text hpos
    rw [heq] at hmatch
    match hhead : (p.meaning text o 0 text.size pos .fresh).head? with
    | none =>
      rw [hhead] at hmatch
      cases hmatch
    | some (.error fault) =>
      rw [hhead] at hmatch
      cases hmatch
    | some (.ok (stop, groups)) =>
      rw [hhead] at hmatch
      cases hmatch
      obtain ⟨hstop, hle, -, -⟩ := Pattern.closed_meaning o 0 p (.index 0) none text.size pos .fresh
        (Subject.isBoundary_size text) hpos (Subject.le_size_of_isBoundary hpos) (.inl rfl) _
        (List.mem_of_mem_head? hhead)
      exact ⟨rfl, hle, hpos, hstop⟩

/-- A fault of a search is a piece of the subject whose ends are not in order, and it takes a group
that is opened by a lookahead inside itself. -/
theorem fault_of_matchAt_eq_error (h : compile o p = .ok a ∨ ofPattern o p = .ok a) {fault : Fault}
    (hfault : a.matchAt text pos = .error fault) :
    text.isBoundary pos ∧ Pattern.Reversed text fault ∧ p.isApart = false := by
  obtain ⟨b, hb, hsame⟩ := exists_compile_matchAt_eq h
  rw [hsame, ← matchAt_promote hb] at hfault
  cases hpos : text.isBoundary pos with
  | false =>
    rw [matchAt_of_not_isBoundary hpos] at hfault
    cases hfault
  | true =>
    refine ⟨rfl, ?_⟩
    rw [matchAt_eq hpos] at hfault
    cases hrun : b.promote.run text b.promote.entry pos (.fresh b.promote) with
    | error fault' =>
      rw [hrun] at hfault
      cases hfault
      exact reversed_of_run hb hpos hrun
    | ok answer =>
      rw [hrun] at hfault
      cases hfault

/-- A search for one match finds the leftmost one from where it begins, and a search for all matches
finds a succession of them that leaves nothing out.  Both may be stopped by the search at one
position, which has then read a piece of the text whose ends are not in order.  This takes a group
that is opened by a lookahead inside itself. -/
theorem exhausts_findAll (h : compile o p = .ok a ∨ ofPattern o p = .ok a) (text : Subject) :
    (∀ start, a.Leftmost text start (a.findAt text start)) ∧ a.Exhausts text (a.findAll text) ∧
      ∀ fault, (a.findAll text).stop = some fault → p.isApart = false ∧
        Pattern.Reversed text fault ∧
        ∃ pos, text.isBoundary pos ∧ a.matchAt text pos = .error fault := by
  have hspans := findsSpans h text
  have hsuccession := succession_findAllFrom hspans 0
  refine ⟨leftmost_findAt hspans, hsuccession.exhausts hspans, fun fault hstop => ?_⟩
  obtain ⟨pos, hfault⟩ := hsuccession.exists_fault hstop
  obtain ⟨hpos, hreversed, hapart⟩ := fault_of_matchAt_eq_error h hfault
  exact ⟨hapart, hreversed, pos, hpos, hfault⟩

/-- As many characters as there are, also none. -/
def anyCharacters : Pattern :=
  .zeroOrMore (.text ['a']) .greedy

theorem exhausts_findAll_anyCharacters :
    ∃ a, ofPattern {} anyCharacters = .ok a ∧
      (∀ start, a.Leftmost (.ofList ['a', 'é', 'a']) start
        (a.findAt (.ofList ['a', 'é', 'a']) start)) ∧
      a.Exhausts (.ofList ['a', 'é', 'a']) (a.findAll (.ofList ['a', 'é', 'a'])) ∧
      (a.findAll (.ofList ['a', 'é', 'a'])).stop = none := by
  have hcompile : (ofPattern {} anyCharacters).toOption.isSome := by decide +kernel
  cases ha : ofPattern {} anyCharacters with
  | error fault => simp [ha, Except.toOption] at hcompile
  | ok a =>
    obtain ⟨hfind, hall, hstop⟩ := exhausts_findAll (.inr ha) (.ofList ['a', 'é', 'a'])
    refine ⟨a, rfl, hfind, hall, ?_⟩
    cases h : (a.findAll (.ofList ['a', 'é', 'a'])).stop with
    | none => rfl
    | some fault =>
      obtain ⟨hapart, -⟩ := hstop fault h
      cases hapart

/-- A fault at the first position stops the search for all matches. -/
theorem findAll_nestedName :
    ∃ a, ofPattern {} nestedName = .ok a ∧
      a.findAll (.ofList ['a', 'b', 'c']) = .stopped (.badSlice 2 1) := by
  obtain ⟨a, ha⟩ := exists_compile_nestedName
  have hpos : (Subject.ofList ['a', 'b', 'c']).isBoundary 0 := by decide
  obtain ⟨keys, -, hmatch⟩ := exists_keys_matchAt ha (.ofList ['a', 'b', 'c']) hpos
  have hsize : (Subject.ofList ['a', 'b', 'c']).size = 3 := rfl
  rw [hsize, head?_meaning_nestedName] at hmatch
  refine ⟨a.promote, ofPattern_eq_promote ha, ?_⟩
  have hfind : a.promote.findAt (.ofList ['a', 'b', 'c']) 0 = .error (.badSlice 2 1) := by
    rw [findAt, Subject.boundariesFrom_of_le (Nat.zero_le _), if_pos hpos, matchAmong,
      matchAt_promote ha, hmatch]
    rfl
  rw [findAll, findAllFrom, hfind]

end Automaton

end RegexEngine
