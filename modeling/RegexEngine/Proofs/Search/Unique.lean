import RegexEngine.Proofs.Search.Fragments

/-!
# A state yields one verdict

If the fragments have one verdict each then so has every state: `Yields.unique`.
-/

namespace RegexEngine

/-- The fragments that a run may need have one verdict each. -/
structure Setting.Decided (t : Setting) : Prop where
  /-- Two verdicts of a fragment are the same. -/
  verdicts : ∀ id f window pos slots v v', t.MayRun id f → window.Sensible t.text →
    t.text.isBoundary pos → pos ≤ window.limit → t.verdicts window id pos slots v →
    t.verdicts window id pos slots v' → v = v'
  /-- The limit is a boundary. -/
  limit : t.text.isBoundary t.window.limit

/-- The verdict that the result of a run gives. -/
def Verdict.ofResult : Except Fault (Option Nat × Registers) → Verdict
  | .error fault => .error fault
  | .ok (none, _) => .failure
  | .ok (some stop, r) => .success stop r.slots

theorem Ran.eq_ofResult {own : Nat → Prop} {tracked : Bool} {r : Registers} {v : Verdict}
    {result : Except Fault (Option Nat × Registers)} (h : Ran own tracked r v result) :
    v = .ofResult result := by
  match v, h with
  | .error fault, h =>
    rw [h]
    rfl
  | .ok none, ⟨r', h, _⟩ =>
    rw [h]
    rfl
  | .ok (some (stop, slots)), ⟨r', h, hslots, _⟩ =>
    rw [h, ← hslots]
    rfl

/-- A fragment has one verdict if running it gives it. -/
theorem Grounded.verdict_unique {t : Setting} {b : Automaton} {replaced : Dfa → Nat → Nat → Prop}
    (h : Grounded t b replaced) {id pos : Nat} {f : Automaton.Fragment} {window : Window}
    {slots : Slots}
    {v v' : Verdict} (hf : t.automaton.fragments[id]? = some f) (hwindow : window.Sensible t.text)
    (hpos : t.text.isBoundary pos) (hle : pos ≤ window.limit)
    (hv : t.verdicts window id pos slots v) (hv' : t.verdicts window id pos slots v') : v = v' := by
  have hran {v : Verdict} (hv : t.verdicts window id pos slots v) :=
    realizes_runFragment h (id + 1) id f window pos slots v
      (Nat.lt_succ_self id) hf hwindow hpos hle hv
      ⟨slots, Array.replicate t.automaton.loopCount none⟩ rfl (by simp)
  exact (hran hv).eq_ofResult.trans (hran hv').eq_ofResult.symm

theorem Grounded.decided {t : Setting} {b : Automaton} {replaced : Dfa → Nat → Nat → Prop}
    (h : Grounded t b replaced) (hlimit : t.text.isBoundary t.window.limit) : t.Decided where
  limit := hlimit
  verdicts _ _ _ _ _ _ _ hrun hwindow hpos hle hv hv' :=
    h.verdict_unique hrun.fragment hwindow hpos hle hv hv'

/-- Fragments in a fragment have one verdict each. -/
theorem Grounded.decided_inner {t : Setting} {b : Automaton} {replaced : Dfa → Nat → Nat → Prop}
    (h : Grounded t b replaced) (id : Nat) (f : Automaton.Fragment) {window : Window}
    (hlimit : t.text.isBoundary window.limit) : (t.inner id f window).Decided where
  limit := hlimit
  verdicts _ _ _ _ _ _ _ hrun hwindow hpos hle hv hv' :=
    h.verdict_unique hrun.fragment hwindow hpos hle hv hv'

section

variable {t : Setting}

/-- Possessive repetition ends in one way. -/
theorem Exhausts.unique (ht : t.Decided) {id : Nat} {f : Automaton.Fragment} (hrun : t.MayRun id f)
    {max : Option Nat} {count pos : Nat} {slots : Slots}
    {result result' : Except Fault (Nat × Nat × Slots)}
    (h : Exhausts t id max count pos slots result) (h' : Exhausts t id max count pos slots result')
    (hpos : t.Allows pos) : result = result' := by
  have hsensible : Window.Sensible ⟨t.window.limit, none⟩ t.text :=
    ⟨ht.limit, fun _ h => by cases h⟩
  have hunique {pos : Nat} {slots : Slots} {v v' : Verdict} (hpos : t.Allows pos)
      (hv : t.verdicts ⟨t.window.limit, none⟩ id pos slots v)
      (hv' : t.verdicts ⟨t.window.limit, none⟩ id pos slots v') : v = v' :=
    ht.verdicts id f _ pos slots v v' hrun hsensible hpos.boundary hpos.le_limit hv hv'
  induction h with
  | maximum hmax =>
    cases h' with
    | maximum => rfl
    | failure hmax' => exact absurd hmax hmax'
    | fault hmax' => exact absurd hmax hmax'
    | empty hmax' => exact absurd hmax hmax'
    | more hmax' => exact absurd hmax hmax'
  | failure hmax hv =>
    cases h' with
    | maximum hmax' => exact absurd hmax' hmax
    | failure => rfl
    | fault _ hv' => cases hunique hpos hv hv'
    | empty _ hv' => cases hunique hpos hv hv'
    | more _ hv' => cases hunique hpos hv hv'
  | fault hmax hv =>
    cases h' with
    | maximum hmax' => exact absurd hmax' hmax
    | failure _ hv' => cases hunique hpos hv hv'
    | fault _ hv' =>
      cases hunique hpos hv hv'
      rfl
    | empty _ hv' => cases hunique hpos hv hv'
    | more _ hv' => cases hunique hpos hv hv'
  | empty hmax hv hstop =>
    cases h' with
    | maximum hmax' => exact absurd hmax' hmax
    | failure _ hv' => cases hunique hpos hv hv'
    | fault _ hv' => cases hunique hpos hv hv'
    | empty _ hv' _ =>
      cases hunique hpos hv hv'
      rfl
    | more _ hv' hstop' =>
      cases hunique hpos hv hv'
      exact absurd hstop' hstop
  | more hmax hv hstop hallows _ ih =>
    cases h' with
    | maximum hmax' => exact absurd hmax' hmax
    | failure _ hv' => cases hunique hpos hv hv'
    | fault _ hv' => cases hunique hpos hv hv'
    | empty _ hv' hstop' =>
      cases hunique hpos hv hv'
      exact absurd hstop hstop'
    | more _ hv' _ _ hrest =>
      cases hunique hpos hv hv'
      exact ih hrest hallows

/-- Where a step leads, by the action of the state. -/
def Setting.LandsAt (t : Setting) (s : Automaton.State) (pos : Nat) (slots : Slots)
    (landing : Landing) :
    Prop :=
  match s.action with
  | .none | .text _ _ =>
    match s.transition with
    | some ⟨.oneOf set, target⟩ => landing = .ok ((t.spelled [set.test] pos).map (target, ·, slots))
    | some ⟨.look look, target⟩ =>
      landing = .ok (if look.holdsAt t.text pos then some (target, pos, slots) else none)
    | none => False
  | .capture slot body _ _ => landing = .ok (some (body, pos, slots.opened slot pos))
  | .captureClose slot next => landing = .ok (some (next, pos, slots.closed slot pos))
  | .reference _ slot ignoreCase next =>
    landing = (t.reread slot ignoreCase pos slots).map (·.map (next, ·, slots))
  | .lookAround .ahead negated id next => ∃ f v, t.MayRun id f ∧
    t.verdicts ⟨t.text.size, none⟩ id pos slots v ∧ landing = v.looking negated next pos slots
  | .lookAround .behind negated id next => ∃ f, ∃ verdicts : Nat → Verdict, t.MayRun id f ∧
    (∀ start ∈ t.text.boundariesDownFrom pos,
      t.verdicts ⟨pos, some pos⟩ id start slots (verdicts start)) ∧
    landing = (firstOf ((t.text.boundariesDownFrom pos).map verdicts)).looking negated
      next pos slots
  | .atomic id next => ∃ f v, t.MayRun id f ∧ t.verdicts ⟨t.window.limit, none⟩ id pos slots v ∧
    landing = v.landing next
  | .possessive id min max next =>
    ∃ f result, t.MayRun id f ∧ Exhausts t id max 0 pos slots result ∧
    landing = result.map fun (count, stop, slots) =>
      if min ≤ count then some (next, stop, slots) else none
  | .dfa _ _ => False

theorem Steps.landsAt {s : Automaton.State} {pos : Nat} {slots : Slots} {landing : Landing}
    (h : Steps t s pos slots landing) : t.LandsAt s pos slots landing := by
  unfold Setting.LandsAt
  cases h with
  | char haction htransition =>
    cases h : s.action with
    | none | text _ _ => simp [htransition]
    | _ => simp [h, Action.isPlain] at haction
  | look haction htransition =>
    cases h : s.action with
    | none | text _ _ => simp [htransition]
    | _ => simp [h, Action.isPlain] at haction
  | capture haction => simp [haction]
  | captureClose haction => simp [haction]
  | reference haction => simp [haction]
  | lookAhead haction hrun hverdict => simpa [haction] using ⟨⟨_, hrun⟩, _, hverdict, rfl⟩
  | lookBehind haction hrun hverdicts => simpa [haction] using ⟨⟨_, hrun⟩, _, hverdicts, rfl⟩
  | atomic haction hrun hverdict => simpa [haction] using ⟨⟨_, hrun⟩, _, hverdict, rfl⟩
  | possessive haction hrun hexhausts => simpa [haction] using ⟨⟨_, hrun⟩, _, hexhausts, rfl⟩

/-- A state that does no more than its transition says consumes a character, or it asserts
something. -/
theorem Steps.of_plain {s : Automaton.State} {pos : Nat} {slots : Slots}
    {landing : Landing} (h : Steps t s pos slots landing) (hplain : s.action.isPlain) :
    (∃ set target, s.transition = some ⟨.oneOf set, target⟩ ∧
      landing = .ok ((t.spelled [set.test] pos).map (target, ·, slots))) ∨
    ∃ look target, s.transition = some ⟨.look look, target⟩ ∧
      landing = .ok (if look.holdsAt t.text pos then some (target, pos, slots) else none) := by
  cases h with
  | char _ htransition => exact .inl ⟨_, _, htransition, rfl⟩
  | look _ htransition => exact .inr ⟨_, _, htransition, rfl⟩
  | capture haction => simp [haction, Action.isPlain] at hplain
  | captureClose haction => simp [haction, Action.isPlain] at hplain
  | reference haction => simp [haction, Action.isPlain] at hplain
  | lookAhead haction => simp [haction, Action.isPlain] at hplain
  | lookBehind haction => simp [haction, Action.isPlain] at hplain
  | atomic haction => simp [haction, Action.isPlain] at hplain
  | possessive haction => simp [haction, Action.isPlain] at hplain

/-- A step leads to one state. -/
theorem Steps.unique (ht : t.Decided) {s : Automaton.State} {pos : Nat} {slots : Slots}
    {landing landing' : Landing} (h : Steps t s pos slots landing)
    (h' : Steps t s pos slots landing') (hpos : t.Allows pos) : landing = landing' := by
  have hlands := h.landsAt
  have hlands' := h'.landsAt
  unfold Setting.LandsAt at hlands hlands'
  cases haction : s.action with
  | none | text _ _ =>
    match htransition : s.transition with
    | none => simp [haction, htransition] at hlands
    | some ⟨.oneOf set, target⟩ => simp_all
    | some ⟨.look assertion, target⟩ => simp_all
  | capture slot body close dfa => simp_all
  | captureClose slot next => simp_all
  | reference key slot ignoreCase next => simp_all
  | lookAround direction negated id next =>
    cases direction with
    | ahead =>
      rw [haction] at hlands hlands'
      obtain ⟨f, v, hrun, hv, rfl⟩ := hlands
      obtain ⟨f', v', _, hv', rfl⟩ := hlands'
      rw [ht.verdicts id f _ pos slots v v' hrun
        ⟨Subject.isBoundary_size _, fun _ h => by cases h⟩ hpos.boundary
        (Subject.le_size_of_isBoundary hpos.boundary) hv hv']
    | behind =>
      rw [haction] at hlands hlands'
      obtain ⟨f, verdicts, hrun, hverdicts, rfl⟩ := hlands
      obtain ⟨f', verdicts', _, hverdicts', rfl⟩ := hlands'
      have hmap : (t.text.boundariesDownFrom pos).map verdicts =
          (t.text.boundariesDownFrom pos).map verdicts' := by
        refine List.map_congr_left fun start hstart => ?_
        obtain ⟨hboundary, hle⟩ := Subject.mem_boundariesDownFrom hstart
        exact ht.verdicts id f _ start slots _ _ hrun ⟨hpos.boundary, fun _ h => by cases h; rfl⟩
          hboundary hle (hverdicts start hstart) (hverdicts' start hstart)
      rw [hmap]
  | atomic id next =>
    rw [haction] at hlands hlands'
    obtain ⟨f, v, hrun, hv, rfl⟩ := hlands
    obtain ⟨f', v', _, hv', rfl⟩ := hlands'
    rw [ht.verdicts id f ⟨t.window.limit, none⟩ pos slots v v' hrun
      ⟨ht.limit, fun _ h => by cases h⟩ hpos.boundary hpos.le_limit hv hv']
  | possessive id min max next =>
    rw [haction] at hlands hlands'
    obtain ⟨f, result, hrun, hexhausts, rfl⟩ := hlands
    obtain ⟨f', result', _, hexhausts', rfl⟩ := hlands'
    rw [hexhausts.unique ht hrun hexhausts' hpos]
  | dfa dfa next => simp [haction] at hlands

/-- A state yields one verdict. -/
theorem Yields.unique (ht : t.Decided) {n n' : Nat} {its : Iterations} {id pos : Nat}
    {slots : Slots}
    {v v' : Verdict} (h : Yields t n its id pos slots v) (h' : Yields t n' its id pos slots v') :
    v = v' := by
  induction n generalizing n' its id pos slots v v' with
  | zero => cases h
  | succ n ih =>
    cases h with
    | idle hstate hback hopen =>
      cases h' with
      | idle => rfl
      | ways _ _ _ _ hstate' hback' =>
        obtain rfl := Option.some.inj (hstate.symm.trans hstate')
        obtain ⟨start, hstart, hne⟩ := hback' _ hback
        rw [hopen] at hstart
        exact absurd (Option.some.inj hstart).symm hne
    | @ways _ _ _ s _ _ landing verdicts _ _ hallows hstate hback haccept hstep hstuck hfault
        hland _ _ _ hepsilon _ hiteration =>
      cases h' with
      | idle hstate' hback' hopen =>
        obtain rfl := Option.some.inj (hstate.symm.trans hstate')
        obtain ⟨start, hstart, hne⟩ := hback _ hback'
        rw [hopen] at hstart
        exact absurd (Option.some.inj hstart).symm hne
      | @ways _ _ _ s' _ _ landing' verdicts' _ _ _ hstate' _ haccept' hstep' hstuck' hfault'
          hland' _ _ _ hepsilon' _ hiteration' =>
        obtain rfl := Option.some.inj (hstate.symm.trans hstate')
        refine congrArg firstOf (List.map_congr_left fun way hway => ?_)
        cases way with
        | accept => rw [haccept, haccept']
        | step =>
          obtain rfl := (hstep hway).unique ht (hstep' hway) hallows
          match landing with
          | .error fault => rw [hfault fault rfl, hfault' fault rfl]
          | .ok none => rw [hstuck rfl, hstuck' rfl]
          | .ok (some (next, stop, slots')) =>
            exact ih (hland next stop slots' hway rfl) (hland' next stop slots' hway rfl)
        | epsilon next loop =>
          cases loop with
          | none => exact ih (hepsilon next hway) (hepsilon' next hway)
          | some loop => exact ih (hiteration next loop hway) (hiteration' next loop hway)

end

end RegexEngine
