import RegexEngine.Proofs.Layout.Slots
import RegexEngine.Proofs.Layout.Territory
import RegexEngine.Proofs.Layout.Yielding
import RegexEngine.Proofs.Meaning.Conditions
import RegexEngine.Proofs.Search.Allowance
import RegexEngine.Proofs.Search.Steps

/-!
# The states of a pattern yield its meaning

Where a pattern lies in an automaton, its first state yields the first verdict of the
endings of the pattern, each followed by what the last state yields there.

* `Ending.judge` is the first verdict of endings.
* `Simulates` relates a layout and a meaning, with one lemma for each combinator.
* `Pattern.simulates` is the induction over a pattern.
-/

namespace RegexEngine

/-! ## Verdicts of endings -/

namespace Ending

/-- The first verdict of endings, where `next` says what follows an ending. -/
def judge (next : Nat → Groups → Verdict) (endings : List Ending) : Verdict :=
  firstOf (endings.map fun
    | .error fault => .error fault
    | .ok (stop, groups) => next stop groups)

variable (next : Nat → Groups → Verdict)

@[simp] theorem judge_nil : judge next [] = .failure := rfl

@[simp] theorem judge_cons_ok (stop : Nat) (groups : Groups) (endings : List Ending) :
    judge next (.ok (stop, groups) :: endings) = (next stop groups).orElse (judge next endings) :=
  rfl

@[simp] theorem judge_cons_error (fault : Fault) (endings : List Ending) :
    judge next (.error fault :: endings) = .error fault := rfl

theorem judge_append (endings endings' : List Ending) :
    judge next (endings ++ endings') = (judge next endings).orElse (judge next endings') := by
  simp only [judge, List.map_append, firstOf_append]

/-- What follows endings from which one goes on follows each of them. -/
theorem judge_andThen (endings : List Ending) (rest : Nat → Groups → List Ending) :
    judge next (andThen endings rest) =
      judge (fun stop groups => judge next (rest stop groups)) endings := by
  induction endings with
  | nil => rfl
  | cons ending endings ih =>
    have hcons : andThen (ending :: endings) rest = andThen [ending] rest ++
        andThen endings rest := by
      simp [andThen]
    rw [hcons, judge_append, ih]
    match ending with
    | .error fault => rfl
    | .ok (stop, groups) => simp [andThen]

end Ending

/-- What the end of a run gives. -/
def Window.verdict (window : Window) (keys : List GroupKey) (stop : Nat) (groups : Groups) :
    Verdict :=
  if window.mayEnd stop then .success stop (groups.slots keys) else .failure

/-! ## Simulation -/

/-- A setting in which patterns can be simulated. -/
structure Setting.Hosts (t : Setting) (keys : List GroupKey) : Prop where
  /-- The slots belong to the keys. -/
  keyed : t.automaton.Keyed keys
  /-- The limit is a boundary. -/
  limit : t.text.isBoundary t.window.limit
  /-- All states may be met. -/
  inside : ∀ id, t.inside id
  /-- Fragments give the endings of the patterns that lie in them. -/
  verdicts : ∀ (o : Options) (base : Nat) (p : Pattern) (id : Nat) (f : Automaton.Fragment)
    (lo hi : Nat),
    (p.layout o base).Isolated t.toSite id f lo hi →
      ∀ (window : Window) (pos : Nat) (groups : Groups),
      t.automaton.Knows groups → t.verdicts window id pos (groups.slots keys)
        (Ending.judge (window.verdict keys) (p.meaning t.text o base window.limit pos groups))

/-- Open iterations belong to loops around a layout and began here or before. -/
def Iterations.Around (its : Iterations) (lo pos : Nat) : Prop :=
  ∀ loop start, its loop = some start → loop < lo ∧ start ≤ pos

/-- What follows the exit of a layout. -/
def Follows (t : Setting) (keys : List GroupKey) (c : Nat) (its : Iterations) (pos exit : Nat)
    (next : Nat → Groups → Verdict) : Prop :=
  ∀ stop groups, t.Allows stop → pos ≤ stop → t.automaton.Knows groups →
    Yields t (t.allowance its stop + c) its exit stop (groups.slots keys) (next stop groups)

/-- Where a layout lies its first state yields the first verdict of the endings, each
followed by what the exit yields. -/
def Simulates (t : Setting) (keys : List GroupKey) (layout : Layout) (meaning : Meaning) : Prop :=
  ∀ rank lo hi start exit, layout t.toSite rank lo hi start exit →
    ∀ c its pos groups next, t.Allows pos → t.automaton.Knows groups → its.Around lo pos →
      Follows t keys c its pos exit next →
        Yields t (t.allowance its pos + (c + rank)) its start pos (groups.slots keys)
          (Ending.judge next (meaning t.window.limit pos groups))

section Combinators

variable {t : Setting} {keys : List GroupKey}

theorem Iterations.Around.mono {its : Iterations} {lo lo' pos pos' : Nat} (h : its.Around lo pos)
    (hlo : lo ≤ lo') (hpos : pos ≤ pos') : its.Around lo' pos' :=
  fun loop start hopen => ⟨by have := (h loop start hopen).1; omega,
    by have := (h loop start hopen).2; omega⟩

theorem Follows.at {c pos exit stop : Nat} {its : Iterations} {next : Nat → Groups → Verdict}
    (h : Follows t keys c its pos exit next) (hle : pos ≤ stop) :
    Follows t keys c its stop exit next :=
  fun stop' groups hallows hle' => h stop' groups hallows (hle.trans hle')

theorem Setting.Allows.le_size {pos : Nat} (h : t.Allows pos) : pos ≤ t.text.size :=
  Subject.le_size_of_isBoundary h.boundary

theorem simulates_skip (h : t.Hosts keys) : Simulates t keys .skip .skip := by
  rintro rank lo hi start exit ⟨-, ⟨rfl, rfl⟩ | ⟨hstate, rfl⟩⟩ c its pos groups next hallows
    hknows - hnext
  · have hyields := hnext pos groups hallows (Nat.le_refl _) hknows
    simpa [Meaning.skip] using hyields
  · have hyields := Yields.of_epsilons (h.inside _) hallows hstate (fun _ => next pos groups)
      (by simpa using hnext pos groups hallows (Nat.le_refl _) hknows)
    simpa [Meaning.skip, Nat.add_assoc] using hyields

theorem Simulates.seq {first second : Layout} {meaning meaning' : Meaning}
    (h : Simulates t keys first meaning) (h' : Simulates t keys second meaning') :
    Simulates t keys (first.seq second) (meaning.seq meaning') := by
  rintro rank lo hi start exit ⟨rank₁, rank₂, mid, between, rfl, hlo, hfirst, hsecond⟩
    c its pos groups next hallows hknows haround hnext
  have hyields := h _ _ _ _ _ hfirst (c + rank₂) its pos groups
    (fun stop groups => Ending.judge next (meaning' t.window.limit stop groups)) hallows hknows
    haround fun stop groups hallows' hle hknows' =>
      h' _ _ _ _ _ hsecond c its stop groups next hallows' hknows' (haround.mono hlo hle)
        (hnext.at hle)
  rw [Meaning.seq, Ending.judge_andThen]
  exact hyields.mono (by omega)

/-- Characters are consumed where they are spelled. -/
theorem chars_eq (ps : List (Char → Bool)) (pos : Nat) (groups : Groups) :
    Meaning.chars t.text ps t.window.limit pos groups =
      match t.spelled ps pos with
      | none => []
      | some stop => [.ok (stop, groups)] := by
  induction ps generalizing pos with
  | nil => rfl
  | cons p ps ih =>
    rw [Setting.spelled_cons, Meaning.chars, Meaning.seq, Meaning.char, Setting.next?]
    split
    · rfl
    · cases t.text.charAt? pos with
      | none => rfl
      | some c =>
        dsimp only [Option.bind_some]
        split
        · simpa [Ending.andThen] using ih (pos + c.utf8Size)
        · rfl

theorem char_eq (p : Char → Bool) (pos : Nat) (groups : Groups) :
    Meaning.char t.text p t.window.limit pos groups =
      match t.spelled [p] pos with
      | none => []
      | some stop => [.ok (stop, groups)] := by
  rw [← chars_eq, Meaning.chars, Meaning.seq, Meaning.chars, Ending.andThen]
  unfold Meaning.char Meaning.skip
  split
  · rfl
  · split
    · rfl
    · split <;> rfl

/-- What is spelled leads to what follows. -/
theorem lands_spelled (h : t.Hosts keys) {ps : List (Char → Bool)} {c pos target : Nat}
    {its : Iterations} {groups : Groups} {next : Nat → Groups → Verdict} (hallows : t.Allows pos)
    (hknows : t.automaton.Knows groups) (hnext : Follows t keys c its pos target next) :
    Lands t (t.allowance its pos + c) its
      (.ok ((t.spelled ps pos).map (target, ·, groups.slots keys)))
      (Ending.judge next (match t.spelled ps pos with
        | none => []
        | some stop => [.ok (stop, groups)])) := by
  cases hspelled : t.spelled ps pos with
  | none => rfl
  | some stop =>
    obtain ⟨hallows', hle⟩ := Setting.allows_of_spelled h.limit hallows hspelled
    have hyields := hnext stop groups hallows' hle hknows
    have hanti := allowance_anti its hle hallows'.le_size
    simpa [Lands] using hyields.mono (Nat.add_le_add_right hanti c)

/-- A state that consumes one character. -/
theorem yields_char (h : t.Hosts keys) {action : Action} (haction : action.isPlain)
    {set : CharSet} {start target : Nat}
    (hstate : t.automaton.states[start]? =
      some { action, transition := some ⟨.oneOf set, target⟩ })
    (htext : ∀ chars next, action = .text chars next → t.automaton.ReadsText
      { action, transition := some ⟨.oneOf set, target⟩ } chars next)
    {c pos : Nat} {its : Iterations} {groups : Groups} {next : Nat → Groups → Verdict}
    (hallows : t.Allows pos) (hknows : t.automaton.Knows groups)
    (hnext : Follows t keys c its pos target next) :
    Yields t (t.allowance its pos + (c + 1)) its start pos (groups.slots keys)
      (Ending.judge next (Meaning.char t.text set.test t.window.limit pos groups)) := by
  refine Yields.of_steps (n := t.allowance its pos + c) (h.inside _) hallows hstate rfl htext ?_
    (.char haction rfl) ?_
  · rintro slot body close rfl
    simp [Action.isPlain] at haction
  · rw [char_eq]
    exact lands_spelled h hallows hknows hnext

theorem simulates_char (h : t.Hosts keys) (set : CharSet) :
    Simulates t keys (.step (.oneOf set)) (.char t.text set.test) := by
  rintro rank lo hi start exit ⟨-, rfl, hstate⟩ c its pos groups next hallows hknows - hnext
  exact yields_char h rfl hstate (fun _ _ h => by cases h) hallows hknows hnext

theorem simulates_look (h : t.Hosts keys) (look : Look) :
    Simulates t keys (.step (.look look)) (.look t.text look) := by
  rintro rank lo hi start exit ⟨-, rfl, hstate⟩ c its pos groups next hallows hknows - hnext
  refine Yields.of_steps (n := t.allowance its pos + c) (h.inside _) hallows hstate rfl
    (fun _ _ h => by cases h) (fun _ _ _ h => by cases h)
    (.look rfl rfl) ?_
  unfold Meaning.look
  by_cases hholds : look.holdsAt t.text pos
  · simpa [hholds, Lands] using hnext pos groups hallows (Nat.le_refl _) hknows
  · simp [hholds, Lands]

theorem simulates_links (h : t.Hosts keys) (sets : List CharSet) :
    Simulates t keys (.links sets) (.chars t.text (sets.map CharSet.test)) := by
  induction sets with
  | nil =>
    rintro rank lo hi start exit ⟨rfl, rfl, rfl⟩
    exact simulates_skip h _ _ _ _ _ ⟨rfl, .inl ⟨rfl, rfl⟩⟩
  | cons set sets ih => exact (simulates_char h set).seq ih

/-- A chain of states is a layout of its characters. -/
theorem links_of_chain {site : Site} {chars : List Char} {start exit : Nat} (lo : Nat)
    (h : site.automaton.Chain chars start exit) :
    Layout.links (chars.map CharSet.ofChar) site chars.length lo lo start exit := by
  induction chars generalizing start with
  | nil => exact ⟨rfl, rfl, h⟩
  | cons c chars ih =>
    obtain ⟨mid, hstate, hrest⟩ := h
    exact ⟨1, chars.length, lo, mid, by simp [Nat.add_comm], Nat.le_refl _,
      ⟨rfl, rfl, hstate⟩, ih hrest⟩

theorem simulates_text (h : t.Hosts keys) (ignoreCase : Bool) (cs : List Char) :
    Simulates t keys (.text ignoreCase cs)
      (.chars t.text (cs.map fun c => (Automaton.Build.charSet ignoreCase c).test)) := by
  intro rank lo hi start exit hlayout c its pos groups next hallows hknows haround hnext
  have hmap (ignoreCase : Bool) (cs : List Char) :
      cs.map (fun c => (Automaton.Build.charSet ignoreCase c).test) =
        (cs.map (Automaton.Build.charSet ignoreCase)).map CharSet.test := by
    rw [List.map_map]
    rfl
  unfold Layout.text at hlayout
  split at hlayout
  · subst cs
    exact simulates_skip h _ _ _ _ _ hlayout c its pos groups next hallows hknows haround hnext
  split at hlayout
  · subst ignoreCase
    rw [hmap]
    exact simulates_links h _ _ _ _ _ _ hlayout c its pos groups next hallows hknows haround hnext
  · obtain rfl : ignoreCase = false := by simpa using ‹¬ignoreCase = true›
    obtain ⟨rfl, rfl, s, hstate, d, rest, mid, rfl, hchain, rfl⟩ := hlayout
    have hrest :=
      simulates_links h (rest.map CharSet.ofChar) _ _ _ _ _ (links_of_chain lo hchain) c its
    have hfollows : Follows t keys (c + rest.length) its pos mid fun stop groups =>
        Ending.judge next (Meaning.chars t.text ((rest.map CharSet.ofChar).map CharSet.test)
          t.window.limit stop groups) :=
      fun stop groups hallows' hle hknows' => hrest stop groups next hallows' hknows'
        (haround.mono (Nat.le_refl _) hle) (hnext.at hle)
    have hyields := yields_char h rfl hstate
      (fun chars next h => by cases h; exact ⟨d, rest, mid, rfl, hchain, rfl⟩) hallows hknows
        hfollows
    rw [List.map_cons, Meaning.chars, Meaning.seq, Ending.judge_andThen, hmap]
    exact hyields

theorem simulates_reference (h : t.Hosts keys) (ignoreCase : Bool) (key : GroupKey) :
    Simulates t keys (.reference ignoreCase key) (.reference t.text ignoreCase key) := by
  rintro rank lo hi start exit ⟨-, rfl, hstate⟩ c its pos groups next hallows hknows - hnext
  refine Yields.of_steps (n := t.allowance its pos + c) (h.inside _) hallows hstate rfl
    (fun _ _ h => by cases h) (fun _ _ _ h => by cases h)
    (.reference rfl ?_) ?_
  · intro id hid
    rw [Groups.size_slots]
    exact lt_length_of_keyed h.keyed hid
  · have hspan :
      ((t.automaton.slot? key).bind fun id => (groups.slots keys)[id]?.join.bind Slot.span) =
        (groups key).bind Slot.span := by
      cases hkey : t.automaton.slot? key with
      | none => rw [hknows key hkey]; rfl
      | some id => rw [Option.bind_some, Groups.getElem?_slots ((h.keyed key id).1 hkey)]; rfl
    unfold Setting.reread Meaning.reference
    rw [hspan]
    cases (groups key).bind Slot.span with
    | none => rfl
    | some span =>
      obtain ⟨first, last⟩ := span
      dsimp only
      cases t.text.slice first last with
      | error fault => rfl
      | ok cs =>
        dsimp only [Except.map]
        simp only [Trial.sameFolded_eq]
        rw [Meaning.again, chars_eq]
        exact lands_spelled h hallows hknows hnext

theorem Simulates.capture (h : t.Hosts keys) {body : Layout} {meaning : Meaning} (key : GroupKey)
    (hbordered : body.Bordered) (hbody : Simulates t keys body meaning) :
    Simulates t keys (.capture key body) (.capture key meaning) := by
  rintro rank lo hi start exit
    ⟨inner, slot, first, close, rfl, htracked, hslot, hstate, hlayout, hclosed⟩
    c its pos groups next hallows hknows haround hnext
  have hsize (groups : Groups) : slot < (groups.slots keys).size := by
    rw [Groups.size_slots]
    exact lt_length_of_keyed h.keyed hslot
  have hclose : Follows t keys (c + 1) its pos close
      fun stop groups => next stop (groups.closed key stop) := by
    intro stop groups hallows' hle hknows'
    refine Yields.of_steps (n := t.allowance its stop + c) (h.inside _) hallows' hclosed rfl
      (fun _ _ h => by cases h) (fun _ _ _ h => by cases h)
      (.captureClose rfl (hsize groups) htracked) ?_
    rw [Groups.slots_closed h.keyed hslot]
    exact hnext stop _ hallows' hle (hknows'.set hslot _)
  have hopened : t.automaton.Knows (groups.opened key pos) := hknows.set hslot _
  have hyields := hbody _ _ _ _ _ hlayout (c + 1) its pos (groups.opened key pos) _ hallows hopened
    haround hclose
  have hcount : t.allowance its pos + (c + (inner + 2)) =
      t.allowance its pos + (c + 1 + inner) + 1 := by omega
  rw [hcount]
  refine Yields.of_steps (n := t.allowance its pos + (c + 1 + inner))
    (h.inside _) hallows hstate rfl (fun _ _ h => by cases h) ?_ (.capture rfl
      (hsize groups) htracked) ?_
  · intro slot' body' close' haction
    cases haction
    refine ⟨?_, fun stop hallows' hle => ?_⟩
    · obtain ⟨inside, hterritory, hfirst⟩ := hbordered _ _ _ _ _ _ hlayout
      exact ⟨⟨inside, lo, hterritory, hfirst, fun loop start hopen => (haround loop start hopen).1⟩,
        fun loop start hopen => (haround loop start hopen).2⟩
    · have hanti := allowance_anti its hle hallows'.le_size
      rw [Groups.slots_opened h.keyed hslot]
      exact ⟨_, (hclose stop _ hallows' hle hopened).mono (by omega)⟩
  · rw [Meaning.capture, Ending.judge_andThen, Groups.slots_opened h.keyed hslot]
    simpa [Lands] using hyields

end Combinators

/-! ## Fragments -/

/-- The verdict of the first ending. -/
def Ending.first (keys : List GroupKey) (endings : List Ending) : Verdict :=
  judge (fun stop groups => .success stop (groups.slots keys)) endings

section Fragments

variable {t : Setting} {keys : List GroupKey}

theorem judge_filter_endsHere (pos : Nat) (endings : List Ending) :
    Ending.judge (Window.verdict ⟨pos, some pos⟩ keys) endings =
      Ending.first keys (endings.filter (Meaning.endsHere pos)) := by
  induction endings with
  | nil => rfl
  | cons ending endings ih =>
    match ending with
    | .error fault => rfl
    | .ok (stop, groups) =>
      rw [Ending.judge_cons_ok, ih]
      by_cases hstop : pos = stop
      · subst hstop
        simp [Window.verdict, Window.mayEnd, Meaning.endsHere, Ending.first]
      · have hstop' : ¬stop = pos := fun h => hstop h.symm
        simp [Window.verdict, Window.mayEnd, Meaning.endsHere, hstop, hstop']

theorem first_flatMap (starts : List Nat) (endings : Nat → List Ending) :
    Ending.first keys (starts.flatMap endings) =
      firstOf (starts.map fun start => Ending.first keys (endings start)) := by
  induction starts with
  | nil => rfl
  | cons start starts ih =>
    rw [List.flatMap_cons, Ending.first, Ending.judge_append, List.map_cons, firstOf_cons]
    exact congrArg _ ih

/-- After looking the groups are those of the first ending, or those from before. -/
theorem lands_looking {c pos exit : Nat} {its : Iterations} {groups : Groups}
    {next : Nat → Groups → Verdict} {endings : List Ending} (negated : Bool)
    (hallows : t.Allows pos) (hknows : t.automaton.Knows groups)
    (hendings : ∀ stop groups, .ok (stop, groups) ∈ endings → t.automaton.Knows groups)
    (hnext : Follows t keys c its pos exit next) :
    Lands t (t.allowance its pos + c) its
      ((Ending.first keys endings).looking negated exit pos (groups.slots keys))
      (Ending.judge next (Meaning.looking negated endings pos groups)) := by
  have hgo (groups : Groups) (hknows : t.automaton.Knows groups) :
      Yields t (t.allowance its pos + c) its exit pos (groups.slots keys)
        (Ending.judge next [.ok (pos, groups)]) := by
    simpa using hnext pos groups hallows (Nat.le_refl _) hknows
  match endings with
  | [] =>
    cases negated with
    | true => exact hgo groups hknows
    | false => rfl
  | .error fault :: endings => rfl
  | .ok (stop, groups') :: endings =>
    cases negated with
    | true => rfl
    | false => exact hgo groups' (hendings stop groups' List.mem_cons_self)

variable {body : Layout} {meaning : Meaning} {site : Site}

/-- A fragment that may be run, whose body has a meaning. -/
structure Fragmentary (t : Setting) (keys : List GroupKey) (meaning : Meaning) (id : Nat)
    (f : Automaton.Fragment) : Prop where
  /-- It may be run. -/
  mayRun : t.MayRun id f
  /-- It gives the endings of its body. -/
  verdicts : ∀ (window : Window) (pos : Nat) (groups : Groups), t.automaton.Knows groups →
    t.verdicts window id pos (groups.slots keys)
      (Ending.judge (window.verdict keys) (meaning window.limit pos groups))
  /-- The endings lie where they should, and they open no unknown group. -/
  onCourse : meaning.OnCourse t.text (.keeping (fun _ => True) t.automaton.Knows)

theorem Fragmentary.within {id : Nat} {f : Automaton.Fragment}
    (h : Fragmentary t keys meaning id f) :
    meaning.Within t.text True t.automaton.Knows :=
  h.onCourse.within

theorem Fragmentary.first {id : Nat} {f : Automaton.Fragment} (h : Fragmentary t keys meaning id f)
    (limit pos : Nat) {groups : Groups} (hknows : t.automaton.Knows groups) :
    t.verdicts ⟨limit, none⟩ id pos (groups.slots keys)
      (Ending.first keys (meaning limit pos groups)) :=
  h.verdicts ⟨limit, none⟩ pos groups hknows

/-- A layout whose fragments have a meaning. -/
def HasMeaning (t : Setting) (keys : List GroupKey) (body : Layout) (meaning : Meaning) : Prop :=
  ∀ id f lo hi, body.Isolated t.toSite id f lo hi → Fragmentary t keys meaning id f

theorem simulates_lookAround (h : t.Hosts keys) (hbody : HasMeaning t keys body meaning)
    (direction : Direction) (negated : Bool) :
    Simulates t keys (.around body (.lookAround direction negated))
      (.lookAround t.text direction negated meaning) := by
  rintro rank lo hi start exit ⟨id, f, rfl, hstate, hisolated⟩ c its pos groups next hallows
    hknows - hnext
  have hfragment := hbody id f lo hi hisolated
  cases direction with
  | ahead =>
    refine Yields.of_steps (n := t.allowance its pos + c) (h.inside _) hallows hstate rfl
      (fun _ _ h => by cases h) (fun _ _ _ h => by cases h)
      (.lookAhead rfl hfragment.mayRun (hfragment.first _ _ hknows)) ?_
    refine lands_looking negated hallows hknows (fun stop groups' hmem => ?_) hnext
    exact (hfragment.within _ _ _ (Subject.isBoundary_size _) hallows.boundary
      hallows.le_size hknows _ hmem).2.2.2
  | behind =>
    refine Yields.of_steps (n := t.allowance its pos + c) (h.inside _) hallows hstate rfl
      (fun _ _ h => by cases h) (fun _ _ _ h => by cases h)
      (.lookBehind rfl hfragment.mayRun fun start _ => hfragment.verdicts ⟨pos, some pos⟩ start
        _ hknows)
      ?_
    simp only [judge_filter_endsHere, ← first_flatMap]
    refine lands_looking negated hallows hknows (fun stop groups' hmem => ?_) hnext
    obtain ⟨start, hstart, hmem⟩ := List.mem_flatMap.1 hmem
    obtain ⟨hboundary, hle⟩ := Subject.mem_boundariesDownFrom hstart
    exact (hfragment.within _ _ _ hallows.boundary hboundary hle hknows _
      (List.mem_of_mem_filter hmem)).2.2.2

/-- Where a fragment ends a run goes on. -/
theorem yields_of_within {e : Nat × Groups} {c pos exit : Nat} {its : Iterations}
    {next : Nat → Groups → Verdict}
    (h : Ending.Within t.text True t.automaton.Knows t.window.limit pos (.ok e))
    (hnext : Follows t keys c its pos exit next) :
    Yields t (t.allowance its pos + c) its exit e.1 (e.2.slots keys) (next e.1 e.2) := by
  obtain ⟨hboundary, hle, hlimit, hknows⟩ := h
  have hallows : t.Allows e.1 := ⟨hboundary, hlimit⟩
  have hanti := allowance_anti its hle hallows.le_size
  exact (hnext e.1 e.2 hallows hle hknows).mono (Nat.add_le_add_right hanti c)

theorem simulates_atomic (h : t.Hosts keys) (hbody : HasMeaning t keys body meaning) :
    Simulates t keys (.around body .atomic) meaning.atomic := by
  rintro rank lo hi start exit ⟨id, f, rfl, hstate, hisolated⟩ c its pos groups next hallows
    hknows - hnext
  have hfragment := hbody id f lo hi hisolated
  refine Yields.of_steps (n := t.allowance its pos + c) (h.inside _) hallows hstate rfl
    (fun _ _ h => by cases h) (fun _ _ _ h => by cases h)
    (.atomic rfl hfragment.mayRun (hfragment.first _ _ hknows)) ?_
  have hwithin := hfragment.within _ _ _ h.limit hallows.boundary hallows.le_limit hknows
  unfold Meaning.atomic
  match meaning t.window.limit pos groups, hwithin with
  | [], _ => rfl
  | .error fault :: endings, _ => rfl
  | .ok (stop, groups') :: endings, hwithin =>
    simpa [Lands, Ending.first, Verdict.landing] using
      yields_of_within (hwithin _ List.mem_cons_self) hnext

/-- Possessive repetition of a fragment takes first endings one after the other. -/
theorem exhausts_of_exhaust (h : t.Hosts keys) {id : Nat} {f : Automaton.Fragment}
    (hfragment : Fragmentary t keys meaning id f) {max : Option Nat} {count pos : Nat}
    {groups : Groups} (hallows : t.Allows pos) (hknows : t.automaton.Knows groups) :
    Exhausts t id max count pos (groups.slots keys)
      ((meaning.exhaust t.text t.window.limit max count pos groups).map
        fun (count, stop, groups) => (count, stop, groups.slots keys)) := by
  have hfirst {pos : Nat} {groups : Groups} (hknows : t.automaton.Knows groups) {e : Ending}
      (hhead : (meaning t.window.limit pos groups).head? = some e) :
      t.verdicts ⟨t.window.limit, none⟩ id pos (groups.slots keys) (Ending.first keys [e]) := by
    have hverdict := hfragment.first t.window.limit pos hknows
    obtain ⟨others, hothers⟩ := List.head?_eq_some_iff.1 hhead
    rw [hothers] at hverdict
    match e with
    | .error fault => exact hverdict
    | .ok (stop, groups') => exact hverdict
  fun_induction Meaning.exhaust t.text meaning t.window.limit max count pos groups with
  | case1 count pos groups hmax => exact .maximum hmax
  | case2 count pos groups hmax hnone =>
    have hverdict := hfragment.first t.window.limit pos hknows
    rw [List.head?_eq_none_iff.1 hnone] at hverdict
    exact .failure hmax hverdict
  | case3 count pos groups hmax fault hsome => exact .fault hmax (hfirst hknows hsome)
  | case4 count pos groups hmax stop groups' hsome hlt ih =>
    obtain ⟨hboundary, hle, hlimit, hknows'⟩ := hfragment.within _ _ _ h.limit hallows.boundary
      hallows.le_limit hknows _ (List.mem_of_mem_head? hsome)
    exact .more hmax (hfirst hknows hsome) hlt ⟨hboundary, hlimit⟩ (ih ⟨hboundary, hlimit⟩ hknows')
  | case5 count pos groups hmax stop groups' hsome hlt =>
    exact .empty hmax (hfirst hknows hsome) hlt

theorem simulates_possessive (h : t.Hosts keys) (hbody : HasMeaning t keys body meaning) (min : Nat)
    (max : Option Nat) :
    Simulates t keys (.around body (.possessive · min max))
      (.possessive t.text meaning min max) := by
  rintro rank lo hi start exit ⟨id, f, rfl, hstate, hisolated⟩ c its pos groups next hallows
    hknows - hnext
  have hfragment := hbody id f lo hi hisolated
  refine Yields.of_steps (n := t.allowance its pos + c) (h.inside _) hallows hstate rfl
    (fun _ _ h => by cases h) (fun _ _ _ h => by cases h)
    (.possessive rfl hfragment.mayRun (exhausts_of_exhaust h hfragment hallows hknows)) ?_
  unfold Meaning.possessive
  cases hresult : meaning.exhaust t.text t.window.limit max 0 pos groups with
  | error fault => rfl
  | ok result =>
    obtain ⟨count, stop, groups'⟩ := result
    have hlast := hfragment.onCourse.exhaust h.limit max 0 groups hallows.boundary hallows.le_limit
    rw [hresult] at hlast
    obtain ⟨hboundary, hle, hlimit, hleads⟩ := hlast
    have hwithin : Ending.Within t.text True t.automaton.Knows t.window.limit pos
        (.ok (stop, groups')) :=
      ⟨hboundary, hle, hlimit, hleads hknows⟩
    dsimp only [Except.map]
    split
    · simpa [Lands] using yields_of_within (e := (stop, groups')) hwithin hnext
    · rfl

end Fragments

/-! ## Repetition -/

section Repetition

variable {t : Setting} {keys : List GroupKey} {body : Layout} {meaning : Meaning}

theorem Simulates.copies (h : t.Hosts keys) (hbody : Simulates t keys body meaning) (n : Nat) :
    Simulates t keys (.copies body n) (.copies meaning n) := by
  induction n with
  | zero => exact simulates_skip h
  | succ n ih => exact hbody.seq ih

theorem Simulates.optionalCopies (h : t.Hosts keys) (hbody : Simulates t keys body meaning)
    (lazy : Bool) (n : Nat) :
    Simulates t keys (.optionalCopies body lazy n) (.optionalCopies meaning lazy n) := by
  induction n with
  | zero => exact simulates_skip h
  | succ n ih =>
    rintro rank lo hi start exit ⟨rank', first, rfl, hne, hstate, hseq⟩ c its pos groups
      next hallows hknows haround hnext
    have hmore := (hbody.seq ih) _ _ _ _ _ hseq c its pos groups next hallows hknows haround hnext
    have hstop := (hnext pos groups hallows (Nat.le_refl _) hknows).mono
      (Nat.add_le_add_left (Nat.le_add_right c rank') _)
    let v : Nat → Verdict := fun target =>
      if target = first then
        Ending.judge next ((meaning.seq (meaning.optionalCopies lazy n)) t.window.limit pos groups)
      else next pos groups
    have hyields := Yields.of_epsilons (h.inside _) hallows hstate v (by
      intro target htarget
      rcases List.mem_cons.1 htarget with rfl | htarget
      · simpa [v] using hmore
      · obtain rfl := List.mem_singleton.1 htarget
        simpa [v, Ne.symm hne] using hstop)
    have hresult : firstOf ((if lazy then [first, exit].reverse else [first, exit]).map v) =
        Ending.judge next (meaning.optionalCopies lazy (n + 1) t.window.limit pos groups) := by
      unfold Meaning.optionalCopies Meaning.choose
      cases lazy <;> simp [v, Ne.symm hne, Meaning.either, Meaning.skip, Ending.judge_append]
    rw [hresult] at hyields
    exact hyields

/-- The endings of a loop. -/
theorem loop_eq (text : Subject) (body : Meaning) (lazy : Bool) (limit pos : Nat)
    (groups : Groups) :
    Meaning.loop text body lazy limit pos groups =
      Meaning.choose lazy
        (fun limit pos groups => Ending.andThen (body limit pos groups) fun stop groups =>
          if pos < stop ∧ stop ≤ text.size then
            Meaning.loop text body lazy limit stop groups else [])
        .skip limit pos groups := by
  rw [Meaning.loop]
  unfold Meaning.choose
  cases lazy <;> simp [Meaning.either, Meaning.skip]

theorem Simulates.loop (h : t.Hosts keys) (hbody : Simulates t keys body meaning) (lazy : Bool) :
    Simulates t keys (.loop body lazy) (.loop t.text meaning lazy) := by
  rintro rank lo hi start exit
    ⟨inner, first, back, rfl, hinner, hlohi, hlt, hguarded, hne, hstate, hlayout, hback⟩
    c its pos groups next hallows hknows haround hnext
  have hclosed : its lo = none := by
    cases hopen : its lo with
    | none => rfl
    | some start => exact absurd (haround lo start hopen).1 (Nat.lt_irrefl _)
  -- Each iteration ends further on, where the head yields the rest of the loop.
  induction hn : t.text.size - pos using Nat.strongRecOn generalizing pos groups with
  | ind n ih =>
    have haround' : (its.set lo (some pos)).Around (lo + 1) pos := by
      intro loop began hopen
      by_cases hloop : loop = lo
      · subst hloop
        rw [Iterations.set_self] at hopen
        cases hopen
        exact ⟨Nat.lt_succ_self _, Nat.le_refl _⟩
      · rw [Iterations.set_ne hloop] at hopen
        exact ⟨Nat.lt_succ_of_lt (haround loop began hopen).1, (haround loop began hopen).2⟩
    have hends : Follows t keys (c + 1) (its.set lo (some pos)) pos back fun stop groups =>
        Ending.judge next (if pos < stop ∧ stop ≤ t.text.size then
          meaning.loop t.text lazy t.window.limit stop groups else []) := by
      intro stop groups' hallows' hle hknows'
      dsimp only
      by_cases hstop : pos < stop
      · rw [if_pos ⟨hstop, hallows'.le_size⟩]
        have hrest := ih (t.text.size - stop)
          (by have := hallows'.le_size; omega) stop groups' hallows'
          hknows' (haround.mono (Nat.le_refl _) hle) (hnext.at hle) rfl
        have hne : pos ≠ stop := by omega
        have hsize := allowance_close hlt hclosed hne
        exact (Yields.of_back (h.inside _) hallows' hback hclosed (by omega) hrest).mono (by omega)
      · obtain rfl : stop = pos := by omega
        rw [if_neg (by omega)]
        exact (Yields.idle (n := 0) hback rfl (Iterations.set_self _ _ _)).mono (by omega)
    have hmore := hbody _ _ _ _ _ hlayout (c + 1)
      (its.set lo (some pos)) pos groups _ hallows hknows haround' hends
    have hstop := hnext pos groups hallows (Nat.le_refl _) hknows
    have hsize : t.allowance (its.set lo (some pos)) pos + _ = t.allowance its pos :=
      allowance_enter hlt hclosed
    have hhead := Yields.of_head (n := t.allowance its pos + c) (h.inside _) hallows hstate hne
      hguarded hlt hclosed (hmore.mono (by omega)) hstop
    rw [loop_eq]
    rw [← Ending.judge_andThen, Nat.add_assoc] at hhead
    cases lazy with
    | true => simpa [Meaning.choose, Meaning.either, Meaning.skip] using hhead
    | false => simpa [Meaning.choose, Meaning.either, Meaning.skip, Ending.judge_append] using hhead

theorem Simulates.repeated (h : t.Hosts keys) (hbody : Simulates t keys body meaning) (min : Nat)
    (max : Option Nat) (lazy : Bool) :
    Simulates t keys (.repeated body min max lazy) (.repeated t.text meaning min max lazy) := by
  cases max with
  | none => exact (hbody.copies h min).seq (hbody.loop h lazy)
  | some max => exact (hbody.copies h min).seq (hbody.optionalCopies h lazy _)

end Repetition

/-! ## Alternatives -/

/-- Where alternatives lie their first states yield the verdicts of the endings. -/
def SimulatesAny (t : Setting) (keys : List GroupKey) (branches : Layout.Branches)
    (meaning : Meaning) : Prop :=
  ∀ starts rank lo hi exit, branches t.toSite starts rank lo hi exit →
    ∀ c its pos groups next, t.Allows pos → t.automaton.Knows groups → its.Around lo pos →
      Follows t keys c its pos exit next → ∃ v : Nat → Verdict,
        (∀ start ∈ starts,
          Yields t (t.allowance its pos + (c + rank)) its start pos (groups.slots keys) (v start)) ∧
        firstOf (starts.map v) = Ending.judge next (meaning t.window.limit pos groups)

section Alternatives

variable {t : Setting} {keys : List GroupKey}

theorem simulatesAny_nil : SimulatesAny t keys .nil fun _ _ _ => [] := by
  rintro starts rank lo hi exit ⟨rfl, -, -⟩ c its pos groups next - - - -
  exact ⟨fun _ => .failure, by simp, rfl⟩

theorem Simulates.cons {branch : Layout} {branches : Layout.Branches} {meaning meaning' : Meaning}
    (h : Simulates t keys branch meaning) (h' : SimulatesAny t keys branches meaning') :
    SimulatesAny t keys (.cons branch branches) (meaning.either meaning') := by
  rintro starts rank lo hi exit
    ⟨rank₁, rank₂, mid, first, others, rfl, hnew, rfl, hlo, hbranch, hbranches⟩
    c its pos groups next hallows hknows haround hnext
  have hfirst := h _ _ _ _ _ hbranch c its pos groups next hallows hknows haround hnext
  obtain ⟨v, hothers, hv⟩ := h' _ _ _ _ _ hbranches c its pos groups next hallows hknows
    (haround.mono hlo (Nat.le_refl _)) hnext
  have hsame {start : Nat} (hstart : start ∈ others) : start ≠ first :=
    fun heq => hnew (heq ▸ hstart)
  refine ⟨fun start => if start = first then
    Ending.judge next (meaning t.window.limit pos groups) else v start, ?_, ?_⟩
  · intro start hstart
    dsimp only
    rcases List.mem_cons.1 hstart with rfl | hstart
    · rw [if_pos rfl]
      exact hfirst.mono (by omega)
    · rw [if_neg (hsame hstart)]
      exact (hothers start hstart).mono (by omega)
  · have hmap : others.map (fun start => if start = first then
        Ending.judge next (meaning t.window.limit pos groups) else v start) = others.map v :=
      List.map_congr_left fun start hstart => if_neg (hsame hstart)
    rw [List.map_cons, firstOf_cons, hmap, hv, if_pos rfl, Meaning.either, Ending.judge_append]

theorem SimulatesAny.alt (h : t.Hosts keys) {branches : Layout.Branches} {meaning : Meaning}
    (hbranches : SimulatesAny t keys branches meaning) :
    Simulates t keys (.alt branches) meaning := by
  rintro rank lo hi start exit ⟨rank', starts, rfl, hstate, hlayout⟩ c its pos groups next hallows
    hknows haround hnext
  obtain ⟨v, hstarts, hv⟩ :=
    hbranches _ _ _ _ _ hlayout c its pos groups next hallows hknows haround hnext
  have hyields := Yields.of_epsilons (h.inside _) hallows hstate v hstarts
  rw [← hv]
  exact hyields

end Alternatives

/-! ## Patterns -/

namespace Pattern

variable {t : Setting} {keys : List GroupKey}

/-- The fragments of a pattern have its meaning. -/
theorem hasMeaning (h : t.Hosts keys) (o : Options) (base : Nat) (p : Pattern) :
    HasMeaning t keys (layout o base p) (meaning t.text o base p) := by
  intro id f lo hi hisolated
  obtain ⟨rank, -, hbody⟩ := hisolated.body
  exact
    { mayRun := ⟨hisolated.fragment, hisolated.nested, hisolated.tracked, hisolated.own⟩
      verdicts := h.verdicts o base p id f lo hi hisolated
      onCourse := onCourse_of_layout hbody t.text }

mutual

/-- Where a pattern lies in an automaton its first state yields its meaning. -/
theorem simulates (h : t.Hosts keys) (o : Options) (base : Nat) :
    (p : Pattern) → Simulates t keys (layout o base p) (meaning t.text o base p)
  | text cs => simulates_text h _ cs
  | concat parts => simulatesAll h o base parts
  | alt branches => (simulatesAny h o base branches).alt h
  | repeated body min max mode => by
    unfold layout meaning
    split
    · exact simulates_possessive h (hasMeaning h o base body) min max
    · exact (simulates h o base body).repeated h min max _
  | oneOf set => simulates_char h _
  | assert assertion => simulates_look h _
  | withFlags flags body => simulates h (o.overlay flags) base body
  | lookAround direction negated body =>
    simulates_lookAround h (hasMeaning h o base body) direction negated
  | atomic body => simulates_atomic h (hasMeaning h o base body)
  | capture (some name) body => (simulates h o base body).capture h _ (bordered_layout o base body)
  | capture none body =>
    (simulates h o (base + 1) body).capture h _ (bordered_layout o (base + 1) body)
  | reference group => simulates_reference h _ group

theorem simulatesAll (h : t.Hosts keys) (o : Options) (base : Nat) :
    (parts : List Pattern) → Simulates t keys (layoutAll o base parts)
    (meaningAll t.text o base parts)
  | [] => simulates_skip h
  | part :: parts =>
    (simulates h o base part).seq (simulatesAll h o (base + numbered part) parts)

theorem simulatesAny (h : t.Hosts keys) (o : Options) (base : Nat) :
    (branches : List Pattern) →
      SimulatesAny t keys (layoutAny o base branches) (meaningAny t.text o base branches)
  | [] => simulatesAny_nil
  | branch :: branches =>
    (simulates h o base branch).cons (simulatesAny h o (base + numbered branch) branches)

end

end Pattern

end RegexEngine
