import RegexEngine.Proofs.Layout.Compile
import RegexEngine.Proofs.Rejection

/-!
# The table of groups

While a pattern is compiled each group that is opened for the first time is entered in a table
and gets the next slot.  The table of a whole pattern depends only on which groups the pattern
opens, and in which order.

* `GroupTable` is the table, and `GroupTable.enter` enters a group.
* `Build.Notes` says which groups a step of the compilation enters, and it is kept by whatever
  steps are made of.
* `Automaton.table_compile` is about whole patterns.
-/

namespace RegexEngine

/-- The slots of groups. -/
structure GroupTable where
  /-- The number of slots. -/
  slotCount : Nat := 1
  /-- The slots of the groups that have a number. -/
  groups : Array Nat := #[0]
  /-- The slots of the groups that have a name. -/
  names : List (String × Nat) := []

namespace GroupTable

/-- The slot of a group. -/
def slot? (t : GroupTable) : GroupKey → Option Nat
  | .index n => t.groups[n]?
  | .name s => t.names.lookup s

/-- A group is opened.  If it is new it gets the next slot. -/
def enter (t : GroupTable) (key : GroupKey) : GroupTable :=
  if (t.slot? key).isSome then t
  else
    match key with
    | .index _ => { t with slotCount := t.slotCount + 1, groups := t.groups.push t.slotCount }
    | .name s => { t with slotCount := t.slotCount + 1, names := t.names ++ [(s, t.slotCount)] }

/-- Groups are opened, one after the other. -/
def enterAll (t : GroupTable) (keys : List GroupKey) : GroupTable :=
  keys.foldl enter t

variable {t : GroupTable} {key key' : GroupKey} {keys keys' : List GroupKey} {base : Nat}

theorem enter_of_isSome (h : (t.slot? key).isSome) : t.enter key = t :=
  if_pos h

theorem enterAll_append (t : GroupTable) (keys keys' : List GroupKey) :
    t.enterAll (keys ++ keys') = (t.enterAll keys).enterAll keys' :=
  List.foldl_append

/-- Groups that have slots are not entered again. -/
theorem enterAll_of_isSome (h : ∀ key ∈ keys, (t.slot? key).isSome) : t.enterAll keys = t := by
  induction keys with
  | nil => rfl
  | cons key keys ih =>
    show (t.enter key).enterAll keys = t
    rw [enter_of_isSome (h key List.mem_cons_self)]
    exact ih fun key' hkey' => h key' (List.mem_cons_of_mem _ hkey')

/-! ## Numbers -/

theorem isSome_slot?_index {n : Nat} : (t.slot? (.index n)).isSome ↔ n < t.groups.size := by
  simp [slot?]

theorem size_enter_name (t : GroupTable) (s : String) :
    (t.enter (.name s)).groups.size = t.groups.size := by
  unfold enter
  split <;> rfl

/-- The next number is the only one that may be new. -/
theorem size_enter_index (h : base < t.groups.size) :
    (t.enter (.index (base + 1))).groups.size = max t.groups.size (base + 2) := by
  unfold enter
  simp only [isSome_slot?_index]
  split
  · omega
  · simp only [Array.size_push]
    omega

theorem size_le_size_enter (t : GroupTable) (key : GroupKey) :
    t.groups.size ≤ (t.enter key).groups.size := by
  unfold enter
  split
  · exact Nat.le_refl _
  · cases key with
    | index n => simp
    | name s => exact Nat.le_refl _

theorem size_le_size_enterAll (t : GroupTable) (keys : List GroupKey) :
    t.groups.size ≤ (t.enterAll keys).groups.size := by
  induction keys generalizing t with
  | nil => exact Nat.le_refl _
  | cons key keys ih => exact Nat.le_trans (t.size_le_size_enter key) (ih (t.enter key))

/-! ## Names -/

/-- A name has a slot if it had one or has been entered. -/
theorem isSome_slot?_enter_name {s : String} :
    ((t.enter key).slot? (.name s)).isSome ↔ (t.slot? (.name s)).isSome ∨ key = .name s := by
  unfold enter
  split
  · rename_i h
    refine ⟨.inl, fun h' => h'.elim id ?_⟩
    rintro rfl
    exact h
  · cases key with
    | index n => simp [slot?]
    | name s' =>
      by_cases hs : s = s'
      · simp [slot?, List.lookup_append, hs]
      · have hne : (s == s') = false := by simpa using hs
        simp [slot?, List.lookup_append, List.lookup_cons, hne, Ne.symm hs]

theorem isSome_slot?_enterAll_name {s : String} :
    ((t.enterAll keys).slot? (.name s)).isSome ↔ (t.slot? (.name s)).isSome ∨ .name s ∈ keys := by
  induction keys generalizing t with
  | nil => simp [enterAll]
  | cons key keys ih =>
    show (((t.enter key).enterAll keys).slot? (.name s)).isSome ↔ _
    rw [ih, isSome_slot?_enter_name, List.mem_cons, or_assoc, eq_comm (a := key)]

end GroupTable

namespace Pattern

open GroupTable

/-- A repetition that can be compiled opens the groups of its body, if there is a copy of it. -/
theorem keys_repeated {body : Pattern} {min : Nat} {max : Option Nat} {mode : Mode}
    (he : (repeated body min max mode).error? = none) (base : Nat) :
    (repeated body min max mode).keys base =
      if max = some 0 ∧ mode ≠ .possessive then [] else body.keys base := by
  rw [keys]
  by_cases hzero : max = some 0 ∧ mode ≠ .possessive
  · have hmin : min = 0 := Nat.le_zero.1 (le_of_error?_eq_none he 0 hzero.1)
    rw [if_pos hzero, if_pos ⟨hzero.1, hmin, hzero.2⟩]
  · rw [if_neg hzero, if_neg fun hall => hzero ⟨hall.1, hall.2.2⟩]

mutual

/-- The numbers of the groups of a pattern come after those that have been given before, without
gaps. -/
theorem le_of_index_mem_keys {base n : Nat} :
    (p : Pattern) → p.error? = none → .index n ∈ p.keys base →
    n ≤ base + p.numbered
  | text _, _, h | oneOf _, _, h | assert _, _, h | reference _, _, h => by cases h
  | concat parts, he, h => le_of_index_mem_keysAll parts he h
  | alt branches, he, h => le_of_index_mem_keysAll branches he h
  | repeated body min max mode, he, h => by
    rw [keys_repeated he] at h
    rcases repeated_of_error?_eq_none he with ⟨hzero, -⟩ | ⟨hmany, hbody⟩
    · rw [if_pos hzero] at h
      cases h
    · rw [if_neg hmany] at h
      rw [numbered, if_neg hmany]
      exact le_of_index_mem_keys body hbody h
  | withFlags _ body, he, h | lookAround _ _ body, he, h | atomic body, he, h =>
    le_of_index_mem_keys body he h
  | capture none body, he, h => by
    rw [numbered]
    rcases List.mem_cons.1 h with heq | h
    · cases heq
      omega
    · have := le_of_index_mem_keys body he h
      omega
  | capture (some name) body, he, h => by
    rcases List.mem_cons.1 h with heq | h
    · cases heq
    · exact le_of_index_mem_keys body he h

theorem le_of_index_mem_keysAll {base n : Nat} : (parts : List Pattern) → errorAmong? parts = none →
    .index n ∈ keysAll base parts → n ≤ base + numberedAll parts
  | [], _, h => by cases h
  | part :: parts, he, h => by
    obtain ⟨he, he'⟩ := Option.or_eq_none_iff.1 he
    rw [numberedAll]
    rcases List.mem_append.1 h with h | h
    · have := le_of_index_mem_keys part he h
      omega
    · have := le_of_index_mem_keysAll parts he' h
      omega

end

mutual

/-- After the groups of a pattern have been entered, its numbers have been given. -/
theorem size_enterAll_keys {t : GroupTable} {base : Nat} (h : base < t.groups.size) :
    (p : Pattern) →
    p.error? = none → (t.enterAll (p.keys base)).groups.size =
      max t.groups.size (base + p.numbered + 1)
  | text _, _ | oneOf _, _ | assert _, _ | reference _, _ => by
    show t.groups.size = max t.groups.size (base + 0 + 1)
    omega
  | concat parts, he => size_enterAll_keysAll h parts he
  | alt branches, he => size_enterAll_keysAll h branches he
  | repeated body min max mode, he => by
    rw [keys_repeated he, numbered]
    rcases repeated_of_error?_eq_none he with ⟨hzero, -⟩ | ⟨hmany, hbody⟩
    · rw [if_pos hzero, if_pos hzero]
      show t.groups.size = _
      omega
    · rw [if_neg hmany, if_neg hmany]
      exact size_enterAll_keys h body hbody
  | withFlags _ body, he | lookAround _ _ body, he | atomic body, he => size_enterAll_keys h body he
  | capture none body, he => by
    have hsize := size_enter_index h
    have hroom : base + 1 < (t.enter (.index (base + 1))).groups.size := by omega
    have hbody := size_enterAll_keys hroom body he
    show ((t.enter (.index (base + 1))).enterAll (body.keys (base + 1))).groups.size = _
    rw [hbody, hsize, numbered]
    omega
  | capture (some name) body, he => by
    have hsize := size_enter_name t name
    have hroom : base < (t.enter (.name name)).groups.size := by omega
    have hbody := size_enterAll_keys hroom body he
    show ((t.enter (.name name)).enterAll (body.keys base)).groups.size = _
    rw [hbody, hsize, numbered]

theorem size_enterAll_keysAll {t : GroupTable} {base : Nat} (h : base < t.groups.size) :
    (parts : List Pattern) → errorAmong? parts = none →
    (t.enterAll (keysAll base parts)).groups.size = max t.groups.size (base + numberedAll parts + 1)
  | [], _ => by
    show t.groups.size = max t.groups.size (base + 0 + 1)
    omega
  | part :: parts, he => by
    obtain ⟨he, he'⟩ := Option.or_eq_none_iff.1 he
    have hpart := size_enterAll_keys h part he
    have hroom : base + part.numbered < (t.enterAll (part.keys base)).groups.size := by omega
    have hparts := size_enterAll_keysAll hroom parts he'
    rw [keysAll, enterAll_append, hparts, hpart, numberedAll]
    omega

end

/-- After the groups of a pattern have been entered they have slots. -/
theorem isSome_slot?_of_mem_keys {t : GroupTable} {base : Nat} (h : base < t.groups.size)
    {p : Pattern} (he : p.error? = none) {key : GroupKey} (hkey : key ∈ p.keys base) :
    ((t.enterAll (p.keys base)).slot? key).isSome := by
  cases key with
  | name s => exact isSome_slot?_enterAll_name.2 (.inr hkey)
  | index n =>
    have hle := le_of_index_mem_keys p he hkey
    rw [isSome_slot?_index, size_enterAll_keys h p he]
    omega

/-- Entering the groups of a pattern once more changes nothing. -/
theorem enterAll_keys_twice {t : GroupTable} {base : Nat} (h : base < t.groups.size) {p : Pattern}
    (he : p.error? = none) :
    (t.enterAll (p.keys base)).enterAll (p.keys base) = t.enterAll (p.keys base) :=
  enterAll_of_isSome fun _ hkey => isSome_slot?_of_mem_keys h he hkey

end Pattern

namespace Automaton

/-- The table of the groups that have been opened. -/
def Draft.table (d : Draft) : GroupTable :=
  ⟨d.slotCount, d.groups, d.names⟩

namespace Build

/-- A step enters groups, which depend on the number of the last group, and changes that
number.  The table is known to have room for a number and for the last group. -/
def Notes {α : Type} (room : Nat) (x : Build α) (keys : Nat → List GroupKey)
    (last : Nat → Nat) : Prop :=
  ∀ d a d', room < d.groups.size → d.lastGroup < d.groups.size → x d = .ok (a, d') →
    d'.table = d.table.enterAll (keys d.lastGroup) ∧ d'.lastGroup = last d.lastGroup ∧
      d'.lastGroup < d'.groups.size

variable {α β : Type} {room : Nat} {keys keys' : Nat → List GroupKey} {last last' : Nat → Nat}

/-! ## Steps -/

theorem size_le_of_table_eq {d d' : Draft} {keys : List GroupKey}
    (h : d'.table = d.table.enterAll keys) :
    d.groups.size ≤ d'.groups.size := by
  have hle := d.table.size_le_size_enterAll keys
  rw [← h] at hle
  exact hle

theorem Notes.bind {x : Build α} {f : α → Build β} (h : Notes room x keys last)
    (h' : ∀ a, Notes room (f a) keys' last') :
    Notes room (x >>= f) (fun base => keys base ++ keys' (last base)) fun base =>
      last' (last base) := by
  intro d b d' hroom hlast hrun
  obtain ⟨a, d₁, hx, hf⟩ := bind_eq_ok.1 hrun
  obtain ⟨htable, hlast₁, hlt⟩ := h d a d₁ hroom hlast hx
  obtain ⟨htable', hlast', hlt'⟩ :=
    h' a d₁ b d' (Nat.lt_of_lt_of_le hroom (size_le_of_table_eq htable)) hlt hf
  rw [htable, hlast₁, ← GroupTable.enterAll_append] at htable'
  exact ⟨htable', by rw [hlast', hlast₁], hlt'⟩

/-- A step that does not open a group, before another one. -/
theorem Notes.after {x : Build α} {f : α → Build β} (h : Notes room x (fun _ => []) id)
    (h' : ∀ a, Notes room (f a) keys last) : Notes room (x >>= f) keys last :=
  h.bind h'

/-- A step before another one that does not open a group. -/
theorem Notes.before {x : Build α} {f : α → Build β} (h : Notes room x keys last)
    (h' : ∀ a, Notes room (f a) (fun _ => []) id) : Notes room (x >>= f) keys last := by
  have hbind := h.bind h'
  simp only [List.append_nil] at hbind
  exact hbind

theorem notes_pure (a : α) : Notes room (pure a) (fun _ => []) id := by
  intro d b d' _ hlast hrun
  obtain ⟨-, rfl⟩ := pure_eq_ok.1 hrun
  exact ⟨rfl, rfl, hlast⟩

theorem notes_addState : Notes room addState (fun _ => []) id := by
  intro d b d' _ hlast hrun
  obtain ⟨-, rfl⟩ := addState_eq_ok.1 hrun
  exact ⟨rfl, rfl, hlast⟩

theorem notes_update (id' : Nat) (f : State → State) :
    Notes room (update id' f) (fun _ => []) id := by
  intro d b d' _ hlast hrun
  obtain rfl := update_eq_ok.1 hrun
  exact ⟨rfl, rfl, hlast⟩

theorem notes_addLoop : Notes room addLoop (fun _ => []) id := by
  intro d b d' _ hlast hrun
  obtain ⟨-, rfl⟩ := addLoop_eq_ok.1 hrun
  exact ⟨rfl, rfl, hlast⟩

theorem notes_addRegion (region : Region) : Notes room (addRegion region) (fun _ => []) id := by
  intro d b d' _ hlast hrun
  obtain rfl := modify_eq_ok.1 hrun
  exact ⟨rfl, rfl, hlast⟩

theorem notes_captureCount :
    Notes room (modify fun d => { d with captureCount := d.captureCount + 1 })
    (fun _ => []) id := by
  intro d b d' _ hlast hrun
  obtain rfl := modify_eq_ok.1 hrun
  exact ⟨rfl, rfl, hlast⟩

theorem notes_target (accept : Option Nat) : Notes room (target accept) (fun _ => []) id := by
  cases accept with
  | none => exact notes_addState
  | some id => exact notes_pure id

/-- The numbers go on after the given one. -/
theorem notes_setLastGroup (base : Nat) :
    Notes base (setLastGroup base) (fun _ => []) fun _ => base := by
  intro d b d' hroom _ hrun
  obtain rfl := modify_eq_ok.1 hrun
  exact ⟨rfl, rfl, hroom⟩

theorem notes_groupSlot_name (name : String) :
    Notes room (groupSlot (some name)) (fun _ => [.name name]) id := by
  intro d slot d' _ hlast hrun
  have hslot? : d.table.slot? (.name name) = d.names.lookup name := rfl
  unfold groupSlot at hrun
  obtain ⟨_, _, hget, hrun⟩ := bind_eq_ok.1 hrun
  obtain ⟨rfl, rfl⟩ := get_eq_ok.1 hget
  cases hlookup : d.names.lookup name with
  | some slot' =>
    rw [hlookup] at hrun
    obtain ⟨-, rfl⟩ := pure_eq_ok.1 hrun
    refine ⟨(GroupTable.enter_of_isSome ?_).symm, rfl, hlast⟩
    rw [hslot?, hlookup]
    rfl
  | none =>
    rw [hlookup] at hrun
    obtain ⟨_, _, hadd, hrun⟩ := bind_eq_ok.1 hrun
    obtain ⟨rfl, rfl⟩ := addSlot_eq_ok.1 hadd
    obtain ⟨_, _, hmodify, hrun⟩ := bind_eq_ok.1 hrun
    obtain rfl := modify_eq_ok.1 hmodify
    obtain ⟨-, rfl⟩ := pure_eq_ok.1 hrun
    refine ⟨?_, rfl, hlast⟩
    show _ = d.table.enter (.name name)
    unfold GroupTable.enter
    rw [hslot?, hlookup]
    rfl

theorem notes_groupSlot_index :
    Notes room (groupSlot none) (fun base => [.index (base + 1)]) (· + 1) := by
  intro d slot d' _ hlast hrun
  have hslot? : d.table.slot? (.index (d.lastGroup + 1)) = d.groups[d.lastGroup + 1]? := rfl
  unfold groupSlot at hrun
  obtain ⟨_, _, hmodify, hrun⟩ := bind_eq_ok.1 hrun
  obtain rfl := modify_eq_ok.1 hmodify
  obtain ⟨_, _, hget, hrun⟩ := bind_eq_ok.1 hrun
  obtain ⟨rfl, rfl⟩ := get_eq_ok.1 hget
  cases hlookup : d.groups[d.lastGroup + 1]? with
  | some slot' =>
    simp only [hlookup] at hrun
    obtain ⟨-, rfl⟩ := pure_eq_ok.1 hrun
    refine ⟨(GroupTable.enter_of_isSome ?_).symm, rfl, (Array.getElem?_eq_some_iff.1 hlookup).1⟩
    show (d.table.slot? (.index (d.lastGroup + 1))).isSome
    rw [hslot?, hlookup]
    rfl
  | none =>
    simp only [hlookup] at hrun
    obtain ⟨_, _, hadd, hrun⟩ := bind_eq_ok.1 hrun
    obtain ⟨rfl, rfl⟩ := addSlot_eq_ok.1 hadd
    obtain ⟨_, _, hmodify, hrun⟩ := bind_eq_ok.1 hrun
    obtain rfl := modify_eq_ok.1 hmodify
    obtain ⟨-, rfl⟩ := pure_eq_ok.1 hrun
    refine ⟨?_, rfl, ?_⟩
    · show _ = d.table.enter (.index (d.lastGroup + 1))
      unfold GroupTable.enter
      rw [hslot?, hlookup]
      rfl
    · show d.lastGroup + 1 < (d.groups.push d.slotCount).size
      rw [Array.size_push]
      omega

/-! ## Parts -/

/-- A state is changed, and then the accepting state is the result. -/
theorem notes_exit (id' : Nat) (f : State → State) (exit : Nat) :
    Notes room (do update id' f; return exit : Build Nat) (fun _ => []) id :=
  (notes_update id' f).after fun _ => notes_pure exit

theorem notes_skip (start : Nat) (accept : Option Nat) :
    Notes room (skip start accept) (fun _ => []) id := by
  cases accept with
  | none => exact notes_pure _
  | some exit => exact notes_exit _ _ exit

theorem notes_oneOf (set : CharSet) (start : Nat) (accept : Option Nat) :
    Notes room (oneOf set start accept) (fun _ => []) id :=
  (notes_target _).after fun exit => notes_exit _ _ exit

theorem notes_look (assertion : Look) (start : Nat) (accept : Option Nat) :
    Notes room (look assertion start accept) (fun _ => []) id :=
  (notes_target _).after fun exit => notes_exit _ _ exit

theorem notes_chain (ignoreCase : Bool) (chars : List Char) (start : Nat) (accept : Option Nat) :
    Notes room (chain ignoreCase chars start accept) (fun _ => []) id := by
  induction chars generalizing start with
  | nil => exact notes_skip start accept
  | cons c chars ih =>
    cases chars with
    | nil => exact notes_oneOf _ start accept
    | cons c' chars => exact (notes_oneOf _ _ _).after fun next => ih next

theorem notes_text (ignoreCase : Bool) (chars : List Char) (start : Nat) (accept : Option Nat) :
    Notes room (text ignoreCase chars start accept) (fun _ => []) id := by
  refine (notes_chain _ _ _ _).after fun exit => ?_
  split
  · exact notes_exit _ _ exit
  · exact notes_pure _

theorem notes_reference (ignoreCase : Bool) (group : GroupKey) (start : Nat) (accept : Option Nat) :
    Notes room (reference ignoreCase group start accept) (fun _ => []) id :=
  (notes_target _).after fun exit => notes_exit _ _ exit

section

variable {part : Part} (h : ∀ start accept, Notes room (part start accept) keys last)

include h

theorem notes_isolated : Notes room (isolated part) keys last := by
  intro d id d' hroom hlast hrun
  obtain ⟨first, exit, exit₁, d₁, d₂, -, hdraft₁, hpart, -, rfl⟩ := isolated_eq_ok hrun
  have hfields : d₁.table = d.table ∧ d₁.lastGroup = d.lastGroup ∧ d₁.groups = d.groups := by
    rw [hdraft₁]
    exact ⟨rfl, rfl, rfl⟩
  obtain ⟨htable₁, hlast₁, hgroups₁⟩ := hfields
  have hnotes := h first (some exit) d₁ exit₁ d₂ (by rwa [hgroups₁])
    (by rwa [hgroups₁, hlast₁]) hpart
  rwa [htable₁, hlast₁] at hnotes

theorem notes_around (action : Nat → Nat → Action) (start : Nat) (accept : Option Nat) :
    Notes room (around part action start accept) keys last :=
  (notes_isolated h).before fun _ => (notes_target _).after fun exit => notes_exit _ _ exit

/-- The group is opened before those in its body. -/
theorem notes_capture {name : Option String} {key : Nat → GroupKey} {next : Nat → Nat}
    (hslot : Notes room (groupSlot name) (fun base => [key base]) next) (start : Nat)
    (accept : Option Nat) :
    Notes room (capture name part start accept) (fun base => key base :: keys (next base))
      fun base => last (next base) :=
  hslot.bind fun _ => (notes_captureCount).after fun _ => notes_addState.after fun _ =>
    notes_addState.after fun _ => (h _ _).before fun _ => (notes_target _).after fun _ =>
      (notes_update _ _).after fun _ => (notes_update _ _).after fun _ =>
        (notes_addRegion _).after fun _ => notes_pure _

end

/-! ## Repetition -/

section

variable {base next : Nat} {copied : List GroupKey}
  (htwice : ∀ t : GroupTable, base < t.groups.size →
    (t.enterAll copied).enterAll copied = t.enterAll copied)

/-- Steps that open the same groups, each as if it were the first. -/
def NotesCopies (base : Nat) (copied : List GroupKey) (next : Nat) (x : Build α) (n : Nat) : Prop :=
  Notes base x (fun _ => if n = 0 then [] else copied) fun base => if n = 0 then base else next

include htwice

/-- Groups that are opened twice are entered once. -/
theorem Notes.bind_again {x : Build α} {f : α → Build β}
    (h : Notes base x (fun _ => copied) fun _ => next)
    (h' : ∀ a, Notes base (f a) (fun _ => copied) fun _ => next) :
    Notes base (x >>= f) (fun _ => copied) fun _ => next := by
  intro d b d' hroom hlast hrun
  obtain ⟨htable, hlast', hlt⟩ := h.bind h' d b d' hroom hlast hrun
  rw [GroupTable.enterAll_append, htwice d.table hroom] at htable
  exact ⟨htable, hlast', hlt⟩

theorem NotesCopies.bind_right {x : Build α} {f : α → Build β} {n : Nat}
    (h : NotesCopies base copied next x n)
    (h' : ∀ a, Notes base (f a) (fun _ => copied) fun _ => next) :
    Notes base (x >>= f) (fun _ => copied) fun _ => next := by
  cases n with
  | zero => exact Notes.after h h'
  | succ n => exact Notes.bind_again htwice h h'

theorem NotesCopies.bind_left {x : Build α} {f : α → Build β} {n : Nat}
    (h : Notes base x (fun _ => copied) fun _ => next)
    (h' : ∀ a, NotesCopies base copied next (f a) n) :
    Notes base (x >>= f) (fun _ => copied) fun _ => next := by
  cases n with
  | zero => exact h.before h'
  | succ n => exact Notes.bind_again htwice h h'

variable {part : Part}
    (h : ∀ start accept, Notes base (part start accept) (fun _ => copied) fun _ => next)

include h

theorem notes_copies (n start : Nat) : NotesCopies base copied next (copies part n start) n := by
  induction n generalizing start with
  | zero => exact notes_pure _
  | succ n ih => exact NotesCopies.bind_left htwice (h start none) fun exit => ih exit

theorem notes_optionalCopies (lazy : Bool) (exit n start : Nat) :
    NotesCopies base copied next (optionalCopies part lazy exit n start) n := by
  induction n generalizing start with
  | zero => exact notes_pure _
  | succ n ih =>
    exact notes_addState.after fun body => NotesCopies.bind_left htwice (h body _) fun exit' =>
      (notes_update start _).after fun _ => ih exit'

omit htwice in
theorem notes_loop (lazy : Bool) (exit start : Nat) :
    Notes base (loop part lazy exit start) (fun _ => copied) fun _ => next :=
  notes_addLoop.after fun _ => notes_addState.after fun _ => notes_addState.after fun _ =>
    (h _ _).before fun _ => (notes_update _ _).after fun _ => notes_update _ _

end

/-- A repetition opens the groups of its body. -/
theorem notes_repeated {part : Part} {min : Nat} {max : Option Nat}
    (hmax : ∀ m, max = some m → min ≤ m)
    (hmany : max ≠ some 0) (h : ∀ room start accept, Notes room (part start accept) keys last)
    (htwice : ∀ base (t : GroupTable), base < t.groups.size →
      (t.enterAll (keys base)).enterAll (keys base) = t.enterAll (keys base))
    (lazy : Bool) (start : Nat) (accept : Option Nat) :
    Notes room (repeated part min max lazy start accept) keys last := by
  intro d exit d' _ hlast hrun
  obtain ⟨_, _, hget, hrest⟩ := bind_eq_ok.1 hrun
  obtain ⟨rfl, rfl⟩ := get_eq_ok.1 hget
  clear hrun
  have hcopy (start : Nat) (accept : Option Nat) :
      Notes d.lastGroup (do setLastGroup d.lastGroup; part start accept : Build Nat)
        (fun _ => keys d.lastGroup) fun _ => last d.lastGroup :=
    (notes_setLastGroup _).bind fun _ => h _ start accept
  have hcopies (n start : Nat) := notes_copies (htwice d.lastGroup) hcopy n start
  dsimp only at hrest
  split at hrest
  · exact (hcopies (min - 1) start).bind_right (htwice _) (fun head => hcopy head accept) d exit d'
      hlast hlast hrest
  · rename_i hexact
    match max with
    | none =>
      exact (hcopies min start).bind_right (htwice _)
        (fun head => (notes_target accept).after fun exit =>
          (notes_loop hcopy lazy exit head).before fun _ => notes_pure exit)
        d exit d' hlast hlast hrest
    | some max =>
      have hle := hmax max rfl
      have hpos : max ≠ 0 := fun hzero => hmany (congrArg some hzero)
      have hmore : min ≠ max := by
        rintro rfl
        exact hexact ⟨rfl, Nat.pos_of_ne_zero hpos⟩
      refine (hcopies min start).bind_right (htwice _)
        (fun head => (notes_target accept).after fun exit => ?_) d exit d' hlast hlast hrest
      dsimp only
      rw [if_neg hmore]
      have hcopies := notes_optionalCopies (htwice d.lastGroup) hcopy lazy exit (max - min) head
      unfold NotesCopies at hcopies
      simp only [if_neg (show max - min ≠ 0 by omega)] at hcopies
      exact hcopies.before fun _ => notes_pure exit

/-- What is repeated no times at all opens no group. -/
theorem notes_repeated_zero (part : Part) (lazy : Bool) (start : Nat) (accept : Option Nat) :
    Notes room (repeated part 0 (some 0) lazy start accept) (fun _ => []) id := by
  intro d exit d' hroom hlast hrun
  obtain ⟨_, _, hget, hrest⟩ := bind_eq_ok.1 hrun
  obtain ⟨rfl, rfl⟩ := get_eq_ok.1 hget
  exact (notes_pure start).after
    (fun head => (notes_target accept).after fun exit => notes_exit head _ exit)
    d exit d' hroom hlast hrest

end Build

open Build

/-! ## Patterns -/

mutual

/-- Compiling a pattern enters its groups. -/
theorem notes_compilePart (o : Options) : (p : Pattern) → p.error? = none → ∀ room start accept,
    Notes room (compilePart o p start accept) (fun base => p.keys base) fun base =>
      base + p.numbered
  | .text chars, _, room, start, accept => by
    simp only [compilePart]
    exact notes_text o.ignoreCase chars start accept
  | .concat parts, he, room, start, accept => by
    simp only [compilePart]
    exact notes_compileConcat o parts he room start accept
  | .alt branches, he, room, start, accept => by
    simp only [compilePart]
    exact (notes_target _).after fun exit =>
      (notes_compileAlt o branches he room _ _).before fun _ => notes_pure _
  | .repeated body min max mode, he, room, start, accept => by
    have hmax := Pattern.le_of_error?_eq_none he
    simp only [compilePart_repeated o body hmax, Pattern.keys_repeated he, Pattern.numbered]
    rcases Pattern.repeated_of_error?_eq_none he with ⟨hzero, hmin⟩ | ⟨hmany, hbody⟩
    · simp only [if_neg hzero.2, if_pos hzero]
      rw [hzero.1, hmin]
      exact notes_repeated_zero _ _ start accept
    · simp only [if_neg hmany]
      have hpart := notes_compilePart o body hbody
      split
      · exact notes_around (hpart room) _ start accept
      · rename_i hmode
        exact notes_repeated hmax (fun hzero => hmany ⟨hzero, hmode⟩) hpart
          (fun base t hlt => Pattern.enterAll_keys_twice hlt hbody) _ start accept
  | .oneOf set, _, room, start, accept => by
    simp only [compilePart]
    exact notes_oneOf (classSet o set) start accept
  | .assert assertion, _, room, start, accept => by
    simp only [compilePart]
    exact notes_look (assertion.look o) start accept
  | .withFlags flags body, he, room, start, accept => by
    simp only [compilePart]
    exact notes_compilePart (o.overlay flags) body he room start accept
  | .lookAround direction negated body, he, room, start, accept => by
    simp only [compilePart]
    exact notes_around (notes_compilePart o body he room)
      (.lookAround direction negated) start accept
  | .atomic body, he, room, start, accept => by
    simp only [compilePart]
    exact notes_around (notes_compilePart o body he room) .atomic start accept
  | .capture none body, he, room, start, accept => by
    have h := notes_capture (notes_compilePart o body he room) notes_groupSlot_index start accept
    simpa only [compilePart, Pattern.keys, Pattern.numbered, Nat.add_assoc, Nat.add_comm 1] using h
  | .capture (some name) body, he, room, start, accept => by
    have h := notes_capture (notes_compilePart o body he room)
      (notes_groupSlot_name name) start accept
    simp only [compilePart]
    exact h
  | .reference group, _, room, start, accept => by
    simp only [compilePart]
    exact notes_reference o.ignoreCase group start accept

theorem notes_compileConcat (o : Options) :
    (parts : List Pattern) → Pattern.errorAmong? parts = none →
    ∀ room start accept, Notes room (compileConcat o parts start accept)
      (fun base => Pattern.keysAll base parts) fun base => base + Pattern.numberedAll parts
  | [], _, room, start, accept => by
    simp only [compileConcat]
    exact notes_skip start accept
  | [part], he, room, start, accept => by
    have h := notes_compilePart o part (Option.or_eq_none_iff.1 he).1 room start accept
    simpa only [compileConcat, Pattern.keysAll, Pattern.numberedAll, List.append_nil,
      Nat.add_zero] using h
  | part :: part' :: parts, he, room, start, accept => by
    obtain ⟨he, he'⟩ := Option.or_eq_none_iff.1 he
    have h := (notes_compilePart o part he room start none).bind fun next =>
      notes_compileConcat o (part' :: parts) he' room next accept
    simpa only [compileConcat, Pattern.keysAll, Pattern.numberedAll, Nat.add_assoc] using h

theorem notes_compileAlt (o : Options) :
    (branches : List Pattern) → Pattern.errorAmong? branches = none →
    ∀ room start exit, Notes room (compileAlt o branches start exit)
      (fun base => Pattern.keysAll base branches) fun base => base + Pattern.numberedAll branches
  | [], _, room, _, _ => by
    simp only [compileAlt]
    exact notes_pure _
  | branch :: branches, he, room, start, exit => by
    obtain ⟨he, he'⟩ := Option.or_eq_none_iff.1 he
    have h (first : Nat) := (notes_compilePart o branch he room first (some exit)).bind fun _ =>
      notes_compileAlt o branches he' room start exit
    simp only [compileAlt, Pattern.keysAll, Pattern.numberedAll, ← Nat.add_assoc]
    exact notes_addState.after fun first => (notes_update start _).after fun _ => h first

end

/-- The table of the groups of an automaton. -/
def table (a : Automaton) : GroupTable :=
  ⟨a.slotCount, a.groups, a.names⟩

/-- The groups of a pattern are entered in the table of its automaton, and no others. -/
theorem table_compile {o : Options} {p : Pattern} {a : Automaton} (h : compile o p = .ok a) :
    a.table = GroupTable.enterAll {} (p.keys 0) := by
  obtain ⟨accept, d, hpart, rfl⟩ := compile_eq_ok h
  have he := exists_compile_eq_ok_iff.1 ⟨_, h⟩
  exact (notes_compilePart o p he 0 0 none { states := #[{}] } accept d Nat.zero_lt_one
    Nat.zero_lt_one hpart).1

end Automaton

end RegexEngine
