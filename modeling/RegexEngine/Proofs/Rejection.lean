import RegexEngine.Automaton.Compile

/-!
# What cannot be compiled

A pattern is compiled unless it has a repetition whose maximum is below its minimum.  The
error is about the first one that is compiled, and it depends neither on the options nor on
what surrounds the pattern.

* `Build.Fails` says how a step fails whatever has been compiled before, and it is kept by
  whatever steps are made of.
* `Pattern.error?` is the error of a pattern, by recursion on the pattern.
* `error?_compile` is about whole patterns.
-/

namespace RegexEngine

/-- A repetition has a maximum below its minimum. -/
def PatternError.Inverted (e : PatternError) : Prop :=
  ∃ min max, max < min ∧ e = .invalidRepetition min max

namespace Pattern

mutual

/-- Why a pattern cannot be compiled.  What is repeated no times at all is not compiled,
unless the repetition is possessive. -/
def error? : Pattern → Option PatternError
  | text _ | oneOf _ | assert _ | reference _ => none
  | concat parts => errorAmong? parts
  | alt branches => errorAmong? branches
  | repeated body min max mode =>
    match max with
    | none => error? body
    | some max =>
      if max < min then some (.invalidRepetition min max)
      else if max = 0 ∧ mode ≠ .possessive then none
      else error? body
  | withFlags _ body | lookAround _ _ body | atomic body | capture _ body => error? body

/-- Why one of the patterns cannot be compiled: the error of the first such pattern. -/
def errorAmong? : List Pattern → Option PatternError
  | [] => none
  | part :: parts => (error? part).or (errorAmong? parts)

end

/-- A repetition whose maximum is not below its minimum has an error if its body has one. -/
theorem error?_repeated {body : Pattern} {min : Nat} {max : Option Nat} {mode : Mode}
    (hmax : ∀ m, max = some m → min ≤ m) : (repeated body min max mode).error? =
      if max = some 0 ∧ mode ≠ .possessive then none else body.error? := by
  cases max with
  | none => simp [error?]
  | some max => simp [error?, Nat.not_lt.2 (hmax max rfl)]

/-- The maximum of a repetition without an error is not below its minimum. -/
theorem le_of_error?_eq_none {body : Pattern} {min : Nat} {max : Option Nat} {mode : Mode}
    (h : (repeated body min max mode).error? = none) : ∀ m, max = some m → min ≤ m := by
  rintro m rfl
  unfold error? at h
  dsimp only at h
  split at h
  · cases h
  · omega

/-- A repetition without an error has no copy of its body, or its body has no error. -/
theorem repeated_of_error?_eq_none {body : Pattern} {min : Nat} {max : Option Nat} {mode : Mode}
    (h : (repeated body min max mode).error? = none) :
    (max = some 0 ∧ mode ≠ .possessive) ∧ min = 0 ∨
      ¬(max = some 0 ∧ mode ≠ .possessive) ∧ body.error? = none := by
  have hmax := le_of_error?_eq_none h
  rw [error?_repeated hmax] at h
  split at h
  · rename_i hzero
    exact .inl ⟨hzero, Nat.le_zero.1 (hmax 0 hzero.1)⟩
  · rename_i hmany
    exact .inr ⟨hmany, h⟩

mutual

theorem inverted_of_error? {e : PatternError} : (p : Pattern) → p.error? = some e → e.Inverted
  | text _, h | oneOf _, h | assert _, h | reference _, h => by cases h
  | concat parts, h | alt parts, h => inverted_of_errorAmong? parts h
  | repeated body min none mode, h => inverted_of_error? body h
  | repeated body min (some max) mode, h => by
    by_cases hlt : max < min
    · rw [error?, if_pos hlt] at h
      exact ⟨min, max, hlt, (Option.some.inj h).symm⟩
    · rw [error?_repeated fun m hm => Option.some.inj hm ▸ Nat.not_lt.1 hlt] at h
      split at h
      · cases h
      · exact inverted_of_error? body h
  | withFlags _ body, h | lookAround _ _ body, h | atomic body, h | capture _ body, h =>
    inverted_of_error? body h

theorem inverted_of_errorAmong? {e : PatternError} : (parts : List Pattern) →
    errorAmong? parts = some e → e.Inverted
  | [], h => by cases h
  | part :: parts, h => by
    rcases Option.or_eq_some_iff.1 h with h | ⟨-, h⟩
    · exact inverted_of_error? part h
    · exact inverted_of_errorAmong? parts h

end

end Pattern

namespace Automaton

namespace Build

/-- Whatever has been compiled before, a step fails with the given error, or it does not fail
if none is given. -/
def Fails {α : Type} (x : Build α) (error? : Option PatternError) : Prop :=
  ∀ d, match x d with
    | .ok _ => error? = none
    | .error e => error? = some e

variable {α β : Type} {error error' : Option PatternError}

/-! ## Steps -/

/-- Of two steps the first error counts. -/
theorem Fails.bind {x : Build α} {f : α → Build β} (h : x.Fails error)
    (h' : ∀ a, (f a).Fails error') :
    (x >>= f).Fails (error.or error') := by
  intro d
  have hfirst := h d
  show match Except.bind (x d) (fun p => f p.1 p.2) with
    | .ok _ => error.or error' = none
    | .error e => error.or error' = some e
  cases hx : x d with
  | error e =>
    rw [hx] at hfirst
    dsimp only at hfirst
    rw [hfirst]
    rfl
  | ok p =>
    rw [hx] at hfirst
    dsimp only at hfirst
    rw [hfirst, Option.none_or]
    exact h' p.1 p.2

/-- A step that does not fail, before another one. -/
theorem Fails.after {x : Build α} {f : α → Build β} (h : x.Fails none)
    (h' : ∀ a, (f a).Fails error) :
    (x >>= f).Fails error :=
  h.bind h'

/-- A step before another one that does not fail. -/
theorem Fails.before {x : Build α} {f : α → Build β} (h : x.Fails error)
    (h' : ∀ a, (f a).Fails none) :
    (x >>= f).Fails error := by
  have hbind := h.bind h'
  rwa [Option.or_none] at hbind

/-- Of two steps that fail alike, the first of which may not be there. -/
theorem Fails.bind_of_pos {x : Build α} {f : α → Build β} {n : Nat}
    (h : x.Fails (if n = 0 then none else error)) (h' : ∀ a, (f a).Fails error) :
    (x >>= f).Fails error := by
  have hbind := h.bind h'
  cases n with
  | zero => rwa [if_pos rfl, Option.none_or] at hbind
  | succ n => rwa [if_neg (Nat.succ_ne_zero n), Option.or_self] at hbind

/-- Of two steps that fail alike, the second of which may not be there. -/
theorem Fails.bind_pos {x : Build α} {f : α → Build β} {n : Nat} (h : x.Fails error)
    (h' : ∀ a, (f a).Fails (if n = 0 then none else error)) : (x >>= f).Fails error := by
  have hbind := h.bind h'
  cases n with
  | zero => rwa [if_pos rfl, Option.or_none] at hbind
  | succ n => rwa [if_neg (Nat.succ_ne_zero n), Option.or_self] at hbind

theorem fails_pure (a : α) : (pure a : Build α).Fails none :=
  fun _ => rfl

theorem fails_get : (get : Build Draft).Fails none :=
  fun _ => rfl

theorem fails_set (d : Draft) : (set d : Build PUnit).Fails none :=
  fun _ => rfl

theorem fails_modify (f : Draft → Draft) : (modify f : Build Unit).Fails none :=
  fun _ => rfl

theorem fails_modifyGet (f : Draft → α × Draft) : (modifyGet f : Build α).Fails none :=
  fun _ => rfl

theorem fails_addState : addState.Fails none :=
  fails_modifyGet _

theorem fails_update (id : Nat) (f : State → State) : (update id f).Fails none :=
  fails_modify _

theorem fails_target (accept : Option Nat) : (target accept).Fails none := by
  cases accept with
  | none => exact fails_addState
  | some id => exact fails_pure id

theorem fails_groupSlot (name : Option String) : (groupSlot name).Fails none := by
  cases name with
  | some name =>
    refine fails_get.after fun d => ?_
    split
    · exact fails_pure _
    · exact (fails_modifyGet _).after fun _ => (fails_modify _).after fun _ => fails_pure _
  | none =>
    refine (fails_modify _).after fun _ => fails_get.after fun d => ?_
    split
    · exact fails_pure _
    · exact (fails_modifyGet _).after fun _ => (fails_modify _).after fun _ => fails_pure _

/-! ## Parts -/

/-- A state is changed, and then the accepting state is the result. -/
theorem fails_exit (id : Nat) (f : State → State) (exit : Nat) :
    (do update id f; return exit : Build Nat).Fails none :=
  (fails_update id f).after fun _ => fails_pure exit

theorem fails_skip (start : Nat) (accept : Option Nat) : (skip start accept).Fails none := by
  cases accept with
  | none => exact fails_pure _
  | some exit => exact fails_exit _ _ exit

theorem fails_oneOf (set : CharSet) (start : Nat) (accept : Option Nat) :
    (oneOf set start accept).Fails none :=
  (fails_target _).after fun exit => fails_exit _ _ exit

theorem fails_look (assertion : Look) (start : Nat) (accept : Option Nat) :
    (look assertion start accept).Fails none :=
  (fails_target _).after fun exit => fails_exit _ _ exit

theorem fails_chain (ignoreCase : Bool) (chars : List Char) (start : Nat) (accept : Option Nat) :
    (chain ignoreCase chars start accept).Fails none := by
  induction chars generalizing start with
  | nil => exact fails_skip start accept
  | cons c chars ih =>
    cases chars with
    | nil => exact fails_oneOf _ start accept
    | cons c' chars => exact (fails_oneOf _ _ _).after fun next => ih next

theorem fails_text (ignoreCase : Bool) (chars : List Char) (start : Nat) (accept : Option Nat) :
    (text ignoreCase chars start accept).Fails none := by
  refine (fails_chain _ _ _ _).after fun exit => ?_
  split
  · exact fails_exit _ _ exit
  · exact fails_pure _

theorem fails_reference (ignoreCase : Bool) (group : GroupKey) (start : Nat) (accept : Option Nat) :
    (reference ignoreCase group start accept).Fails none :=
  (fails_target _).after fun exit => fails_exit _ _ exit

section

variable {part : Part} (h : ∀ start accept, (part start accept).Fails error)

include h

theorem fails_around (action : Nat → Nat → Action) (start : Nat) (accept : Option Nat) :
    (around part action start accept).Fails error := by
  have hisolated : (isolated part).Fails error :=
    fails_get.after fun _ => fails_addState.after fun _ => fails_addState.after fun _ =>
      (fails_update _ _).after fun _ => (h _ _).before fun _ => fails_get.after fun _ =>
        (fails_set _).after fun _ => (fails_modify _).after fun _ => fails_pure _
  exact hisolated.before fun _ => (fails_target _).after fun exit => fails_exit _ _ exit

theorem fails_capture (name : Option String) (start : Nat) (accept : Option Nat) :
    (capture name part start accept).Fails error :=
  (fails_groupSlot _).after fun _ => (fails_modify _).after fun _ => fails_addState.after fun _ =>
    fails_addState.after fun _ => (h _ _).before fun _ => (fails_target _).after fun _ =>
      (fails_update _ _).after fun _ => (fails_update _ _).after fun _ =>
        (fails_modify _).after fun _ => fails_pure _

theorem fails_copies (n start : Nat) :
    (copies part n start).Fails (if n = 0 then none else error) := by
  induction n generalizing start with
  | zero => exact fails_pure _
  | succ n ih =>
    rw [if_neg (Nat.succ_ne_zero n)]
    exact (h start none).bind_pos fun next => ih next

theorem fails_optionalCopies (lazy : Bool) (exit n start : Nat) :
    (optionalCopies part lazy exit n start).Fails (if n = 0 then none else error) := by
  induction n generalizing start with
  | zero => exact fails_pure _
  | succ n ih =>
    rw [if_neg (Nat.succ_ne_zero n)]
    exact fails_addState.after fun body => (h body _).bind_pos fun next =>
      (fails_update start _).after fun _ => ih next

theorem fails_loop (lazy : Bool) (exit start : Nat) : (loop part lazy exit start).Fails error :=
  (fails_modifyGet _).after fun _ => fails_addState.after fun _ => fails_addState.after fun _ =>
    (h _ _).before fun _ => (fails_update _ _).after fun _ => fails_update _ _

/-- A repetition fails as its body does, but not if there is no copy of the body. -/
theorem fails_repeated {min : Nat} {max : Option Nat} (hmax : ∀ m, max = some m → min ≤ m)
    (lazy : Bool) (start : Nat) (accept : Option Nat) :
    (repeated part min max lazy start accept).Fails (if max = some 0 then none else error) := by
  refine fails_get.after fun d => ?_
  have hcopy (start : Nat) (accept : Option Nat) :
      (do setLastGroup d.lastGroup; part start accept : Build Nat).Fails error :=
    (fails_modify _).after fun _ => h start accept
  have hcopies (n start : Nat) := fails_copies hcopy n start
  dsimp only
  split
  · rename_i hexact
    obtain ⟨rfl, hpos⟩ := hexact
    rw [if_neg fun hzero => Nat.ne_of_gt hpos (Option.some.inj hzero)]
    exact (hcopies (min - 1) start).bind_of_pos fun last => hcopy last accept
  · rename_i hexact
    match max with
    | none =>
      rw [if_neg nofun]
      exact (hcopies min start).bind_of_pos fun head => (fails_target accept).after fun exit =>
        (fails_loop hcopy lazy exit head).before fun _ => fails_pure exit
    | some 0 =>
      obtain rfl : min = 0 := Nat.le_zero.1 (hmax 0 rfl)
      exact (hcopies 0 start).after fun head => (fails_target accept).after fun exit =>
        fails_exit head _ exit
    | some (max + 1) =>
      have hle := hmax (max + 1) rfl
      have hmore : min ≠ max + 1 := by
        rintro rfl
        exact hexact ⟨rfl, Nat.succ_pos max⟩
      rw [if_neg fun hzero => Nat.succ_ne_zero max (Option.some.inj hzero)]
      refine (hcopies min start).bind_of_pos fun head => (fails_target accept).after fun exit => ?_
      dsimp only
      rw [if_neg hmore]
      have hcopies := fails_optionalCopies hcopy lazy exit (max + 1 - min) head
      rw [if_neg (by omega)] at hcopies
      exact hcopies.before fun _ => fails_pure exit

end

end Build

open Build

/-! ## Patterns -/

/-- How a repetition is compiled whose maximum is not below its minimum. -/
theorem compilePart_repeated (o : Options) (body : Pattern) {min : Nat} {max : Option Nat}
    (hmax : ∀ m, max = some m → min ≤ m) (mode : Mode) (start : Nat) (accept : Option Nat) :
    compilePart o (.repeated body min max mode) start accept =
      if mode = .possessive then around (compilePart o body) (.possessive · min max) start accept
      else repeated (compilePart o body) min max (mode == .lazy) start accept := by
  simp only [compilePart]
  cases max with
  | none => rfl
  | some max =>
    dsimp only
    rw [if_neg (Nat.not_lt.2 (hmax max rfl))]

mutual

/-- Compiling a pattern fails with the error of the pattern. -/
theorem fails_compilePart (o : Options) : (p : Pattern) → (start : Nat) → (accept : Option Nat) →
    (compilePart o p start accept).Fails p.error?
  | .text chars, start, accept => by
    simpa only [compilePart, Pattern.error?] using fails_text o.ignoreCase chars start accept
  | .concat parts, start, accept => by
    simpa only [compilePart, Pattern.error?] using fails_compileConcat o parts start accept
  | .alt branches, start, accept => by
    simp only [compilePart]
    exact (fails_target _).after fun exit => (fails_compileAlt o branches _ _).before fun _ =>
      fails_pure _
  | .repeated body min max mode, start, accept => by
    have hbody := fails_compilePart o body
    by_cases hmax : ∀ m, max = some m → min ≤ m
    · rw [compilePart_repeated o body hmax, Pattern.error?_repeated hmax]
      split
      · rename_i hpossessive
        rw [if_neg fun h => h.2 hpossessive]
        exact fails_around hbody _ _ _
      · rename_i hnot
        simpa [hnot] using fails_repeated hbody hmax (mode == .lazy) start accept
    · cases max with
      | none => exact absurd nofun hmax
      | some max =>
        have hlt : max < min := by
          rw [← Nat.not_le]
          exact fun hle => hmax fun m hm => Option.some.inj hm ▸ hle
        simp only [compilePart, Pattern.error?, if_pos hlt]
        exact fun _ => rfl
  | .oneOf set, start, accept => by
    simpa only [compilePart, Pattern.error?] using fails_oneOf (classSet o set) start accept
  | .assert assertion, start, accept => by
    simpa only [compilePart, Pattern.error?] using fails_look (assertion.look o) start accept
  | .withFlags flags body, start, accept => by
    simpa only [compilePart, Pattern.error?] using fails_compilePart
      (o.overlay flags) body start accept
  | .lookAround direction negated body, start, accept => by
    simpa only [compilePart, Pattern.error?] using
      fails_around (fails_compilePart o body) (.lookAround direction negated) start accept
  | .atomic body, start, accept => by
    simpa only [compilePart, Pattern.error?] using fails_around
      (fails_compilePart o body) .atomic start accept
  | .capture name body, start, accept => by
    simpa only [compilePart, Pattern.error?] using fails_capture
      (fails_compilePart o body) name start accept
  | .reference group, start, accept => by
    simpa only [compilePart, Pattern.error?] using fails_reference o.ignoreCase group start accept

theorem fails_compileConcat (o : Options) : (parts : List Pattern) → (start : Nat) →
    (accept : Option Nat) → (compileConcat o parts start accept).Fails (Pattern.errorAmong? parts)
  | [], start, accept => by
    simpa only [compileConcat, Pattern.errorAmong?] using fails_skip start accept
  | [part], start, accept => by
    simpa only [compileConcat, Pattern.errorAmong?, Option.or_none] using
      fails_compilePart o part start accept
  | part :: part' :: parts, start, accept => by
    simp only [compileConcat]
    exact (fails_compilePart o part _ _).bind fun next =>
      fails_compileConcat o (part' :: parts) next accept

theorem fails_compileAlt (o : Options) : (branches : List Pattern) → (start exit : Nat) →
    (compileAlt o branches start exit).Fails (Pattern.errorAmong? branches)
  | [], _, _ => by
    simp only [compileAlt]
    exact fails_pure _
  | branch :: branches, start, exit => by
    simp only [compileAlt]
    exact fails_addState.after fun _ => (fails_update _ _).after fun _ =>
      (fails_compilePart o branch _ _).bind fun _ => fails_compileAlt o branches start exit

end

/-- A pattern is compiled if it has no error, and otherwise its error is the outcome. -/
theorem error?_compile (o : Options) (p : Pattern) : match compile o p with
    | .ok _ => p.error? = none
    | .error e => p.error? = some e := by
  have hbuild : (do
      let start ← Build.addState
      let accept ← compilePart o p start none
      Build.update accept fun s => { s with accepting := true }
      return (start, accept) : Build (Nat × Nat)).Fails p.error? :=
    fails_addState.after fun start => (fails_compilePart o p start none).before fun _ =>
      (fails_update _ _).after fun _ => fails_pure _
  have hrun := hbuild {}
  unfold compile
  simp only [StateT.run]
  split at hrun
  · rename_i result hresult
    rw [hresult]
    exact hrun
  · rename_i e hresult
    rw [hresult]
    exact hrun

theorem compile_eq_error_iff {o : Options} {p : Pattern} {e : PatternError} :
    compile o p = .error e ↔ p.error? = some e := by
  have h := error?_compile o p
  cases hcompile : compile o p with
  | ok a =>
    rw [hcompile] at h
    simp [h]
  | error e' =>
    rw [hcompile] at h
    simp [h]

theorem exists_compile_eq_ok_iff {o : Options} {p : Pattern} :
    (∃ a, compile o p = .ok a) ↔ p.error? = none := by
  have h := error?_compile o p
  cases hcompile : compile o p with
  | ok a =>
    rw [hcompile] at h
    simp [h]
  | error e =>
    rw [hcompile] at h
    simp [h]

/-- A pattern is compiled, or it has a repetition whose maximum is below its minimum. -/
theorem inverted_of_compile_eq_error {o : Options} {p : Pattern} {e : PatternError}
    (h : compile o p = .error e) : e.Inverted :=
  Pattern.inverted_of_error? p (compile_eq_error_iff.1 h)

end Automaton

end RegexEngine
