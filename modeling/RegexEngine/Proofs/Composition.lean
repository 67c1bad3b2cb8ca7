import Mathlib
import RegexEngine.Proofs.CharSet.Tables
import RegexEngine.Proofs.Parsing.Prefix

/-!
# Patterns made of patterns

The reader of patterns is compositional.  Texts that are read as patterns keep their meaning as
branches, as groups and as parts of a longer text.

* `Partial.Around` says that two partial patterns differ only in what was read around one of them,
  and `Partial.around_add` that each token keeps it.
* `Partial.exists_readAll_append` is about a whole text with more around it.
* `Opens` lists the texts that open a group.
* `Pattern.parse_compose` is about whole patterns.
-/

namespace RegexEngine

open Pattern (Normal)

/-! ## A text inside a longer one -/

/-- The level with more branches before its own. -/
def Level.after (l : Level) (branches : List Pattern) : Level :=
  { l with branches := l.branches ++ branches }

namespace Partial

variable {branches : List Pattern} {groups : List (OpenGroup (List Char))}
  {p p' q : Partial (List Char)} {l : Level}
  {s t start start' : List Char} {token : Token} {pattern : Pattern}

/-- The second partial pattern is the first one inside a longer text: behind finished branches, and
inside open groups.  The groups that are open in both began at different places. -/
inductive Around (branches : List Pattern) (groups : List (OpenGroup (List Char))) :
    Partial (List Char) → Partial (List Char) → Prop
  | level (l : Level) : Around branches groups ⟨l, []⟩ ⟨l.after branches, groups⟩
  | group (l : Level) (kind : GroupKind) (start start' : List Char) {outer outer' : Level}
      {inner inner' : List (OpenGroup (List Char))} : Around branches groups ⟨outer, inner⟩
        ⟨outer', inner'⟩ →
      Around branches groups ⟨l, ⟨kind, start, outer⟩ :: inner⟩
        ⟨l, ⟨kind, start', outer'⟩ :: inner'⟩

/-- Both innermost levels may change in the same way. -/
theorem Around.map (h : Around branches groups p p') {f : Level → Level}
    (hf : ∀ l : Level, f (l.after branches) = (f l).after branches) :
    Around branches groups ⟨f p.level, p.groups⟩ ⟨f p'.level, p'.groups⟩ := by
  cases h with
  | level l =>
    show Around branches groups ⟨f l, []⟩ ⟨f (l.after branches), groups⟩
    rw [hf]
    exact .level (f l)
  | group l kind start start' houter => exact .group (f l) kind start start' houter

theorem Around.atom_eq (h : Around branches groups p p') : p'.level.atom = p.level.atom := by
  cases h with
  | level l => rfl
  | group => rfl

/-- A token does the same inside a longer text. -/
theorem around_add (h : Around branches groups p p') (hadd : p.add start token = .ok q)
    (start' : List Char) :
    ∃ q', p'.add start' token = .ok q' ∧ Around branches groups q q' := by
  cases token with
  | atom pattern =>
    obtain rfl := Except.ok.inj hadd
    exact ⟨_, rfl, h.map (f := fun l => l.addAtom pattern) fun _ => rfl⟩
  | quantifier min max mode =>
    unfold add at hadd ⊢
    dsimp only at hadd ⊢
    rw [h.atom_eq]
    split at hadd
    · cases hadd
    · next atom hatom =>
      obtain rfl := Except.ok.inj hadd
      exact ⟨_, rfl, h.map
        (f := fun l => { l with parts := .repeated atom min max mode :: l.parts, atom := none })
          fun _ => rfl⟩
  | opening kind =>
    obtain rfl := Except.ok.inj hadd
    exact ⟨_, rfl, .group {} kind start start' h⟩
  | bar =>
    obtain rfl := Except.ok.inj hadd
    exact ⟨_, rfl, h.map (f := Level.addBar) fun _ => rfl⟩
  | close =>
    cases h with
    | level l => cases hadd
    | group l kind opened opened' houter =>
      obtain rfl := Except.ok.inj hadd
      exact ⟨_, rfl, houter.map (f := fun outer => outer.addAtom (kind.group l.pattern))
        fun _ => rfl⟩

theorem readAll_cons {c : Char} {rest : List Char} (hread : Token.read c s = .ok (token, rest))
    (hadd : p.add (c :: s) token = .ok q) : p.readAll (c :: s) = q.readAll rest := by
  rw [readAll]
  split
  · next heq =>
    rw [hread] at heq
    cases heq
  · next heq =>
    rw [hread] at heq
    cases heq
    rw [hadd]

theorem readAll_of_error {c : Char} {e : ParseError (List Char)}
    (hread : Token.read c s = .error e) :
    p.readAll (c :: s) = .error e := by
  rw [readAll]
  split
  · next heq =>
    rw [hread] at heq
    cases heq
    rfl
  · next heq =>
    rw [hread] at heq
    cases heq

/-- A text that can be read to its end is read inside a longer text up to its end.  Then what it
adds to the branches before it is its pattern. -/
theorem exists_readAll_append (ht : EndsToken t) (hsound : p.Sound)
    (h : Around branches groups p p') (hread : p.readAll s = .ok pattern) :
    ∃ l : Level, l.Sound ∧ l.pattern = pattern ∧
      p'.readAll (s ++ t) = readAll ⟨l.after branches, groups⟩ t := by
  fun_induction readAll p s generalizing p' with
  | case1 p =>
    cases h with
    | level l =>
      obtain rfl := Except.ok.inj hread
      exact ⟨l, hsound.level, rfl, rfl⟩
    | group => cases hread
  | case2 => cases hread
  | case3 => cases hread
  | case4 p c s token rest htoken q hadd ih =>
    obtain ⟨q', hadd', haround⟩ := around_add h hadd (c :: (s ++ t))
    obtain ⟨l, hl, hpattern, hrest⟩ :=
      ih (sound_add hsound (Token.sound_of_read htoken) hadd) haround hread
    refine ⟨l, hl, hpattern, ?_⟩
    rw [← hrest, List.cons_append]
    exact readAll_cons (Token.read_append ht htoken) hadd'

end Partial

/-! ## Branches -/

namespace Pattern

/-- The branches of a pattern. -/
def branches : Pattern → List Pattern
  | alt branches => branches
  | p => [p]

theorem Normal.branches_eq {p : Pattern} (h : Normal .branch p) : p.branches = [p] := by
  cases h <;> rfl

theorem parse_eq_ok_iff {text : List Char} {p : Pattern} :
    parse text = .ok p ↔ Partial.readAll {} text = .ok p := by
  unfold parse read
  cases Partial.readAll {} text <;> simp [Except.mapError]

end Pattern

namespace Level

variable {l : Level}

theorem after_nil (l : Level) : l.after [] = l := by
  unfold after
  rw [List.append_nil]

/-- The branches of what has been read of a level. -/
theorem Sound.branches_pattern (h : l.Sound) :
    l.pattern.branches = (l.branch :: l.branches).reverse := by
  unfold pattern
  by_cases hnil : l.branches = []
  · rw [hnil]
    exact h.normal_branch.branches_eq
  · have hlength : (l.branch :: l.branches).reverse.length ≠ 1 := by simpa using hnil
    rw [Pattern.choice_of_length_ne hlength]
    rfl

end Level

/-! ## Groups -/

/-- The flags with those of the letters set or cleared. -/
def FlagOverride.put (flags : FlagOverride) (value : Bool) (letters : List Char) :
    FlagOverride where
  ignoreCase := if 'i' ∈ letters then some value else flags.ignoreCase
  multiline := if 'm' ∈ letters then some value else flags.multiline
  dotAll := if 's' ∈ letters then some value else flags.dotAll

/-- A letter that stands for a flag. -/
def IsFlagLetter (c : Char) : Prop :=
  c = 'i' ∨ c = 'm' ∨ c = 's'

/-- The text opens a group, which makes another pattern of the one inside. -/
inductive Opens : List Char → (Pattern → Pattern) → Prop
  /-- A group that records. -/
  | capture : Opens ['('] (Pattern.capture none)
  /-- A group that records under a name. -/
  | named {name : List Char} (hne : name ≠ []) (hname : ∀ c ∈ name, Token.isNameChar c) :
      Opens ('(' :: '?' :: '<' :: (name ++ ['>'])) (Pattern.capture (some (.ofList name)))
  /-- A group that only groups. -/
  | plain : Opens ['(', '?', ':'] (Pattern.withFlags {})
  /-- Flags are set. -/
  | setting {on : List Char} (hon : ∀ c ∈ on, IsFlagLetter c) :
      Opens ('(' :: '?' :: (on ++ [':'])) (Pattern.withFlags (FlagOverride.put {} true on))
  /-- Flags are set before the dash and cleared behind it.  What is done last counts. -/
  | clearing {on off : List Char} (hon : ∀ c ∈ on, IsFlagLetter c)
      (hoff : ∀ c ∈ off, IsFlagLetter c) : Opens ('(' :: '?' :: (on ++ '-' :: (off ++ [':'])))
        (Pattern.withFlags ((FlagOverride.put {} true on).put false off))
  /-- A lookahead. -/
  | ahead : Opens ['(', '?', '='] (Pattern.lookAround .ahead false)
  /-- A negative lookahead. -/
  | notAhead : Opens ['(', '?', '!'] (Pattern.lookAround .ahead true)
  /-- A lookbehind. -/
  | behind : Opens ['(', '?', '<', '='] (Pattern.lookAround .behind false)
  /-- A negative lookbehind. -/
  | notBehind : Opens ['(', '?', '<', '!'] (Pattern.lookAround .behind true)
  /-- A group that is tried once. -/
  | atomic : Opens ['(', '?', '>'] Pattern.atomic

namespace Token

theorem readName_of_isNameChar {name : List Char} (hne : name ≠ [])
    (hname : ∀ c ∈ name, isNameChar c)
    (s : List Char) : readName (name ++ '>' :: s) = .ok (.ofList name, s) := by
  have hclose : isNameChar '>' = false := isNameChar_eq_false (by decide) (by decide) (by decide)
  have htake : (name ++ '>' :: s).takeWhile isNameChar = name := by
    rw [List.takeWhile_append_of_pos hname, List.takeWhile_cons_of_neg (by simp [hclose]),
      List.append_nil]
  have hdrop : (name ++ '>' :: s).dropWhile isNameChar = '>' :: s := by
    rw [List.dropWhile_append_of_pos hname, List.dropWhile_cons_of_neg (by simp [hclose])]
  unfold readName
  rw [htake, hdrop]
  exact if_neg hne

theorem readFlags_letters {letters : List Char} (h : ∀ c ∈ letters, IsFlagLetter c) (on : Bool)
    (flags : FlagOverride) (s : List Char) :
    readFlags on flags (letters ++ s) = readFlags on (flags.put on letters) s := by
  induction letters generalizing flags with
  | nil => rfl
  | cons c letters ih =>
    obtain ⟨hc, hletters⟩ := List.forall_mem_cons.1 h
    have hput (flags' : FlagOverride) (heq : flags'.put on letters = flags.put on (c :: letters)) :
        readFlags on flags' (letters ++ s) = readFlags on (flags.put on (c :: letters)) s := by
      rw [ih hletters, heq]
    rcases hc with rfl | rfl | rfl
    · exact hput { flags with ignoreCase := some on } (by simp [FlagOverride.put])
    · exact hput { flags with multiline := some on } (by simp [FlagOverride.put])
    · exact hput { flags with dotAll := some on } (by simp [FlagOverride.put])

/-- Letters, a dash and a colon are not the opening of another kind of group. -/
theorem readKind_letters {letters s : List Char} (h : ∀ c ∈ letters, IsFlagLetter c)
    (hs : ∀ c ∈ s.head?, c = ':' ∨ c = '-') :
    readKind ('?' :: (letters ++ s)) =
      (readFlags true {} (letters ++ s)).map fun (flags, rest) => (.withFlags flags, rest) := by
  have hfirst {c : Char} (hc : ¬IsFlagLetter c) (hc' : c ≠ ':' ∧ c ≠ '-') :
      ∀ tail, letters ++ s ≠ c :: tail := by
    intro tail heq
    cases letters with
    | nil =>
      rw [List.nil_append] at heq
      rcases hs c (by rw [heq]; rfl) with rfl | rfl
      · exact hc'.1 rfl
      · exact hc'.2 rfl
    | cons d letters =>
      obtain ⟨rfl, -⟩ := List.cons.inj heq
      exact hc (h d List.mem_cons_self)
  have hangle := hfirst (c := '<') (by simp [IsFlagLetter]) (by decide)
  exact readKind.eq_7 _ (hfirst (by simp [IsFlagLetter]) (by decide))
    (hfirst (by simp [IsFlagLetter]) (by decide))
    (fun _ => hangle _) (fun _ => hangle _) (hfirst (by simp [IsFlagLetter]) (by decide)) hangle

/-- The opening of a group is read whatever pattern follows. -/
theorem read_of_opens {opener s : List Char} {wrap : Pattern → Pattern} (h : Opens opener wrap)
    (hs : ∀ tail, s ≠ '?' :: tail) :
    ∃ kind tail, kind.group = wrap ∧ opener = '(' :: tail ∧
      read '(' (tail ++ s) = .ok (.opening kind, s) := by
  have hread (kind : GroupKind) {tail : List Char} (hkind : readKind (tail ++ s) = .ok (kind, s)) :
      ∃ kind' tail', kind'.group = kind.group ∧ '(' :: tail = '(' :: tail' ∧
        read '(' (tail' ++ s) = .ok (.opening kind', s) := by
    refine ⟨kind, tail, rfl, rfl, ?_⟩
    show (readKind (tail ++ s)).map _ = _
    rw [hkind]
    rfl
  cases h with
  | capture =>
    apply hread (.capture none)
    exact readKind.eq_8 _ (fun _ => hs _) (fun _ => hs _) (fun _ => hs _) (fun _ => hs _)
      (fun _ => hs _) (fun _ => hs _) hs
  | @named name hne hname =>
    apply hread (.capture (some (.ofList name)))
    have hfirst {c : Char} (hc : isNameChar c = false) : ∀ tail, name ++ '>' :: s ≠ c :: tail := by
      intro tail heq
      obtain ⟨d, name, rfl⟩ := List.exists_cons_of_ne_nil hne
      obtain ⟨rfl, -⟩ := List.cons.inj heq
      rw [hname d List.mem_cons_self] at hc
      cases hc
    have hequal := hfirst (isNameChar_eq_false (c := '=') (by decide) (by decide) (by decide))
    have hbang := hfirst (isNameChar_eq_false (c := '!') (by decide) (by decide) (by decide))
    have htext : '?' :: '<' :: (name ++ ['>']) ++ s = '?' :: '<' :: (name ++ '>' :: s) := by simp
    rw [htext, readKind.eq_6 _ hequal hbang, readName_of_isNameChar hne hname]
    rfl
  | plain => exact hread (.withFlags {}) rfl
  | @setting on hon =>
    apply hread (.withFlags (FlagOverride.put {} true on))
    have htext : '?' :: (on ++ [':']) ++ s = '?' :: (on ++ ':' :: s) := by simp
    rw [htext, readKind_letters hon (by simp), readFlags_letters hon]
    rfl
  | @clearing on off hon hoff =>
    apply hread (.withFlags ((FlagOverride.put {} true on).put false off))
    have htext : '?' :: (on ++ '-' :: (off ++ [':'])) ++ s =
        '?' :: (on ++ '-' :: (off ++ ':' :: s)) := by simp
    rw [htext, readKind_letters hon (by simp), readFlags_letters hon, readFlags, if_pos rfl,
      readFlags_letters hoff]
    rfl
  | ahead => exact hread (.lookAround .ahead false) rfl
  | notAhead => exact hread (.lookAround .ahead true) rfl
  | behind => exact hread (.lookAround .behind false) rfl
  | notBehind => exact hread (.lookAround .behind true) rfl
  | atomic => exact hread (.atomic) rfl

end Token

namespace Partial

variable {l : Level} {groups : List (OpenGroup (List Char))} {body rest : List Char}
    {pattern : Pattern}

/-- No pattern begins with a quantifier. -/
theorem ne_cons_of_readAll (h : readAll {} body = .ok pattern) : ∀ tail, body ≠ '?' :: tail := by
  rintro tail rfl
  rw [readAll] at h
  split at h
  · cases h
  · next heq =>
    cases heq
    cases h

/-- A group around a pattern becomes the atom of the level around it. -/
theorem readAll_group {opener : List Char} {wrap : Pattern → Pattern} (hopens : Opens opener wrap)
    (h : readAll {} body = .ok pattern) (l : Level) (groups : List (OpenGroup (List Char)))
    (rest : List Char) :
    readAll ⟨l, groups⟩ (opener ++ (body ++ ')' :: rest)) =
      readAll ⟨l.addAtom (wrap pattern), groups⟩ rest := by
  have hends := endsToken_cons (by decide : ')' ∈ tokenEnds) rest
  have hmark := hends.append_ne_cons (by decide) (ne_cons_of_readAll h)
  obtain ⟨kind, tail, rfl, rfl, hread⟩ := Token.read_of_opens hopens hmark
  rw [List.cons_append, readAll_cons hread rfl]
  have haround : Around [] (⟨kind, '(' :: (tail ++ (body ++ ')' :: rest)), l⟩ :: groups) {}
      ⟨{}, ⟨kind, '(' :: (tail ++ (body ++ ')' :: rest)), l⟩ :: groups⟩ := .level {}
  obtain ⟨inner, -, rfl, hinner⟩ := exists_readAll_append hends sound_empty haround h
  rw [hinner, Level.after_nil]
  exact readAll_cons rfl rfl

end Partial

/-! ## Whole patterns -/

namespace Pattern

variable {p q : List Char} {A B : Pattern}

theorem parse_alt (hp : parse p = .ok A) (hq : parse q = .ok B) :
    parse (p ++ '|' :: q) = .ok (.alt (A.branches ++ B.branches)) := by
  rw [parse_eq_ok_iff] at hp hq ⊢
  have haround (branches : List Pattern) :
      Partial.Around branches [] {} ⟨Level.after {} branches, []⟩ :=
    .level {}
  obtain ⟨l, hl, rfl, hleft⟩ :=
    Partial.exists_readAll_append (endsToken_cons (by decide : '|' ∈ tokenEnds) q)
      Partial.sound_empty (haround []) hp
  obtain ⟨m, hm, rfl, hright⟩ := Partial.exists_readAll_append endsToken_nil Partial.sound_empty
    (haround (l.branch :: l.branches)) hq
  have hbranches : (m.after (l.branch :: l.branches)).pattern =
      .alt (l.pattern.branches ++ m.pattern.branches) := by
    rw [hl.branches_pattern, hm.branches_pattern, ← List.reverse_append]
    apply choice_of_length_ne
    simp only [Level.after, List.length_reverse, List.length_append, List.length_cons]
    omega
  calc Partial.readAll {} (p ++ '|' :: q)
    _ = Partial.readAll ⟨l.after [], []⟩ ('|' :: q) := hleft
    _ = Partial.readAll ⟨l, []⟩ ('|' :: q) := by rw [Level.after_nil]
    _ = Partial.readAll ⟨l.addBar, []⟩ q := Partial.readAll_cons rfl rfl
    _ = Partial.readAll ⟨l.addBar, []⟩ (q ++ []) := by rw [List.append_nil]
    _ = Partial.readAll ⟨m.after (l.branch :: l.branches), []⟩ [] := hright
    _ = .ok (m.after (l.branch :: l.branches)).pattern := by rw [Partial.readAll]; rfl
    _ = _ := by rw [hbranches]

theorem parse_group (hp : parse p = .ok A) {opener : List Char} {wrap : Pattern → Pattern}
    (hopens : Opens opener wrap) : parse (opener ++ (p ++ [')'])) = .ok (wrap A) := by
  rw [parse_eq_ok_iff] at hp ⊢
  rw [show ({} : Partial (List Char)) = ⟨{}, []⟩ from rfl, Partial.readAll_group hopens hp,
    Partial.readAll]
  cases hopens <;> rfl

theorem parse_concat (hp : parse p = .ok A) (hq : parse q = .ok B) :
    parse (['(', '?', ':'] ++ (p ++ ')' :: (['(', '?', ':'] ++ (q ++ [')'])))) =
      .ok (.concat [.withFlags {} A, .withFlags {} B]) := by
  rw [parse_eq_ok_iff] at hp hq ⊢
  rw [show ({} : Partial (List Char)) = ⟨{}, []⟩ from rfl, Partial.readAll_group .plain hp,
    Partial.readAll_group .plain hq, Partial.readAll]
  rfl

/-- Texts that are read as patterns are read so inside a longer text: as the branches before and
behind a bar, as what is inside a group of any kind, and as two groups one behind the other. -/
theorem parse_compose (hp : parse p = .ok A) (hq : parse q = .ok B) :
    parse (p ++ '|' :: q) = .ok (.alt (A.branches ++ B.branches)) ∧
      (∀ opener wrap, Opens opener wrap → parse (opener ++ (p ++ [')'])) = .ok (wrap A)) ∧
      parse (['(', '?', ':'] ++ (p ++ ')' :: (['(', '?', ':'] ++ (q ++ [')'])))) =
        .ok (.concat [.withFlags {} A, .withFlags {} B]) :=
  ⟨parse_alt hp hq, fun _ _ hopens => parse_group hp hopens, parse_concat hp hq⟩

/-- A brace without bounds and an octal number go on no further than the text that they end. -/
theorem parse_compose_unfinished :
    parse "a\x7b2".toList = .ok (.text ['a', '{', '2']) ∧
      parse "b|\\0".toList = .ok (.alt [.text ['b'], .text ['\x00']]) ∧
      parse ("a\x7b2".toList ++ '|' :: "b|\\0".toList) =
        .ok (.alt [.text ['a', '{', '2'], .text ['b'], .text ['\x00']]) ∧
      parse (['('] ++ ("a\x7b2".toList ++ [')'])) = .ok (.capture none (.text ['a', '{', '2'])) ∧
      parse (['(', '?', '<', '!'] ++ ("a\x7b2".toList ++ [')'])) =
        .ok (.lookAround .behind true (.text ['a', '{', '2'])) ∧
      parse (['(', '?', ':'] ++
          ("a\x7b2".toList ++ ')' :: (['(', '?', ':'] ++ ("b|\\0".toList ++ [')'])))) =
        .ok (.concat [.withFlags {} (.text ['a', '{', '2']),
          .withFlags {} (.alt [.text ['b'], .text ['\x00']])]) := by
  have hp : parse "a\x7b2".toList = .ok (.text ['a', '{', '2']) := by cbv
  have hq : parse "b|\\0".toList = .ok (.alt [.text ['b'], .text ['\x00']]) := by cbv
  obtain ⟨halt, hgroup, hconcat⟩ := parse_compose hp hq
  exact ⟨hp, hq, halt, hgroup _ _ .capture, hgroup _ _ .notBehind, hconcat⟩

end Pattern

end RegexEngine
