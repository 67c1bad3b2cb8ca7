import RegexEngine.Proofs.Parsing.Form
import RegexEngine.Proofs.Parsing.Numeral

/-!
# The form of what has been read

A pattern that has been read is in normal form.

* `Level.Sound` is what holds of a level while a pattern is read, and `Partial.Sound` is what holds
  of all levels.
* `Token.Sound` is what holds of each token that is read.
* `Partial.sound_add` is the step: a token keeps what has been read sound.
* `Pattern.normal_of_parse` is about whole patterns.
-/

namespace RegexEngine

open Pattern (Normal TextsApart isText)

/-! ## Tokens -/

namespace Token

/-- What holds of a token that has been read. -/
def Sound : Token → Prop
  | atom pattern => Normal .body pattern
  | quantifier min max _ => LegibleBounds min max
  | opening kind => kind.Legible
  | bar | close => True

theorem bounds_of_bounds? {s rest : List Char} {min : Nat} {max : Option Nat}
    (h : bounds? s = some (min, max, rest)) (hmax : ¬max.any (· < min)) :
    LegibleBounds min max := by
  have hle : ∀ m ∈ max, min ≤ m := by
    rintro m rfl
    simpa using hmax
  unfold bounds? at h
  split at h
  · rename_i hmin
    obtain ⟨rfl, rfl, rfl⟩ := h
    have hlt := Numeral.lt_of_decimal? hmin
    exact ⟨hlt, fun m hm => ⟨hle m hm, Option.some.inj hm ▸ hlt⟩⟩
  · rename_i hmin
    obtain ⟨rfl, rfl, rfl⟩ := h
    exact ⟨Numeral.lt_of_decimal? hmin, nofun⟩
  · rename_i hmin
    split at h
    · rename_i hread
      obtain ⟨rfl, rfl, rfl⟩ := h
      have hlt := Numeral.lt_of_decimal? hread
      exact ⟨Numeral.lt_of_decimal? hmin, fun m hm => ⟨hle m hm, Option.some.inj hm ▸ hlt⟩⟩
    · simp at h
  · simp at h

theorem sound_of_quantified {s rest : List Char} {min : Nat} {max : Option Nat} {token : Token}
    (hbounds : LegibleBounds min max) (h : quantified min max s = .ok (token, rest)) :
    token.Sound := by
  simp only [quantified, Except.ok.injEq, Prod.mk.injEq] at h
  exact h.1 ▸ hbounds

theorem sound_of_readBrace {start s rest : List Char} {token : Token}
    (h : readBrace start s = .ok (token, rest)) : token.Sound := by
  unfold readBrace at h
  split at h
  · simp only [Except.ok.injEq, Prod.mk.injEq] at h
    rw [← h.1]
    exact .text nofun fun _ => rfl
  · rename_i hbounds
    split at h
    · simp at h
    · rename_i hmax
      exact sound_of_quantified (bounds_of_bounds? hbounds hmax) h

theorem eq_of_readName {s rest : List Char} {name : String}
    (h : readName s = .ok (name, rest)) :
    s.takeWhile isNameChar ≠ [] ∧ name = .ofList (s.takeWhile isNameChar) ∧
      s.dropWhile isNameChar = '>' :: rest := by
  simp only [readName] at h
  split at h
  · simp at h
  · rename_i hne
    split at h
    · rename_i hdrop
      simp only [Except.ok.injEq, Prod.mk.injEq] at h
      exact ⟨hne, h.1.symm, h.2 ▸ hdrop⟩
    · simp at h

/-- A name that has been read is read again, since it ended where no name goes on. -/
theorem isGroupName_of_readName {s rest : List Char} {name : String}
    (h : readName s = .ok (name, rest)) : IsGroupName name := by
  obtain ⟨hne, rfl, hdrop⟩ := eq_of_readName h
  have hclose : isNameChar '>' = false := by
    have hhead := List.head?_dropWhile_not isNameChar s
    rw [hdrop] at hhead
    simpa using hhead
  have hall : ∀ c ∈ s.takeWhile isNameChar, isNameChar c := fun c hc => List.mem_takeWhile_imp hc
  intro tail
  have htake : (s.takeWhile isNameChar ++ '>' :: tail).takeWhile isNameChar =
      s.takeWhile isNameChar := by
    rw [List.takeWhile_append_of_pos hall, List.takeWhile_cons_of_neg (by simp [hclose]),
      List.append_nil]
  have hrest : (s.takeWhile isNameChar ++ '>' :: tail).dropWhile isNameChar = '>' :: tail := by
    rw [List.dropWhile_append_of_pos hall, List.dropWhile_cons_of_neg (by simp [hclose])]
  rw [String.toList_ofList, readName, htake, if_neg hne, hrest]
  rfl

theorem isCaptureName_of_readName {s rest : List Char} {name : String}
    (h : readName s = .ok (name, rest)) (hequal : ∀ tail, s ≠ '=' :: tail)
    (hbang : ∀ tail, s ≠ '!' :: tail) : IsCaptureName name := by
  refine ⟨isGroupName_of_readName h, fun c hc => ?_⟩
  obtain ⟨-, rfl, -⟩ := eq_of_readName h
  rw [String.toList_ofList] at hc
  obtain ⟨tail, htail⟩ := List.head?_eq_some_iff.1 hc
  have hs : s = c :: (tail ++ s.dropWhile isNameChar) := by
    rw [← List.cons_append, ← htail, List.takeWhile_append_dropWhile]
  constructor
  · rintro rfl
    exact hequal _ hs
  · rintro rfl
    exact hbang _ hs

theorem legible_of_readKind {s rest : List Char} {kind : GroupKind}
    (h : readKind s = .ok (kind, rest)) : kind.Legible := by
  unfold readKind at h
  split at h
  case h_6 hequal hbang =>
    obtain ⟨⟨name, tail⟩, hname, heq⟩ := map_eq_ok h
    simp only [Prod.mk.injEq] at heq
    rw [← heq.1]
    intro s hs
    exact Option.some.inj hs ▸ isCaptureName_of_readName hname hequal hbang
  case h_7 =>
    obtain ⟨⟨flags, tail⟩, hflags, heq⟩ := map_eq_ok h
    simp only [Prod.mk.injEq] at heq
    rw [← heq.1]
    trivial
  case h_8 =>
    simp only [Except.ok.injEq, Prod.mk.injEq] at h
    rw [← h.1]
    exact nofun
  all_goals
    simp only [Except.ok.injEq, Prod.mk.injEq] at h
    rw [← h.1]
    trivial

theorem normal_of_readEscape {s rest : List Char} {pattern : Pattern}
    (h : readEscape s = .ok (pattern, rest)) : Normal .body pattern := by
  unfold readEscape at h
  split at h
  · simp only [Except.ok.injEq, Prod.mk.injEq] at h
    exact h.1 ▸ .assert
  · simp only [Except.ok.injEq, Prod.mk.injEq] at h
    exact h.1 ▸ .assert
  · obtain ⟨⟨name, tail⟩, hname, heq⟩ := map_eq_ok h
    simp only [Prod.mk.injEq] at heq
    exact heq.1 ▸ .reference (isGroupName_of_readName hname)
  · split at h
    · rename_i hdigit
      split at h
      · simp at h
      · rename_i hread
        simp only [Except.ok.injEq, Prod.mk.injEq] at h
        simp only [Bool.and_eq_true, decide_eq_true_eq] at hdigit
        have hpos := Numeral.pos_of_decimal? hdigit.1 hdigit.2 hread
        exact h.1 ▸ .reference ⟨hpos, Numeral.lt_of_decimal? hread⟩
    · split at h
      · simp at h
      · simp only [Except.ok.injEq, Prod.mk.injEq] at h
        exact h.1 ▸ .text nofun fun _ => rfl
      · simp only [Except.ok.injEq, Prod.mk.injEq] at h
        exact h.1 ▸ .oneOf
  · simp at h

/-- Each token that is read is sound. -/
theorem sound_of_read {c : Char} {s rest : List Char} {token : Token}
    (h : read c s = .ok (token, rest)) : token.Sound := by
  have hzero : LegibleBounds 0 none := ⟨by decide, nofun⟩
  have hone : LegibleBounds 1 none := ⟨by decide, nofun⟩
  have hoptional : LegibleBounds 0 (some 1) := ⟨by decide, by decide⟩
  unfold read at h
  split at h
  case h_1 =>
    obtain ⟨⟨kind, tail⟩, hkind, heq⟩ := map_eq_ok h
    simp only [Prod.mk.injEq] at heq
    exact heq.1 ▸ legible_of_readKind hkind
  case h_2 | h_3 =>
    simp only [Except.ok.injEq, Prod.mk.injEq] at h
    exact h.1 ▸ trivial
  case h_4 => exact sound_of_quantified hzero h
  case h_5 => exact sound_of_quantified hone h
  case h_6 => exact sound_of_quantified hoptional h
  case h_7 => exact sound_of_readBrace h
  case h_8 =>
    obtain ⟨⟨set, tail⟩, hset, heq⟩ := map_eq_ok h
    simp only [Prod.mk.injEq] at heq
    exact heq.1 ▸ Normal.oneOf
  case h_9 =>
    obtain ⟨⟨pattern, tail⟩, hpattern, heq⟩ := map_eq_ok h
    simp only [Prod.mk.injEq] at heq
    exact heq.1 ▸ normal_of_readEscape hpattern
  case h_10 =>
    simp only [Except.ok.injEq, Prod.mk.injEq] at h
    exact h.1 ▸ Normal.oneOf
  case h_11 | h_12 =>
    simp only [Except.ok.injEq, Prod.mk.injEq] at h
    exact h.1 ▸ Normal.assert
  case h_13 =>
    simp only [Except.ok.injEq, Prod.mk.injEq] at h
    exact h.1 ▸ Normal.text nofun fun _ => rfl

end Token

/-! ## Levels -/

namespace Level

/-- What has been read of a level is in normal form. -/
structure Sound (l : Level) : Prop where
  /-- The finished branches are. -/
  branches : ∀ p ∈ l.branches, Normal .branch p
  /-- The finished parts are. -/
  parts : ∀ p ∈ l.parts, Normal .part p
  /-- Neighbouring texts are one. -/
  apart : TextsApart l.parts
  /-- The atom can be repeated. -/
  atom : ∀ p ∈ l.atom, Normal .body p
  /-- Without an atom the last part is one that has been repeated. -/
  last : l.atom = none → ∀ p ∈ l.parts.head?, ¬p.IsAtom

theorem sound_empty : Sound {} where
  branches := nofun
  parts := nofun
  apart := .nil
  atom := nofun
  last := nofun

variable {l : Level} {p : Pattern} {parts : List Pattern}

theorem normal_push (hp : Normal .part p) (h : ∀ q ∈ parts, Normal .part q) :
    ∀ q ∈ push p parts, Normal .part q := by
  fun_cases push p parts with
  | case1 t s parts =>
    intro q hq
    rcases List.mem_cons.1 hq with rfl | hq
    · cases hp with
      | text hne => exact .text (List.append_ne_nil_of_right_ne_nil _ hne) nofun
    · exact h q (List.mem_cons_of_mem _ hq)
  | case2 => exact List.forall_mem_cons.2 ⟨hp, h⟩

theorem apart_push (h : TextsApart parts) : TextsApart (push p parts) := by
  fun_cases push p parts with
  | case1 t s parts =>
    obtain ⟨hhead, htail⟩ := List.isChain_cons.1 h
    exact List.isChain_cons.2 ⟨hhead, htail⟩
  | case2 p parts hnot =>
    refine List.isChain_cons.2 ⟨?_, h⟩
    rintro q hq ⟨hp, hq'⟩
    obtain ⟨tail, rfl⟩ := List.head?_eq_some_iff.1 hq
    cases p with
    | text t =>
      cases q with
      | text s => exact hnot t s tail rfl rfl
      | _ => simp [isText] at hq'
    | _ => simp [isText] at hp

theorem Sound.normal_settled (h : l.Sound) : ∀ p ∈ l.settled, Normal .part p := by
  unfold settled
  split
  · exact h.parts
  · rename_i hatom
    exact normal_push ((h.atom _ hatom).mono (by decide)) h.parts

theorem Sound.apart_settled (h : l.Sound) : TextsApart l.settled := by
  unfold settled
  split
  · exact h.apart
  · exact apart_push h.apart

theorem Sound.addAtom (h : l.Sound) (hp : Normal .body p) : (l.addAtom p).Sound where
  branches := h.branches
  parts := h.normal_settled
  apart := h.apart_settled
  atom := by
    rintro _ ⟨⟩
    exact hp
  last := nofun

/-- A quantifier that applies to the atom. -/
theorem Sound.repeated (h : l.Sound) {min : Nat} {max : Option Nat} (mode : Mode)
    (hbounds : LegibleBounds min max) (hatom : l.atom = some p) :
    Sound { l with parts := .repeated p min max mode :: l.parts, atom := none } where
  branches := h.branches
  parts := List.forall_mem_cons.2 ⟨.repeated nofun hbounds (h.atom p hatom), h.parts⟩
  apart := List.isChain_cons.2 ⟨by simp [isText], h.apart⟩
  atom := nofun
  last := by
    rintro - _ ⟨⟩
    exact id

theorem Sound.normal_branch (h : l.Sound) : Normal .branch l.branch := by
  have hparts : ∀ p ∈ l.settled.reverse, Normal .part p := fun p hp =>
    h.normal_settled p (List.mem_reverse.1 hp)
  have hapart : TextsApart l.settled.reverse := by
    refine List.isChain_reverse.2 (h.apart_settled.imp ?_)
    rintro p q hnot ⟨hq, hp⟩
    exact hnot ⟨hp, hq⟩
  unfold branch
  generalize l.settled.reverse = parts at hparts hapart
  by_cases hlen : parts.length = 1
  · obtain ⟨p, rfl⟩ := List.length_eq_one_iff.1 hlen
    exact (hparts p List.mem_cons_self).mono (by decide)
  · rw [Pattern.seq_of_length_ne hlen]
    exact .concat (.inr rfl) hlen hapart hparts

theorem Sound.addBar (h : l.Sound) : l.addBar.Sound where
  branches := List.forall_mem_cons.2 ⟨h.normal_branch, h.branches⟩
  parts := nofun
  apart := .nil
  atom := nofun
  last := nofun

/-- What has been read of a level becomes a whole pattern. -/
theorem Sound.normal_pattern (h : l.Sound) : Normal .whole l.pattern := by
  have hbranches : ∀ p ∈ (l.branch :: l.branches).reverse, Normal .branch p := fun p hp =>
    List.forall_mem_cons.2 ⟨h.normal_branch, h.branches⟩ p (List.mem_reverse.1 hp)
  have hpos : 0 < (l.branch :: l.branches).reverse.length := by simp
  unfold pattern
  generalize (l.branch :: l.branches).reverse = branches at hbranches hpos
  by_cases hlen : branches.length = 1
  · obtain ⟨p, rfl⟩ := List.length_eq_one_iff.1 hlen
    exact (hbranches p List.mem_cons_self).mono (by decide)
  · rw [Pattern.choice_of_length_ne hlen]
    exact .alt (by omega) hbranches

end Level

/-! ## Partial patterns -/

namespace Partial

/-- What has been read is in normal form. -/
structure Sound (p : Partial (List Char)) : Prop where
  /-- The innermost level is. -/
  level : p.level.Sound
  /-- The level around each open group is. -/
  groups : ∀ g ∈ p.groups, g.kind.Legible ∧ g.outer.Sound

theorem sound_empty : Sound {} where
  level := Level.sound_empty
  groups := nofun

/-- A token keeps what has been read in normal form. -/
theorem sound_add {p q : Partial (List Char)} {start : List Char} {token : Token} (hp : p.Sound)
    (htoken : token.Sound) (h : p.add start token = .ok q) : q.Sound := by
  cases token with
  | atom pattern =>
    obtain rfl := Except.ok.inj h
    exact ⟨hp.level.addAtom htoken, hp.groups⟩
  | quantifier min max mode =>
    simp only [add] at h
    split at h
    · simp at h
    · rename_i hatom
      obtain rfl := Except.ok.inj h
      exact ⟨hp.level.repeated mode htoken hatom, hp.groups⟩
  | opening kind =>
    obtain rfl := Except.ok.inj h
    exact ⟨Level.sound_empty, List.forall_mem_cons.2 ⟨⟨htoken, hp.level⟩, hp.groups⟩⟩
  | bar =>
    obtain rfl := Except.ok.inj h
    exact ⟨hp.level.addBar, hp.groups⟩
  | close =>
    simp only [add] at h
    split at h
    · simp at h
    · rename_i group groups hgroups
      obtain rfl := Except.ok.inj h
      have hall := hp.groups
      rw [hgroups] at hall
      obtain ⟨⟨hkind, houter⟩, hgroups⟩ := List.forall_mem_cons.1 hall
      exact ⟨houter.addAtom (GroupKind.normal_group hkind hp.level.normal_pattern), hgroups⟩

/-- Reading the rest of a pattern ends in a pattern in normal form. -/
theorem normal_of_readAll {p : Partial (List Char)} {s : List Char} {pattern : Pattern}
    (hp : p.Sound) (h : p.readAll s = .ok pattern) : Normal .whole pattern := by
  fun_induction readAll p s with
  | case1 p =>
    unfold finish at h
    split at h
    · obtain rfl := Except.ok.inj h
      exact hp.level.normal_pattern
    · simp at h
  | case2 => simp at h
  | case3 => simp at h
  | case4 p c s token rest hread q hadd ih =>
    exact ih (sound_add hp (Token.sound_of_read hread) hadd) h

end Partial

/-- A pattern that has been read is in normal form. -/
theorem Pattern.normal_of_parse {text : List Char} {pattern : Pattern}
    (h : Pattern.parse text = .ok pattern) : Normal .whole pattern := by
  unfold parse at h
  cases hread : read text with
  | error e => simp [hread, Except.mapError] at h
  | ok result =>
    have heq : result = pattern := by simpa [hread, Except.mapError] using h
    exact heq ▸ Partial.normal_of_readAll Partial.sound_empty hread

end RegexEngine
