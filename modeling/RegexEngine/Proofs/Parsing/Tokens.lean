import RegexEngine.Proofs.Parsing.Bounds
import RegexEngine.Proofs.Parsing.Render

/-!
# Reading what has been written

Each piece of a pattern is read as what was written, and the text that follows it remains.

* `Escape.read_char` is about characters, inside a class or outside.
* `Class.read_set` is about classes whose ranges do not touch, `CharSet.Canonical`.
* The lemmas about `Token.read` are about the pieces of which a pattern consists.
-/

namespace RegexEngine

/-! ## Characters -/

namespace Escape

theorem untilBrace_append {body rest : List Char} (h : '}' ∉ body) :
    untilBrace (body ++ '}' :: rest) = .ok (body, rest) := by
  have hall : ∀ c ∈ body, decide (c ≠ '}') = true := by
    intro c hc
    exact decide_eq_true fun heq => h (heq ▸ hc)
  unfold untilBrace
  rw [List.dropWhile_append_of_pos hall, List.takeWhile_append_of_pos hall]
  simp

theorem braced?_toDigits (c : Char) : braced? (Nat.toDigits 16 c.toNat) = some c := by
  have hplus : ∀ d < 16, d.digitChar ≠ '+' := by decide
  have hne : ∀ digits, Nat.toDigits 16 c.toNat ≠ '+' :: digits := by
    intro digits heq
    have hmem : '+' ∈ Nat.toDigits 16 c.toNat := by simp [heq]
    obtain ⟨d, hd, hchar⟩ := Numeral.exists_digitChar_of_mem_toDigits hmem
    exact hplus d hd hchar.symm
  unfold braced?
  dsimp only
  split
  · rename_i digits heq
    exact absurd heq (hne digits)
  · rw [if_neg Nat.toDigits_ne_nil, Numeral.hexValue?_toDigits]
    exact Numeral.scalar?_toNat c

/-- A character that has been written is read after its backslash. -/
theorem read_char (inClass : Bool) (c : Char) (rest : List Char) :
    read inClass ('u' :: '{' :: (Nat.toDigits 16 c.toNat ++ '}' :: rest)) =
      .ok (.char c, rest) := by
  have hbrace : ∀ d < 16, d.digitChar ≠ '}' := by decide
  have hnot : '}' ∉ Nat.toDigits 16 c.toNat := by
    intro hmem
    obtain ⟨d, hd, hchar⟩ := Numeral.exists_digitChar_of_mem_toDigits hmem
    exact hbrace d hd hchar.symm
  have hnamed : named? inClass 'u' = none := by cases inClass <;> rfl
  simp only [read, hnamed, untilBrace_append hnot, braced?_toDigits, Option.map_some, numbered]

end Escape

/-! ## Classes -/

namespace CharSet

theorem foldr_insertRange {ranges : List CharRange}
    (h : ranges.Pairwise fun r t => r.last.toNat + 1 < t.first.toNat) :
    ranges.foldr insertRange [] = ranges := by
  induction ranges with
  | nil => rfl
  | cons r rest ih =>
    obtain ⟨hr, hrest⟩ := List.pairwise_cons.1 h
    rw [List.foldr_cons, ih hrest]
    cases rest with
    | nil => rfl
    | cons s rest =>
      have hlt : r.last.toNat + 1 < s.first.toNat := hr s List.mem_cons_self
      have htouches : r.touches s = false := by
        simp only [CharRange.touches, Bool.and_eq_false_iff, decide_eq_false_iff_not]
        omega
      have hbefore : r.last < s.first := show r.last.toNat < s.first.toNat by omega
      rw [insertRange, htouches, if_neg Bool.false_ne_true, if_pos hbefore]

theorem eq_of_toList_ranges {s t : CharSet} (h : s.ranges.toList = t.ranges.toList) : s = t := by
  cases s
  cases t
  simpa using h

theorem ofRange_first_last (r : CharRange) : (ofRange r.first r.last).ranges.toList = [r] := by
  simp [ofRange, CharRange.of, r.first_le_last]

/-- A range that lies after a set is added at the end. -/
theorem union_ofRange {s : CharSet} {r : CharRange}
    (h : (s.ranges.toList ++ [r]).Pairwise fun r t => r.last.toNat + 1 < t.first.toNat) :
    (s.union (ofRange r.first r.last)).ranges.toList = s.ranges.toList ++ [r] := by
  have hne : s ≠ ofRange r.first r.last := by
    intro heq
    have hmem : r ∈ s.ranges.toList := by
      rw [heq, ofRange_first_last]
      exact List.mem_singleton_self r
    have hlt := (List.pairwise_append.1 h).2.2 r hmem r (List.mem_singleton_self r)
    have hle : r.first.toNat ≤ r.last.toNat := r.first_le_last
    omega
  have hnonempty : (ofRange r.first r.last).isEmpty = false := rfl
  rw [union, hnonempty, Bool.false_or, if_neg (by simpa using hne), ofRange_first_last]
  exact foldr_insertRange h

theorem foldl_union_ofRange {s : CharSet} {ranges : List CharRange}
    (h : (s.ranges.toList ++ ranges).Pairwise fun r t => r.last.toNat + 1 < t.first.toNat) :
    (ranges.foldl (fun t r => t.union (ofRange r.first r.last)) s).ranges.toList =
      s.ranges.toList ++ ranges := by
  induction ranges generalizing s with
  | nil => rw [List.foldl_nil, List.append_nil]
  | cons r ranges ih =>
    rw [List.append_cons] at h ⊢
    have hunion := union_ofRange (List.pairwise_append.1 h).1
    rw [← hunion] at h ⊢
    exact ih h

end CharSet

/-- The item that stands for a range. -/
def ClassItem.ofRange (r : CharRange) : ClassItem :=
  .range r.first r.last

namespace Class

variable {rest : List Char}

theorem readAtom_char (c : Char) : readAtom (Render.char c ++ rest) = .ok (.char c, rest) := by
  show Escape.read true (('u' :: '{' :: (Nat.toDigits 16 c.toNat ++ ['}'])) ++ rest) = _
  simp only [List.cons_append, List.append_assoc, List.nil_append]
  exact Escape.read_char true c rest

/-- A range is read as an item. -/
theorem readItem_range (r : CharRange) :
    readItem (Render.range r ++ rest) = .ok (.ofRange r, rest) := by
  have hdash : afterDash? ('-' :: (Render.char r.last ++ rest)) =
      some (Render.char r.last ++ rest) :=
    rfl
  rw [Render.range, List.append_assoc, List.cons_append]
  unfold readItem
  rw [readAtom_char]
  dsimp only
  rw [hdash]
  dsimp only
  rw [readRange, readAtom_char]
  exact if_pos r.first_le_last

theorem readItems_cons {opening s mid : List Char} {c : Char} {item : ClassItem}
    {items : List ClassItem} (hc : c ≠ ']') (hitem : readItem (c :: s) = .ok (item, mid))
    (hitems : readItems opening mid = .ok (items, rest)) :
    readItems opening (c :: s) = .ok (item :: items, rest) := by
  rw [readItems]
  · split
    · rename_i heq
      rw [hitem] at heq
      cases heq
    · rename_i heq
      rw [hitem] at heq
      cases heq
      rw [hitems]
  · exact hc

/-- The ranges of a class are read up to the bracket. -/
theorem readItems_ranges (opening rest : List Char) (ranges : List CharRange) :
    readItems opening (ranges.flatMap Render.range ++ ']' :: rest) =
      .ok (ranges.map .ofRange, rest) := by
  induction ranges with
  | nil => rw [List.flatMap_nil, List.nil_append, readItems, List.map_nil]
  | cons r ranges ih =>
    rw [List.flatMap_cons, List.append_assoc]
    exact readItems_cons (by decide) (readItem_range r) ih

theorem members_map_range (ranges : List CharRange) :
    members (ranges.map .ofRange) =
      ranges.foldl (fun s r => s.union (.ofRange r.first r.last)) .empty := by
  rw [members, List.foldl_map]
  rfl

/-- The ranges of a canonical set are read as the set. -/
theorem members_ranges {s : CharSet} (h : s.Canonical) :
    members (s.ranges.toList.map .ofRange) = s := by
  have hranges := CharSet.foldl_union_ofRange (s := .empty) h
  rw [members_map_range]
  exact CharSet.eq_of_toList_ranges hranges

/-- A class is read from its ranges, or from those of its complement. -/
theorem read_ranges (opening rest : List Char) (negated : Bool) {ranges : List CharRange}
    (hne : ranges ≠ []) :
    read opening ((if negated then ['^'] else []) ++ (ranges.flatMap Render.range ++ ']' :: rest)) =
      .ok (if negated then (members (ranges.map .ofRange)).compl
        else members (ranges.map .ofRange), rest) := by
  obtain ⟨r, tail, rfl⟩ := List.exists_cons_of_ne_nil hne
  have hitems := readItems_ranges opening rest (r :: tail)
  have hfirst : readFirst ((r :: tail).flatMap Render.range ++ ']' :: rest) =
      ([], (r :: tail).flatMap Render.range ++ ']' :: rest) := rfl
  cases negated with
  | false =>
    have hnegation : readNegation ((r :: tail).flatMap Render.range ++ ']' :: rest) =
        (false, (r :: tail).flatMap Render.range ++ ']' :: rest) := rfl
    simp only [read, Bool.false_eq_true, if_false, List.nil_append, hnegation, hfirst, hitems]
  | true =>
    have hnegation : readNegation ('^' :: ((r :: tail).flatMap Render.range ++ ']' :: rest)) =
        (true, (r :: tail).flatMap Render.range ++ ']' :: rest) := rfl
    simp only [read, if_true, List.cons_append, List.nil_append, hnegation, hfirst, hitems]

theorem compl_members_all :
    (members ([.of Scalar.least Scalar.greatest].map .ofRange)).compl = .empty := by
  decide

/-- A class is read as the set that was written. -/
theorem read_set {s : CharSet} (h : s.Canonical) (opening rest : List Char) :
    read opening (Render.ranges s ++ ']' :: rest) = .ok (s, rest) := by
  unfold Render.ranges
  by_cases hempty : s.ranges.toList = []
  · have hs : s = .empty := CharSet.eq_of_toList_ranges hempty
    have hread := read_ranges opening rest true
      (List.cons_ne_nil (.of Scalar.least Scalar.greatest) [])
    rw [if_pos rfl, if_pos rfl, compl_members_all, List.flatMap_singleton] at hread
    rw [hs]
    exact hread
  · have hisEmpty : ¬s.isEmpty := by simpa [CharSet.isEmpty] using hempty
    have hread := read_ranges opening rest false hempty
    rw [if_neg Bool.false_ne_true, if_neg Bool.false_ne_true, members_ranges h] at hread
    rw [if_neg hisEmpty]
    exact hread

end Class

/-! ## Tokens -/

namespace Token

/-- The text is read as the token, before any text that can follow. -/
def IsReadFrom (token : Token) (s : List Char) : Prop :=
  ∃ c inside, s = c :: inside ∧
    ∀ rest, Starts rest → read c (inside ++ rest) = .ok (token, rest)

theorem isReadFrom_char (c : Char) : (atom (.text [c])).IsReadFrom (Render.char c) := by
  refine ⟨_, _, rfl, fun rest _ => ?_⟩
  have hread := Escape.read_char false c rest
  simp [read, readEscape, hread, Except.map]

theorem isReadFrom_set {set : CharSet} (h : set.Canonical) :
    (atom (.oneOf set)).IsReadFrom (Render.set set) := by
  refine ⟨_, _, rfl, fun rest _ => ?_⟩
  have hread := Class.read_set h ('[' :: (Render.ranges set ++ ']' :: rest)) rest
  simp [read, hread, Except.map]

theorem isReadFrom_assertion (a : Assertion) :
    (atom (.assert a)).IsReadFrom (Render.assertion a) := by
  cases a <;> exact ⟨_, _, rfl, fun rest _ => rfl⟩

theorem isReadFrom_bar : bar.IsReadFrom ['|'] :=
  ⟨_, _, rfl, fun _ _ => rfl⟩

theorem isReadFrom_close : close.IsReadFrom [')'] :=
  ⟨_, _, rfl, fun _ _ => rfl⟩

/-! ### References -/

theorem readEscape_toDigits {n : Nat} (hpos : 0 < n) (hlt : n < sizeLimit) {rest : List Char}
    (hrest : Starts rest) :
    readEscape (Nat.toDigits 10 n ++ rest) = .ok (.reference (.index n), rest) := by
  have hdecimal := Numeral.decimal?_toDigits hlt fun c hc => (hrest c hc).1
  obtain ⟨c, digits, hdigits, hzero⟩ := Numeral.exists_toDigits_eq_cons hpos
  have hc : c.isDigit := Numeral.isDigit_of_mem_toDigits (hdigits ▸ List.mem_cons_self)
  rw [hdigits, List.cons_append] at hdecimal ⊢
  unfold readEscape
  split
  case h_1 | h_2 | h_3 =>
    rename_i heq
    obtain ⟨rfl, -⟩ := List.cons_eq_cons.1 heq
    exact absurd hc (by decide)
  case h_4 =>
    rename_i heq
    obtain ⟨rfl, -⟩ := List.cons_eq_cons.1 heq
    rw [if_pos (by simp [hc, hzero]), hdecimal]
  case h_5 =>
    rename_i heq
    cases heq

theorem isReadFrom_reference {group : GroupKey} (h : group.Legible) :
    (atom (.reference group)).IsReadFrom (Render.reference group) := by
  cases group with
  | index n =>
    refine ⟨_, _, rfl, fun rest hrest => ?_⟩
    simp [read, readEscape_toDigits h.1 h.2 hrest, Except.map]
  | name s =>
    refine ⟨_, _, rfl, fun rest _ => ?_⟩
    have hname := h rest
    simp [read, readEscape, hname, Except.map]

/-! ### Groups -/

theorem readKind_flags (f : FlagOverride) (rest : List Char) :
    readKind ('?' :: (Render.flags f ++ rest)) = .ok (.withFlags f, rest) := by
  obtain ⟨_ | ⟨_ | _⟩, _ | ⟨_ | _⟩, _ | ⟨_ | _⟩⟩ := f <;> rfl

/-- The opening of a group is read as what was written. -/
theorem readKind_kind {kind : GroupKind} (h : kind.Legible) {rest : List Char}
    (hrest : Starts rest) : readKind (Render.kind kind ++ rest) = .ok (kind, rest) := by
  cases kind with
  | capture name =>
    cases name with
    | none =>
      show readKind rest = _
      cases rest with
      | nil => rfl
      | cons c rest =>
        have hc : c ≠ '?' := (hrest c rfl).2.1
        simp [readKind, hc]
    | some s =>
      obtain ⟨hname, hhead⟩ := h s rfl
      show readKind ('?' :: '<' :: (s.toList ++ ['>'] ++ rest)) = _
      have hfirst : ∀ c tail, s.toList ++ '>' :: rest = c :: tail → c ≠ '=' ∧ c ≠ '!' := by
        intro c tail heq
        cases hs : s.toList with
        | nil =>
          rw [hs] at heq
          obtain ⟨rfl, -⟩ := List.cons_eq_cons.1 heq
          decide
        | cons d ds =>
          rw [hs] at heq
          obtain ⟨rfl, -⟩ := List.cons_eq_cons.1 heq
          exact hhead d (by rw [hs]; rfl)
      rw [List.append_assoc, List.singleton_append, readKind, hname rest]
      · rfl
      · exact fun tail heq => (hfirst _ tail heq).1 rfl
      · exact fun tail heq => (hfirst _ tail heq).2 rfl
  | withFlags f => exact readKind_flags f rest
  | lookAround direction negated => cases direction <;> cases negated <;> rfl
  | atomic => rfl

theorem isReadFrom_opening {kind : GroupKind} (h : kind.Legible) :
    (opening kind).IsReadFrom ('(' :: Render.kind kind) := by
  refine ⟨_, _, rfl, fun rest hrest => ?_⟩
  simp [read, readKind_kind h hrest, Except.map]

/-! ### Quantifiers -/

theorem bounds?_bounds {min : Nat} {max : Option Nat} (h : LegibleBounds min max)
    (rest : List Char) : bounds? (Render.bounds min max ++ rest) = some (min, max, rest) := by
  obtain ⟨hmin, hmax⟩ := h
  cases max with
  | none =>
    have hfits : (WrittenBounds.atLeast (.ofNat min)).Fits := by
      refine ⟨?_, nofun⟩
      rwa [WrittenBounds.min, Numeral.Digits.value_ofNat]
    have hread := bounds?_text (.atLeast (.ofNat min)) rest
    rw [if_pos hfits, WrittenBounds.min, Numeral.Digits.value_ofNat] at hread
    exact hread
  | some max =>
    have hfits : (WrittenBounds.between (.ofNat min) (.ofNat max)).Fits := by
      refine ⟨?_, ?_⟩
      · rwa [WrittenBounds.min, Numeral.Digits.value_ofNat]
      · rintro m ⟨⟩
        rw [Numeral.Digits.value_ofNat]
        exact (hmax max rfl).2
    have hread := bounds?_text (.between (.ofNat min) (.ofNat max)) rest
    rw [if_pos hfits, WrittenBounds.min, WrittenBounds.max, Numeral.Digits.value_ofNat,
      Numeral.Digits.value_ofNat] at hread
    exact hread

theorem readMode_mode (m : Mode) {rest : List Char} (hrest : Starts rest) :
    readMode (Render.mode m ++ rest) = (m, rest) := by
  cases m with
  | greedy =>
    show readMode rest = _
    cases rest with
    | nil => rfl
    | cons c rest =>
      obtain ⟨-, hlazy, hpossessive⟩ := hrest c rfl
      simp [readMode, hlazy, hpossessive]
  | lazy => rfl
  | possessive => rfl

theorem isReadFrom_quantifier {min : Nat} {max : Option Nat} (m : Mode)
    (h : LegibleBounds min max) :
    (quantifier min max m).IsReadFrom (Render.quantifier min max m) := by
  refine ⟨_, _, rfl, fun rest hrest => ?_⟩
  have hmax : ¬max.any (· < min) := by
    cases max with
    | none => simp
    | some max => simpa using (h.2 max rfl).1
  rw [List.append_assoc]
  show readBrace _ (Render.bounds min max ++ (Render.mode m ++ rest)) = _
  simp only [readBrace, bounds?_bounds h, if_neg hmax, quantified, readMode_mode m hrest]

end Token

end RegexEngine
