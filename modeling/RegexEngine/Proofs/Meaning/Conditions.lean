import RegexEngine.Automaton.Compile
import RegexEngine.Proofs.CharSet.Folding
import RegexEngine.Proofs.Text.Boundary
import RegexEngine.Search.Step

/-!
# What is asked of a character or a position

A pattern asks of a character whether it is in a set, or whether it is a variant of another one, and
of a position whether an assertion holds there.  The options say how the pattern means it.  Here is
what the answers are, without the sets and the categories that they are found with.

* `Options.overlay_overlay` is about groups that set options inside each other.
* `Automaton.Build.test_charSet`, `Automaton.Build.test_classSet_exactCase` and
  `Automaton.Build.test_classSet_folded` say which characters match.
* `Trial.sameFolded_eq` says that characters are compared as their variants are.
* `Look.Holds` is what an assertion asks of the characters on the two sides of a position, and
  `Look.holdsAt_iff` says that it is decided.
-/

namespace RegexEngine

open CaseFolding (Variants)

/-! ## Options -/

/-- A group without flags leaves the options alone. -/
theorem Options.overlay_empty (o : Options) : o.overlay {} = o :=
  rfl

/-- Of two groups inside each other the inner one decides, where it has a flag. -/
theorem Options.overlay_overlay (o : Options) (outer inner : FlagOverride) :
    (o.overlay outer).overlay inner = o.overlay
      { ignoreCase := inner.ignoreCase.or outer.ignoreCase
        multiline := inner.multiline.or outer.multiline
        dotAll := inner.dotAll.or outer.dotAll } := by
  simp [overlay, Option.getD_or]

/-! ## Characters -/

namespace CharSet

variable {c : Char}

/-- The word characters are the ASCII letters, the ASCII digits and the underscore. -/
theorem test_word : word.test c ↔
    'a' ≤ c ∧ c ≤ 'z' ∨ 'A' ≤ c ∧ c ≤ 'Z' ∨ '0' ≤ c ∧ c ≤ '9' ∨ c = '_' := by
  rw [word, test_ofRanges]
  simp [mem_single_iff, CharRange.mem_of (show 'a' ≤ 'z' by decide),
    CharRange.mem_of (show 'A' ≤ 'Z' by decide), CharRange.mem_of (show '0' ≤ '9' by decide)]

theorem test_lineTerminators :
    lineTerminators.test c ↔ c = '\n' ∨ c = '\r' ∨ c = '\u2028' ∨ c = '\u2029' := by
  simp [lineTerminators, test_ofChars]

/-- The dot matches no line terminator. -/
theorem test_anyButLineTerminators : anyButLineTerminators.test c = !lineTerminators.test c :=
  test_compl_of_next_lt (by decide) c

end CharSet

namespace Automaton.Build

variable {o : Options} {set : CharSet} {c d : Char}

/-- A character matches itself, and without regard to letter case its variants. -/
theorem test_charSet (ignoreCase : Bool) :
    (charSet ignoreCase d).test c ↔ c = d ∨ ignoreCase = true ∧ Variants c d := by
  unfold charSet
  cases ignoreCase with
  | false => simp [CharSet.test_ofChar]
  | true =>
    simp only [if_true, CharSet.test_caseFolded, CharSet.test_ofChar, decide_eq_true_iff, true_and]
    constructor
    · rintro ⟨_, hvariants, rfl⟩
      exact .inr hvariants
    · rintro (rfl | hvariants)
      · exact ⟨c, .refl c, rfl⟩
      · exact ⟨d, hvariants, rfl⟩

/-- A class matches its members, but the line terminators if its set is that of the dot and the
option for them is off. -/
theorem test_classSet_exactCase (h : o.ignoreCase = false) :
    (classSet o set).test c =
      (set.test c && (o.dotAll || set ≠ .any || !CharSet.lineTerminators.test c)) := by
  unfold classSet
  rw [h, if_neg Bool.false_ne_true]
  by_cases hany : set = .any
  · subst hany
    cases hdot : o.dotAll with
    | true => simp
    | false => simp [CharSet.test_anyButLineTerminators]
  · simp [hany]

/-- Without regard to letter case a class matches the variants of what it matches otherwise. -/
theorem test_classSet_folded (h : o.ignoreCase = true) :
    (classSet o set).test c ↔
      ∃ d, Variants c d ∧ (classSet { o with ignoreCase := false } set).test d := by
  unfold classSet
  rw [h, if_pos rfl, CharSet.test_caseFolded]
  rfl

end Automaton.Build

/-- Two characters are alike but for their case if they are variants of each other. -/
theorem Trial.sameFolded_eq (expected c : Char) :
    sameFolded expected c = decide (Variants c expected) := by
  rw [Bool.eq_iff_iff, sameFolded, Bool.or_eq_true, beq_iff_eq, CharSet.test_caseFolded,
    decide_eq_true_iff]
  simp only [CharSet.test_ofChar, decide_eq_true_iff]
  constructor
  · rintro (rfl | ⟨_, hvariants, rfl⟩)
    · exact .refl c
    · exact hvariants
  · exact fun hvariants => .inr ⟨expected, hvariants, rfl⟩

/-! ## Positions -/

namespace Subject

/-- The character before a position is the last one of the text up to there. -/
theorem charBefore?_byteLength {text : Subject} {before after : List Char}
    (h : text.chars = before ++ after) :
    text.charBefore? (byteLength before) = before.getLast? := by
  rcases List.eq_nil_or_concat before with rfl | ⟨first, c, rfl⟩
  · rfl
  · have hc : text.charAt? (byteLength first) = some c := by
      have hrest : text.chars = first ++ c :: after := by simpa using h
      rw [charAt?_byteLength hrest]
      rfl
    have hlength : byteLength (first ++ [c]) = byteLength first + c.utf8Size := by
      simp [byteLength_append, byteLength]
    rw [List.concat_eq_append, hlength, charBefore?_add hc, List.getLast?_concat]

end Subject

namespace Category

variable {side : Option Char}

theorem ofChar?_eq_edge : ofChar? side = edge ↔ side = none := by
  cases side with
  | none => simp [ofChar?]
  | some c => simp [ofChar?, ← test_members_iff, members, CharSet.test_empty]

theorem ofChar?_eq_word : ofChar? side = word ↔ ∃ c ∈ side, CharSet.word.test c := by
  cases side with
  | none => simp [ofChar?]
  | some c => simp [ofChar?, ← test_members_iff, members]

theorem ofChar?_eq_lineTerminator :
    ofChar? side = lineTerminator ↔ ∃ c ∈ side, CharSet.lineTerminators.test c := by
  cases side with
  | none => simp [ofChar?]
  | some c => simp [ofChar?, ← test_members_iff, members]

/-- The edge of a text ends a line too. -/
theorem ofChar?_endsLine :
    ofChar? side = edge ∨ ofChar? side = lineTerminator ↔
      ∀ c ∈ side, CharSet.lineTerminators.test c := by
  rw [ofChar?_eq_edge, ofChar?_eq_lineTerminator]
  cases side <;> simp

end Category

namespace Look

/-- What an assertion asks of the characters on the two sides of a position. -/
def Holds (before after : Option Char) : Look → Prop
  | wordBoundary => ¬((∃ c ∈ before, CharSet.word.test c) ↔ ∃ c ∈ after, CharSet.word.test c)
  | notWordBoundary => (∃ c ∈ before, CharSet.word.test c) ↔ ∃ c ∈ after, CharSet.word.test c
  | textStart => before = none
  | textEnd => after = none
  | lineStart => ∀ c ∈ before, CharSet.lineTerminators.test c
  | lineEnd => ∀ c ∈ after, CharSet.lineTerminators.test c

/-- The categories of the two sides decide an assertion. -/
theorem holds_iff (look : Look) (before after : Option Char) :
    look.holds (.ofChar? before) (.ofChar? after) ↔ look.Holds before after := by
  cases look with
  | wordBoundary =>
    rw [Holds, ← Category.ofChar?_eq_word, ← Category.ofChar?_eq_word, holds, bne_iff_ne, ne_eq,
      Bool.eq_iff_iff, beq_iff_eq, beq_iff_eq]
  | notWordBoundary =>
    rw [Holds, ← Category.ofChar?_eq_word, ← Category.ofChar?_eq_word, holds, beq_iff_eq,
      Bool.eq_iff_iff, beq_iff_eq, beq_iff_eq]
  | textStart => simp [holds, Holds, Category.ofChar?_eq_edge]
  | textEnd => simp [holds, Holds, Category.ofChar?_eq_edge]
  | lineStart =>
    rw [Holds, ← Category.ofChar?_endsLine]
    simp [holds]
  | lineEnd =>
    rw [Holds, ← Category.ofChar?_endsLine]
    simp [holds]

/-- Between two parts of a text an assertion holds as the last character of the one and the first
character of the other say. -/
theorem holdsAt_iff (look : Look) {text : Subject} {before after : List Char}
    (h : text.chars = before ++ after) :
    look.holdsAt text (byteLength before) ↔ look.Holds before.getLast? after.head? := by
  rw [holdsAt, Category.before, Category.after, Subject.charBefore?_byteLength h,
    Subject.charAt?_byteLength h, holds_iff]

end Look

end RegexEngine
