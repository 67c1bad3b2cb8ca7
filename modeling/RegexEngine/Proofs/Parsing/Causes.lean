import RegexEngine.Proofs.Class.Grammar
import RegexEngine.Proofs.Parsing.Remainder
import RegexEngine.Pattern.Parser

/-!
# Causes of errors

An error in the text of a pattern names a place, and at the place stands what the error says.

* `Partial.Reaches` says how far a text has been read, token by token.
* `ParseError.HasCause` says for each error what stands at its place.
* There is one lemma for each reader that can fail, and `Token.hasCause_of_read` is about tokens.
* `Partial.hasCause_of_readAll` is about the rest of a text, wherever its reading has got to.
-/

namespace RegexEngine

open Numeral (Digits)

/-! ## How far a text has been read -/

namespace Partial

/-- While the text is read, there is a time at which this has been read and the second text
remains. -/
inductive Reaches (text : List Char) : Partial (List Char) → List Char → Prop where
  /-- At first nothing has been read. -/
  | start : Reaches text {} text
  /-- Then one token is read after the other. -/
  | token {p q : Partial (List Char)} {c : Char} {s rest : List Char} {token : Token}
      (hbefore : Reaches text p (c :: s)) (hread : Token.read c s = .ok (token, rest))
      (hadd : p.add (c :: s) token = .ok q) : Reaches text q rest

end Partial

/-! ## What errors say -/

namespace ParseError

variable {α β : Type}

/-- The place of an error, if it has one. -/
def place? : ParseError α → Option α
  | unmatchedClose place | unclosedGroup place | nothingToRepeat place | unterminatedClass place
  | badEscape place | missing _ place | badGroup place | badRepetition place => some place
  | badClassRange _ _ | unknownProperty _ => none

/-- The characters with which a quantifier starts. -/
def quantifierStarts : List Char :=
  ['*', '+', '?', '{']

/-- What an error says is so.  The relation tells what remains of the text at a place. -/
def HasCause (text : List Char) (Remains : α → List Char → Prop) : ParseError α → Prop
  -- A parenthesis at which no group is open.
  | unmatchedClose place => ∃ level rest, Remains place (')' :: rest) ∧
      Partial.Reaches text ⟨level, []⟩ (')' :: rest)
  -- The innermost group that is open when nothing remains.
  | unclosedGroup place => ∃ level kind outer groups rest, Remains place ('(' :: rest) ∧
      Partial.Reaches text ⟨level, ⟨kind, '(' :: rest, outer⟩ :: groups⟩ []
  -- A quantifier at which no atom waits.
  | nothingToRepeat place => ∃ c rest, Remains place (c :: rest) ∧ c ∈ quantifierStarts ∧
      ∃ p, p.level.atom = none ∧ Partial.Reaches text p (c :: rest)
  | unterminatedClass place => ∃ rest, Remains place ('[' :: rest)
  -- The first character, the dash, and a smaller character or a set.
  | badClassRange first last =>
    ∃ s mid rest, s <:+ text ∧ Class.AtomAt s (.char first) ('-' :: mid) ∧
      (last < first ∧ Class.AtomAt mid (.char last) rest ∨
        last = '-' ∧ ∃ members, Class.AtomAt mid (.set members) rest)
  | badEscape place => ∃ rest, Remains place rest ∧ '\\' :: rest <:+ text
  | unknownProperty name => Unicode.property? name = none ∧
      ∃ rest, '{' :: (name ++ '}' :: rest) <:+ text
  | missing expected place => ∃ rest, Remains place rest ∧ rest.head? ≠ some expected
  | badGroup place => ∃ rest, Remains place rest
  | badRepetition place => ∃ (min max : Digits) (rest : List Char), max.value < min.value ∧
      Remains place ('{' :: (min.chars ++ ',' :: (max.chars ++ '}' :: rest)))

/-- A place of an error is a place in the text. -/
theorem HasCause.exists_remains {text : List Char} {Remains : α → List Char → Prop}
    {e : ParseError α}
    (h : e.HasCause text Remains) {place : α} (hplace : e.place? = some place) :
      ∃ rest, Remains place rest := by
  cases e with
  | badClassRange => cases hplace
  | unknownProperty => cases hplace
  | unmatchedClose =>
    cases hplace
    obtain ⟨level, rest, hrest, -⟩ := h
    exact ⟨_, hrest⟩
  | unclosedGroup =>
    cases hplace
    obtain ⟨level, kind, outer, groups, rest, hrest, -⟩ := h
    exact ⟨_, hrest⟩
  | nothingToRepeat =>
    cases hplace
    obtain ⟨c, rest, hrest, -⟩ := h
    exact ⟨_, hrest⟩
  | unterminatedClass =>
    cases hplace
    obtain ⟨rest, hrest⟩ := h
    exact ⟨_, hrest⟩
  | badEscape =>
    cases hplace
    obtain ⟨rest, hrest, -⟩ := h
    exact ⟨_, hrest⟩
  | missing =>
    cases hplace
    obtain ⟨rest, hrest, -⟩ := h
    exact ⟨_, hrest⟩
  | badGroup =>
    cases hplace
    exact h
  | badRepetition =>
    cases hplace
    obtain ⟨min, max, rest, -, hrest⟩ := h
    exact ⟨_, hrest⟩

/-- The cause is the same if the places are told in another way. -/
theorem HasCause.map {text : List Char} {Remains : α → List Char → Prop}
    {Remains' : β → List Char → Prop}
    {f : α → β} (hf : ∀ place rest, Remains place rest → Remains' (f place) rest) {e : ParseError α}
    (h : e.HasCause text Remains) : (e.map f).HasCause text Remains' := by
  cases e with
  | badClassRange => exact h
  | unknownProperty => exact h
  | unmatchedClose =>
    obtain ⟨level, rest, hrest, hreaches⟩ := h
    exact ⟨level, rest, hf _ _ hrest, hreaches⟩
  | unclosedGroup =>
    obtain ⟨level, kind, outer, groups, rest, hrest, hreaches⟩ := h
    exact ⟨level, kind, outer, groups, rest, hf _ _ hrest, hreaches⟩
  | nothingToRepeat =>
    obtain ⟨c, rest, hrest, hc, hreaches⟩ := h
    exact ⟨c, rest, hf _ _ hrest, hc, hreaches⟩
  | unterminatedClass =>
    obtain ⟨rest, hrest⟩ := h
    exact ⟨rest, hf _ _ hrest⟩
  | badEscape =>
    obtain ⟨rest, hrest, hbackslash⟩ := h
    exact ⟨rest, hf _ _ hrest, hbackslash⟩
  | missing =>
    obtain ⟨rest, hrest, hhead⟩ := h
    exact ⟨rest, hf _ _ hrest, hhead⟩
  | badGroup =>
    obtain ⟨rest, hrest⟩ := h
    exact ⟨rest, hf _ _ hrest⟩
  | badRepetition =>
    obtain ⟨min, max, rest, hlt, hrest⟩ := h
    exact ⟨min, max, rest, hlt, hf _ _ hrest⟩

end ParseError

/-- A place in the text, told by what remains of it. -/
def RemainsIn (text place rest : List Char) : Prop :=
  place = rest ∧ rest <:+ text

variable {text s rest : List Char} {e : ParseError (List Char)}

theorem map_eq_error {α β ε : Type} {f : α → β} {r : Except ε α} {e : ε} (h : r.map f = .error e) :
    r = .error e := by
  cases r with
  | error => exact congrArg Except.error (Except.error.inj h)
  | ok => cases h

/-! ## Escapes -/

namespace Escape

theorem missing_of_untilBrace (h : untilBrace s = .error e) : e = .missing '}' [] := by
  unfold untilBrace at h
  split at h
  · cases h
    rfl
  · cases h

theorem hasCause_of_property {negated : Bool} (hs : s <:+ text)
    (h : property negated s = .error e) :
    e.HasCause text (RemainsIn text) := by
  unfold property at h
  split at h
  · next s =>
    split at h
    · next hbrace =>
      cases h
      rw [missing_of_untilBrace hbrace]
      exact ⟨[], ⟨rfl, List.nil_suffix⟩, by simp⟩
    · next name tail hname =>
      split at h
      · next hunknown =>
        cases h
        refine ⟨hunknown, tail, ?_⟩
        rw [← (eq_of_untilBrace hname).1]
        exact hs
      · cases h
  · next hopen =>
    cases h
    refine ⟨s, ⟨rfl, hs⟩, ?_⟩
    intro hhead
    obtain ⟨tail, rfl⟩ := List.head?_eq_some_iff.1 hhead
    exact hopen tail rfl

theorem badEscape_of_numbered {start : List Char} {read : Option (Char × List Char)}
    (h : numbered start read = .error e) : e = .badEscape start := by
  unfold numbered at h
  split at h
  · cases h
    rfl
  · cases h

/-- An escape that cannot be read, behind its backslash. -/
theorem hasCause_of_read {inClass : Bool} (hs : '\\' :: s <:+ text)
    (h : read inClass s = .error e) :
    e.HasCause text (RemainsIn text) := by
  have htail : s <:+ text := (List.suffix_cons '\\' s).trans hs
  have hbad {read : Option (Char × List Char)} (h : numbered s read = .error e) :
      e.HasCause text (RemainsIn text) := by
    rw [badEscape_of_numbered h]
    exact ⟨s, ⟨rfl, htail⟩, hs⟩
  unfold read at h
  split at h
  · cases h
    exact ⟨[], ⟨rfl, List.nil_suffix⟩, hs⟩
  · next c s =>
    have hname : s <:+ text := (List.suffix_cons c s).trans htail
    split at h
    · cases h
    · split at h
      · cases h
      · exact hbad h
      · exact hbad h
      · split at h
        · split at h
          · next hbrace =>
            cases h
            rw [missing_of_untilBrace hbrace]
            exact ⟨[], ⟨rfl, List.nil_suffix⟩, by simp⟩
          · exact hbad h
        · exact hbad h
      · exact hasCause_of_property hname h
      · exact hasCause_of_property hname h
      · cases h

end Escape

/-! ## Classes -/

namespace Class

theorem hasCause_of_readAtom (hs : s <:+ text) (hne : s ≠ []) (h : readAtom s = .error e) :
    e.HasCause text (RemainsIn text) := by
  unfold readAtom at h
  split at h
  · exact absurd rfl hne
  · exact Escape.hasCause_of_read hs h
  · cases h

theorem hasCause_of_readItem (hs : s <:+ text) (hne : s ≠ []) (h : readItem s = .error e) :
    e.HasCause text (RemainsIn text) := by
  unfold readItem at h
  split at h
  · next hatom =>
    cases h
    exact hasCause_of_readAtom hs hne hatom
  · cases h
  · next first mid hfirst =>
    split at h
    · next tail hdash =>
      obtain ⟨rfl, htail, -⟩ := afterDash?_eq_some_iff.1 hdash
      rw [readAtom_iff] at hfirst
      unfold readRange at h
      split at h
      · next hlast =>
        cases h
        have hmid : tail <:+ s :=
          (List.suffix_cons '-' tail).trans (suffix_of_readAtom (readAtom_iff.2 hfirst))
        exact hasCause_of_readAtom (hmid.trans hs) htail hlast
      · next members rest hlast =>
        cases h
        exact ⟨s, tail, rest, hs, hfirst, .inr ⟨rfl, members, readAtom_iff.1 hlast⟩⟩
      · next last rest hlast =>
        split at h
        · cases h
        · next horder =>
          cases h
          exact ⟨s, tail, rest, hs, hfirst, .inl ⟨Char.not_le.1 horder, readAtom_iff.1 hlast⟩⟩
    · cases h

theorem hasCause_of_readItems {opening : List Char} (hopening : '[' :: opening <:+ text)
    (hs : s <:+ text)
    (h : readItems ('[' :: opening) s = .error e) : e.HasCause text (RemainsIn text) := by
  fun_induction readItems ('[' :: opening) s with
  | case1 =>
    cases h
    exact ⟨opening, rfl, hopening⟩
  | case2 => cases h
  | case3 c s hc e' hitem =>
    cases h
    exact hasCause_of_readItem hs (List.cons_ne_nil c s) hitem
  | case4 c s hc item mid hitem e' hrest ih =>
    cases h
    exact ih ((suffix_of_readItem hitem).trans hs) hrest
  | case5 => cases h

theorem hasCause_of_read (hs : '[' :: s <:+ text) (h : read ('[' :: s) s = .error e) :
    e.HasCause text (RemainsIn text) := by
  simp only [read] at h
  split at h
  · next hitems =>
    cases h
    have hbody : (readFirst (readNegation s).2).2 <:+ s :=
      (suffix_readFirst (readNegation s).2).trans (suffix_readNegation s)
    exact hasCause_of_readItems hs (hbody.trans ((List.suffix_cons '[' s).trans hs)) hitems
  · cases h

end Class

/-! ## Tokens -/

namespace Token

/-- Bounds that are not in order are two numbers. -/
theorem exists_digits_of_bounds? {min : Nat} {max : Option Nat}
    (h : bounds? s = some (min, max, rest))
    (horder : max.any (· < min)) : ∃ n m : Digits, m.value < n.value ∧
      s = n.chars ++ ',' :: (m.chars ++ '}' :: rest) := by
  unfold bounds? at h
  split at h
  · cases h
    simp at horder
  · cases h
    cases horder
  · next s' hcomma hmin =>
    split at h
    · next hmax =>
      cases h
      obtain ⟨n, hs, hn⟩ := Numeral.exists_digits_of_decimal? hmin
      obtain ⟨m, hs', hm⟩ := Numeral.exists_digits_of_decimal? hmax
      have hlt : m.value < n.value := by
        rw [hn, hm]
        simpa using horder
      exact ⟨n, m, hlt, by rw [hs, hs']⟩
    · cases h
  · cases h

theorem hasCause_of_readBrace (hs : '{' :: s <:+ text) (h : readBrace ('{' :: s) s = .error e) :
    e.HasCause text (RemainsIn text) := by
  unfold readBrace at h
  split at h
  · cases h
  · next min max rest hbounds =>
    split at h
    · next horder =>
      cases h
      obtain ⟨n, m, hlt, rfl⟩ := exists_digits_of_bounds? hbounds horder
      exact ⟨n, m, rest, hlt, rfl, hs⟩
    · cases h

theorem hasCause_of_readName (hs : s <:+ text) (h : readName s = .error e) :
    e.HasCause text (RemainsIn text) := by
  simp only [readName] at h
  split at h
  · cases h
    exact ⟨s, rfl, hs⟩
  · split at h
    · cases h
    · next hclose =>
      cases h
      refine ⟨s.dropWhile isNameChar, ⟨rfl, (List.dropWhile_suffix isNameChar).trans hs⟩, ?_⟩
      intro hhead
      obtain ⟨tail, htail⟩ := List.head?_eq_some_iff.1 hhead
      exact hclose tail htail

theorem hasCause_of_readFlags {on : Bool} {flags : FlagOverride} (hs : s <:+ text)
    (h : readFlags on flags s = .error e) : e.HasCause text (RemainsIn text) := by
  fun_induction readFlags on flags s with
  | case1 => cases h
  | case2 _ _ s ih | case3 _ _ s ih | case4 _ _ s ih => exact ih ((List.suffix_cons _ s).trans hs) h
  | case5 _ s ih => exact ih ((List.suffix_cons '-' s).trans hs) h
  | case6 =>
    cases h
    exact ⟨_, rfl, hs⟩
  | case7 =>
    cases h
    exact ⟨_, rfl, hs⟩

theorem hasCause_of_readKind (hs : s <:+ text) (h : readKind s = .error e) :
    e.HasCause text (RemainsIn text) := by
  unfold readKind at h
  split at h
  case h_6 s _ _ =>
    have htail : s <:+ '?' :: '<' :: s := (List.suffix_cons '<' s).trans (List.suffix_cons '?' _)
    exact hasCause_of_readName (htail.trans hs) (map_eq_error h)
  case h_7 s _ _ _ _ _ _ =>
    exact hasCause_of_readFlags ((List.suffix_cons '?' s).trans hs) (map_eq_error h)
  all_goals cases h

theorem hasCause_of_readEscape (hs : '\\' :: s <:+ text) (h : readEscape s = .error e) :
    e.HasCause text (RemainsIn text) := by
  have htail : s <:+ text := (List.suffix_cons '\\' s).trans hs
  unfold readEscape at h
  split at h
  · cases h
  · cases h
  · next s =>
    have hname : s <:+ 'k' :: '<' :: s := (List.suffix_cons '<' s).trans (List.suffix_cons 'k' _)
    exact hasCause_of_readName (hname.trans htail) (map_eq_error h)
  · split at h
    · split at h
      · cases h
        exact ⟨_, ⟨rfl, htail⟩, hs⟩
      · cases h
    · split at h
      · next hread =>
        cases h
        exact Escape.hasCause_of_read hs hread
      · cases h
      · cases h
  · cases h
    exact ⟨[], ⟨rfl, htail⟩, hs⟩

/-- A token that cannot be read. -/
theorem hasCause_of_read {c : Char} (hs : c :: s <:+ text) (h : read c s = .error e) :
    e.HasCause text (RemainsIn text) := by
  unfold read at h
  split at h
  case h_1 => exact hasCause_of_readKind ((List.suffix_cons '(' s).trans hs) (map_eq_error h)
  case h_7 => exact hasCause_of_readBrace hs h
  case h_8 => exact Class.hasCause_of_read hs (map_eq_error h)
  case h_9 => exact hasCause_of_readEscape hs (map_eq_error h)
  all_goals cases h

/-! ### The first characters of tokens -/

/-- A token that can be out of place shows by its first character. -/
def StartsWith (c : Char) : Token → Prop
  | opening _ => c = '('
  | close => c = ')'
  | quantifier _ _ _ => c ∈ ParseError.quantifierStarts
  | atom _ | bar => True

theorem startsWith_of_readBrace {token : Token} {start : List Char}
    (h : readBrace start s = .ok (token, rest)) : token.StartsWith '{' := by
  unfold readBrace at h
  split at h
  · cases h
    trivial
  · split at h
    · cases h
    · cases h
      show '{' ∈ ParseError.quantifierStarts
      decide

theorem startsWith_of_read {c : Char} {token : Token} (h : read c s = .ok (token, rest)) :
    token.StartsWith c := by
  unfold read at h
  split at h
  case h_1 =>
    obtain ⟨_, -, heq⟩ := map_eq_ok h
    cases heq
    rfl
  case h_2 =>
    cases h
    rfl
  case h_4 | h_5 | h_6 =>
    cases h
    show _ ∈ ParseError.quantifierStarts
    decide
  case h_7 => exact startsWith_of_readBrace h
  case h_8 | h_9 =>
    obtain ⟨_, -, heq⟩ := map_eq_ok h
    cases heq
    trivial
  all_goals
    cases h
    trivial

end Token

/-! ## Partial patterns -/

namespace Partial

variable {p q : Partial (List Char)} {token : Token}

/-- The parentheses of the open groups stand in the text. -/
def OpensIn (text : List Char) (p : Partial (List Char)) : Prop :=
  ∀ group ∈ p.groups, ∃ inside, group.start = '(' :: inside ∧ '(' :: inside <:+ text

/-- A token keeps that open groups have their parentheses. -/
theorem opensIn_add {c : Char} (hp : p.OpensIn text) (hs : c :: s <:+ text)
    (hread : Token.read c s = .ok (token, rest)) (hadd : p.add (c :: s) token = .ok q) :
      q.OpensIn text := by
  cases token with
  | atom pattern =>
    cases hadd
    exact hp
  | quantifier min max mode =>
    simp only [add] at hadd
    split at hadd
    · cases hadd
    · cases hadd
      exact hp
  | opening kind =>
    cases hadd
    have hopen : c = '(' := Token.startsWith_of_read hread
    subst hopen
    exact List.forall_mem_cons.2 ⟨⟨s, rfl, hs⟩, hp⟩
  | bar =>
    cases hadd
    exact hp
  | close =>
    simp only [add] at hadd
    split at hadd
    · cases hadd
    · next group groups hgroups =>
      cases hadd
      unfold OpensIn at hp
      rw [hgroups] at hp
      exact (List.forall_mem_cons.1 hp).2

/-- What remains is a suffix of the text, and the open groups have their parentheses. -/
theorem Reaches.suffix (h : Reaches text p s) : s <:+ text ∧ p.OpensIn text := by
  induction h with
  | start => exact ⟨List.suffix_refl text, nofun⟩
  | @token p q c s rest token hbefore hread hadd ih =>
    obtain ⟨hs, hopens⟩ := ih
    have hrest : rest <:+ c :: s := (Token.suffix_of_read hread).trans (List.suffix_cons c s)
    exact ⟨hrest.trans hs, opensIn_add hopens hs hread hadd⟩

/-- A token that does not fit what has been read. -/
theorem hasCause_of_add {c : Char} (h : Reaches text p (c :: s))
    (hread : Token.read c s = .ok (token, rest))
    (hadd : p.add (c :: s) token = .error e) : e.HasCause text (RemainsIn text) := by
  have hs := h.suffix.1
  cases token with
  | atom pattern => cases hadd
  | quantifier min max mode =>
    simp only [add] at hadd
    split at hadd
    · next hatom =>
      cases hadd
      exact ⟨c, s, ⟨rfl, hs⟩, Token.startsWith_of_read hread, p, hatom, h⟩
    · cases hadd
  | opening kind => cases hadd
  | bar => cases hadd
  | close =>
    simp only [add] at hadd
    split at hadd
    · next hgroups =>
      cases hadd
      have hclose : c = ')' := Token.startsWith_of_read hread
      subst hclose
      obtain ⟨level, groups⟩ := p
      cases hgroups
      exact ⟨level, s, ⟨rfl, hs⟩, h⟩
    · cases hadd

/-- Where the end of the text is no end of the pattern, a group is open. -/
theorem hasCause_of_finish (h : Reaches text p []) (hfinish : p.finish = .error e) :
    e.HasCause text (RemainsIn text) := by
  unfold finish at hfinish
  split at hfinish
  · cases hfinish
  · next group groups hgroups =>
    cases hfinish
    obtain ⟨level, _⟩ := p
    cases hgroups
    obtain ⟨inside, hstart, hinside⟩ := h.suffix.2 group List.mem_cons_self
    obtain ⟨kind, _, outer⟩ := group
    cases hstart
    exact ⟨level, kind, outer, groups, inside, ⟨rfl, hinside⟩, h⟩

/-- Wherever the reading of a text has got to, an error of what remains has its cause. -/
theorem hasCause_of_readAll (h : Reaches text p s) (hread : p.readAll s = .error e) :
    e.HasCause text (RemainsIn text) := by
  fun_induction readAll p s with
  | case1 p => exact hasCause_of_finish h hread
  | case2 p c s e' htoken =>
    cases hread
    exact Token.hasCause_of_read h.suffix.1 htoken
  | case3 p c s token rest htoken e' hadd =>
    cases hread
    exact hasCause_of_add h htoken hadd
  | case4 p c s token rest htoken q hadd ih => exact ih (h.token htoken hadd) hread

end Partial

/-- The error of a text has its cause in the text. -/
theorem Pattern.hasCause_of_read (h : Pattern.read text = .error e) :
    e.HasCause text (RemainsIn text) :=
  Partial.hasCause_of_readAll .start h

end RegexEngine
