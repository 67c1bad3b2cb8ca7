import RegexEngine.Proofs.CharSet.Membership
import RegexEngine.Unicode.CaseFolding

/-!
# Sets and the variants of their members

Two characters are case variants of each other if they fold to the same character.  A folded set
has just the variants of the members, by `CharSet.test_caseFolded`.

The set is folded by a table.  A character that is not in the table folds to itself, and no other
character folds to it.
-/

namespace RegexEngine

namespace CaseFolding

variable {c d : Char}

/-- Whether two characters are case variants of each other. -/
def Variants (c d : Char) : Prop :=
  fold c = fold d

instance (c d : Char) : Decidable (Variants c d) :=
  inferInstanceAs (Decidable (fold c = fold d))

theorem Variants.refl (c : Char) : Variants c c :=
  rfl

theorem Variants.symm (h : Variants c d) : Variants d c :=
  Eq.symm h

theorem Variants.trans {e : Char} (h : Variants c d) (h' : Variants d e) : Variants c e :=
  Eq.trans h h'

/-! ## The table -/

/-- The characters of a run are those whose numbers it covers. -/
theorem Run.mem_sources_of_covers {r : Run} (h : r.covers c.toNat) : c ∈ r.sources := by
  simp only [covers, Bool.and_eq_true, decide_eq_true_eq, beq_iff_eq] at h
  obtain ⟨⟨hfirst, hlast⟩, hstep⟩ := h
  have hle : (c.toNat - r.first) / r.step ≤ (r.last - r.first) / r.step :=
    Nat.div_le_div_right (by omega)
  have hexact : (c.toNat - r.first) / r.step * r.step = c.toNat - r.first :=
    Nat.div_mul_cancel (Nat.dvd_of_mod_eq_zero hstep)
  refine List.mem_map.2 ⟨(c.toNat - r.first) / r.step, List.mem_range.2 (Nat.lt_succ_of_le hle), ?_⟩
  rw [hexact, Nat.add_sub_cancel' hfirst, Char.ofNat_toNat]

/-- A character that is in no run folds to itself. -/
theorem fold_eq_self (h : c ∉ runs.flatMap Run.sources) : fold c = c := by
  unfold fold
  split
  · rename_i r hr
    have hcovers : r.covers c.toNat := (List.find?_eq_some_iff_append.1 hr).1
    have hsource := Run.mem_sources_of_covers hcovers
    exact absurd (List.mem_flatMap.2 ⟨r, List.mem_of_find?_eq_some hr, hsource⟩) h
  · rfl

theorem mem_table_iff {p : Char × Char} :
    p ∈ table ↔ p.2 = fold p.1 ∧
      (p.1 ∈ runs.flatMap Run.sources ∨ ∃ d ∈ runs.flatMap Run.sources, fold d = p.1) := by
  obtain ⟨c, d⟩ := p
  simp only [table, List.mem_append, List.mem_map, Prod.mk.injEq]
  constructor
  · rintro (⟨c, hc, rfl, rfl⟩ | ⟨c, hc, rfl, rfl⟩)
    · exact ⟨rfl, .inl hc⟩
    · exact ⟨rfl, .inr ⟨c, hc, rfl⟩⟩
  · rintro ⟨rfl, hc | ⟨e, he, rfl⟩⟩
    · exact .inl ⟨c, hc, rfl, rfl⟩
    · exact .inr ⟨e, he, rfl, rfl⟩

/-- The table has each character that has another variant. -/
theorem mem_table_of_ne (h : Variants c d) (hne : c ≠ d) : (c, fold c) ∈ table := by
  refine mem_table_iff.2 ⟨rfl, ?_⟩
  by_cases hc : c ∈ runs.flatMap Run.sources
  · exact .inl hc
  · have hfold : fold d = c := (show fold d = fold c from h.symm).trans (fold_eq_self hc)
    refine .inr ⟨d, ?_, hfold⟩
    by_contra hd
    exact hne (hfold.symm.trans (fold_eq_self hd))

/-- Whether a character is in no run and none of what a run folds to. -/
def Uncased (c : Char) : Prop :=
  ∀ r ∈ runs, ¬r.covers c.toNat ∧ (c.toNat < r.target ∨ r.target + (r.last - r.first) < c.toNat)

instance (c : Char) : Decidable (Uncased c) :=
  inferInstanceAs (Decidable (∀ r ∈ runs, _))

/-- An uncased character has no other variants. -/
theorem eq_of_variants (hd : Uncased d) (hzero : d ≠ '\x00') (h : Variants c d) : c = d := by
  have hself : fold d = d := by
    unfold fold
    split
    · rename_i r hr
      exact absurd (List.find?_eq_some_iff_append.1 hr).1 (hd r (List.mem_of_find?_eq_some hr)).1
    · rfl
  have hfold : fold c = d := Eq.trans h hself
  unfold fold at hfold
  split at hfold
  · rename_i r hr
    have hcovers : r.covers c.toNat := (List.find?_eq_some_iff_append.1 hr).1
    have hout := (hd r (List.mem_of_find?_eq_some hr)).2
    simp only [Run.covers, Bool.and_eq_true, decide_eq_true_eq] at hcovers
    obtain ⟨⟨hfirst, hlast⟩, _⟩ := hcovers
    have happly : r.apply c.toNat = d.toNat := by
      by_cases hvalid : (r.apply c.toNat).isValidChar
      · rw [← hfold, Scalar.toNat_ofNat hvalid]
      · rw [Char.ofNat, dif_neg hvalid] at hfold
        exact absurd hfold.symm hzero
    unfold Run.apply at happly
    omega
  · exact hfold

end CaseFolding

namespace CharSet

open CaseFolding

variable {c : Char}

theorem mem_single_iff {d : Char} : c ∈ CharRange.single d ↔ c = d := by
  show d ≤ c ∧ c ≤ d ↔ c = d
  grind

theorem test_ofChars (chars : List Char) : (ofChars chars).test c ↔ c ∈ chars := by
  simp [ofChars, mem_single_iff]

/-- What members fold to, of those that are in the table. -/
theorem test_folds_iff (s : CharSet) : s.folds.test c ↔ ∃ d, (d, c) ∈ table ∧ s.test d := by
  rw [folds, test_ofChars]
  simp

/-- A folded set has the variants of the members. -/
theorem test_caseFolded (s : CharSet) : s.caseFolded.test c ↔ ∃ d, Variants c d ∧ s.test d := by
  have htable : s.caseFolded.test c ↔ (∃ e, (c, e) ∈ table ∧ s.folds.test e) ∨ s.test c := by
    rw [caseFolded, test_ofRanges, test_iff s]
    simp only [List.mem_append, or_and_right, exists_or, Array.mem_toList_iff]
    refine or_congr_left ?_
    simp [mem_single_iff]
  rw [htable]
  constructor
  · rintro (⟨e, hc, hfolds⟩ | hc)
    · obtain ⟨d, hd, hs⟩ := (test_folds_iff s).1 hfolds
      have hce : e = fold c := (mem_table_iff.1 hc).1
      have hde : e = fold d := (mem_table_iff.1 hd).1
      exact ⟨d, hce.symm.trans hde, hs⟩
    · exact ⟨c, .refl c, hc⟩
  · rintro ⟨d, hvariants, hs⟩
    by_cases hne : c = d
    · exact .inr (hne ▸ hs)
    · refine .inl ⟨fold c, mem_table_of_ne hvariants hne, (test_folds_iff s).2 ⟨d, ?_, hs⟩⟩
      rw [show fold c = fold d from hvariants]
      exact mem_table_of_ne hvariants.symm (Ne.symm hne)

end CharSet

end RegexEngine
