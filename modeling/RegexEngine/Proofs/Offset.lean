import RegexEngine.Proofs.Parsing.Causes
import RegexEngine.Proofs.Parsing.InPlace

/-!
# Patterns from an offset on

A pattern may start within a text, and then it is read in place.  What stands before it does not
matter, but the places of errors are counted from the beginning of the text.

* `Pattern.parseFrom_append` compares what is read in place with what is read of the rest alone.
* `Pattern.parseFrom_zero` is about the whole text.
-/

namespace RegexEngine

variable {u v rest text : List Char}

/-- The same error if no place of it is told in another way. -/
theorem ParseError.map_congr {α β : Type} {f g : α → β} {e : ParseError α}
    (h : ∀ place, e.place? = some place → f place = g place) : e.map f = e.map g := by
  cases e with
  | badClassRange => rfl
  | unknownProperty => rfl
  | missing expected place => exact congrArg (missing expected) (h place rfl)
  | unmatchedClose place => exact congrArg unmatchedClose (h place rfl)
  | unclosedGroup place => exact congrArg unclosedGroup (h place rfl)
  | nothingToRepeat place => exact congrArg nothingToRepeat (h place rfl)
  | unterminatedClass place => exact congrArg unterminatedClass (h place rfl)
  | badEscape place => exact congrArg badEscape (h place rfl)
  | badGroup place => exact congrArg badGroup (h place rfl)
  | badRepetition place => exact congrArg badRepetition (h place rfl)

theorem ParseError.map_map {α β γ : Type} (f : α → β) (g : β → γ) (e : ParseError α) :
    (e.map f).map g = e.map (g ∘ f) := by
  cases e <;> rfl

namespace Pattern

/-- A place in the rest of a text is further on by what stands before the rest. -/
theorem offset_append (h : rest <:+ v) (u : List Char) :
    offset (u ++ v) rest = byteLength u + offset v rest := by
  obtain ⟨before, rfl⟩ := h
  have hv := byteLength_append before rest
  have huv := byteLength_append u (before ++ rest)
  unfold offset
  omega

/-- The error of the rest of a text, with its places counted from the beginning of the text. -/
theorem map_offset_append {e : ParseError (List Char)} (he : read v = .error e) (u : List Char) :
    e.map (offset (u ++ v)) = (e.map (offset v)).map (byteLength u + ·) := by
  rw [ParseError.map_map]
  apply ParseError.map_congr
  intro place hplace
  obtain ⟨rest, rfl, hrest⟩ := (hasCause_of_read he).exists_remains hplace
  exact offset_append hrest u

/-- In place a pattern is read as if the text began at the offset, but the places of errors are
further on.  There is always an answer, so no cut of the text is ever at fault. -/
theorem parseFrom_append (u v : List Char) :
    parseFrom (u ++ v) (byteLength u) = .ok ((parse v).mapError (·.map (byteLength u + ·))) := by
  have hplace : byteLength u = offset (u ++ v) v := (offset_append_left u v).symm
  rw [hplace, parseFrom_offset (List.suffix_append u v), ← hplace, parse]
  cases he : read v with
  | ok p => rfl
  | error e => exact congrArg (fun e' => Except.ok (Except.error e')) (map_offset_append he u)

/-- From the beginning on, the whole text is read in place. -/
theorem parseFrom_zero (text : List Char) : parseFrom text 0 = .ok (parse text) := by
  have hplace : offset text text = 0 := Nat.sub_self _
  rw [← hplace]
  exact parseFrom_offset (List.suffix_refl text)

example : parseFrom ['é', '(', 'a'] 2 = .ok (.error (.unclosedGroup 2)) := by cbv

end Pattern

end RegexEngine
