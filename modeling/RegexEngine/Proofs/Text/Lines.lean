import Mathlib.Data.List.Basic
import Mathlib.Data.List.TakeWhile
import RegexEngine.Text.Lines

/-!
# Lines of texts

The lines of whole lines and what follows them are the lines of both, and the lines of a text
are texts: neither a line feed nor a carriage return occurs within another character.

* `Text.lines_append` is about an input that has been cut behind a line feed.
* `Text.decode?_eq_some_iff` says which bytes are a text.
* `Text.HasLines` says what the lines of a text are, and `Text.exists_hasLines` that its bytes have
  those lines.
-/

namespace RegexEngine.Text

variable {input line before rest : List UInt8} {chars : List Char} {c : Char} {byte : UInt8}

/-! ## Whole lines -/

/-- An input that ends where a line ends. -/
def WholeLines (input : List UInt8) : Prop :=
  input = [] ∨ input.getLast? = some lineFeed

theorem lines_nil : lines [] = [] := by
  rw [lines, if_pos rfl]

theorem ne_lineFeed_of_notMem (h : lineFeed ∉ line) :
    ∀ byte ∈ line, decide (byte ≠ lineFeed) = true := by
  intro byte hmem
  exact decide_eq_true fun heq => h (heq ▸ hmem)

/-- Bytes without a line feed are one line. -/
theorem lines_of_notMem (h : lineFeed ∉ line) (hne : line ≠ []) : lines line = [line] := by
  have hbytes := ne_lineFeed_of_notMem h
  have htake : line.takeWhile (· ≠ lineFeed) = line := List.takeWhile_eq_self_iff.2 hbytes
  have hdrop : line.dropWhile (· ≠ lineFeed) = [] := List.dropWhile_eq_nil_iff.2 hbytes
  rw [lines, if_neg hne]
  split
  · rw [htake]
  · next heq =>
    rw [hdrop] at heq
    cases heq

/-- The first line feed ends the first line. -/
theorem lines_append_cons (h : lineFeed ∉ line) (rest : List UInt8) :
    lines (line ++ lineFeed :: rest) = dropReturn line :: lines rest := by
  have hbytes := ne_lineFeed_of_notMem h
  have htake : (line ++ lineFeed :: rest).takeWhile (· ≠ lineFeed) = line := by
    rw [List.takeWhile_append_of_pos hbytes, List.takeWhile_cons_of_neg (by simp), List.append_nil]
  have hdrop : (line ++ lineFeed :: rest).dropWhile (· ≠ lineFeed) = lineFeed :: rest := by
    rw [List.dropWhile_append_of_pos hbytes, List.dropWhile_cons_of_neg (by simp)]
  rw [lines, if_neg (by simp)]
  split
  · next heq =>
    rw [hdrop] at heq
    cases heq
  · next heq =>
    rw [hdrop] at heq
    cases heq
    rw [htake]

/-- Whole lines that are not empty begin with a line and its line feed. -/
theorem WholeLines.eq_nil_or_exists (h : WholeLines input) :
    input = [] ∨ ∃ line rest, input = line ++ lineFeed :: rest ∧ lineFeed ∉ line ∧
      WholeLines rest := by
  refine h.imp id fun hlast => ?_
  obtain ⟨line, rest, rfl, hline⟩ := List.eq_append_cons_of_mem (List.mem_of_getLast? hlast)
  refine ⟨line, rest, rfl, hline, ?_⟩
  cases rest with
  | nil => exact .inl rfl
  | cons byte rest =>
    rw [List.getLast?_append_cons, List.getLast?_cons_cons] at hlast
    exact .inr hlast

/-- Behind whole lines another line begins. -/
theorem lines_append (h : WholeLines before) (rest : List UInt8) :
    lines (before ++ rest) = lines before ++ lines rest := by
  induction hlength : before.length using Nat.strongRecOn generalizing before with
  | ind length ih =>
    rcases h.eq_nil_or_exists with rfl | ⟨line, more, rfl, hline, hmore⟩
    · rw [lines_nil]
      rfl
    · have hshorter : more.length < length := by
        rw [← hlength, List.length_append, List.length_cons]
        omega
      rw [List.append_assoc, List.cons_append, lines_append_cons hline, lines_append_cons hline,
        ih more.length hshorter hmore rfl, List.cons_append]

/-! ## Texts as bytes -/

/-- The bytes of a text. -/
def encode (chars : List Char) : List UInt8 :=
  chars.flatMap String.utf8EncodeChar

theorem encode_append (chars more : List Char) :
    encode (chars ++ more) = encode chars ++ encode more :=
  List.flatMap_append

theorem encode_nil : encode [] = [] :=
  rfl

theorem encode_cons (c : Char) (chars : List Char) :
    encode (c :: chars) = String.utf8EncodeChar c ++ encode chars :=
  List.flatMap_cons

/-- The bytes that can be read are those of texts. -/
theorem decode?_eq_some_iff : decode? input = some chars ↔ input = encode chars := by
  have hbytes : (⟨input.toArray⟩ : ByteArray) = input.toByteArray := by
    apply ByteArray.ext
    rw [List.data_toByteArray]
  rw [decode?, hbytes, String.fromUTF8?]
  constructor
  · intro h
    split at h
    · next hvalid =>
      have htext : String.fromUTF8 input.toByteArray hvalid = String.ofList chars := by
        rw [← String.ofList_toList (s := String.fromUTF8 _ _), Option.some.inj h]
      have hsame : input.toByteArray = chars.utf8Encode := by
        rw [← String.toByteArray_ofList, ← htext]
        rfl
      exact List.toByteArray_inj.1 hsame
    · cases h
  · rintro rfl
    have hvalid : (encode chars).toByteArray.IsValidUTF8 := ⟨chars, rfl⟩
    have htext : String.fromUTF8 (encode chars).toByteArray hvalid = String.ofList chars := by
      rw [← String.toByteArray_inj, String.toByteArray_ofList]
      rfl
    rw [dif_pos hvalid, htext, Option.map_some, String.toList_ofList]

/-! ## The lines of a text -/

/-- A byte of ASCII is a character of its own. -/
theorem eq_of_mem_utf8EncodeChar (hbyte : byte.toNat < 128) (h : byte ∈ String.utf8EncodeChar c) :
    c.val.toNat = byte.toNat := by
  revert h
  fun_cases String.utf8EncodeChar c with
  | case1 number hle =>
    intro h
    rw [List.mem_singleton] at h
    rw [h, UInt8.toNat_ofNat']
    omega
  | _ =>
    simp only [List.mem_cons, List.not_mem_nil, or_false, ← UInt8.toNat_inj, UInt8.toNat_ofNat']
    omega

theorem lineFeed_notMem_encode (h : '\n' ∉ chars) : lineFeed ∉ encode chars := by
  intro hmem
  obtain ⟨c, hc, hbyte⟩ := List.mem_flatMap.1 hmem
  have hnumber := eq_of_mem_utf8EncodeChar (by decide) hbyte
  have heq : c = '\n' := Char.ext (UInt32.toNat_inj.1 hnumber)
  exact h (heq ▸ hc)

theorem getLast?_encode (h : chars.getLast? ≠ some '\r') :
    (encode chars).getLast? ≠ some carriageReturn := by
  intro hlast
  rcases List.eq_nil_or_concat chars with rfl | ⟨line, c, rfl⟩
  · cases hlast
  · rw [List.concat_eq_append] at h hlast
    rw [encode_append, encode_cons, encode_nil, List.append_nil,
      List.getLast?_append_of_ne_nil _ String.utf8EncodeChar_ne_nil] at hlast
    have hnumber := eq_of_mem_utf8EncodeChar (by decide) (List.mem_of_getLast? hlast)
    obtain rfl : c = '\r' := Char.ext (UInt32.toNat_inj.1 hnumber)
    exact h List.getLast?_concat

/-- The lines of a text.  A line ends with a line feed, or with a carriage return and a line feed,
and the last one may end with the text. -/
inductive HasLines : List Char → List (List Char) → Prop
  | nil : HasLines [] []
  | last {line : List Char} : '\n' ∉ line → line ≠ [] → HasLines line [line]
  | feed {line rest : List Char} {lines : List (List Char)} : '\n' ∉ line →
      line.getLast? ≠ some '\r' → HasLines rest lines →
        HasLines (line ++ '\n' :: rest) (line :: lines)
  | returnFeed {line rest : List Char} {lines : List (List Char)} : '\n' ∉ line →
      HasLines rest lines → HasLines (line ++ '\r' :: '\n' :: rest) (line :: lines)

/-- The bytes of a text have its lines. -/
theorem HasLines.lines_encode {texts : List (List Char)} (h : HasLines chars texts) :
    lines (encode chars) = texts.map encode := by
  induction h with
  | nil => rw [encode_nil, lines_nil, List.map_nil]
  | last hline hne =>
    have hne' : encode _ ≠ [] := fun hnil =>
      hne (List.eq_nil_iff_forall_not_mem.2 fun c hc =>
        String.utf8EncodeChar_ne_nil (List.flatMap_eq_nil_iff.1 hnil c hc))
    rw [lines_of_notMem (lineFeed_notMem_encode hline) hne', List.map_singleton]
  | @feed line rest texts hline hlast _ ih =>
    have hcut : encode (line ++ '\n' :: rest) = encode line ++ lineFeed :: encode rest := by
      rw [encode_append, encode_cons]
      rfl
    rw [hcut, lines_append_cons (lineFeed_notMem_encode hline), ih, dropReturn,
      if_neg (getLast?_encode hlast), List.map_cons]
  | @returnFeed line rest texts hline _ ih =>
    have hcut : encode (line ++ '\r' :: '\n' :: rest) =
        (encode line ++ [carriageReturn]) ++ lineFeed :: encode rest := by
      rw [encode_append, encode_cons, encode_cons, List.append_assoc]
      rfl
    have hnotMem : lineFeed ∉ encode line ++ [carriageReturn] := by
      intro hmem
      rcases List.mem_append.1 hmem with hmem | hmem
      · exact lineFeed_notMem_encode hline hmem
      · exact absurd (List.mem_singleton.1 hmem) (by decide)
    rw [hcut, lines_append_cons hnotMem, ih, dropReturn, if_pos List.getLast?_concat,
      List.dropLast_concat, List.map_cons]

/-- Each text has lines. -/
theorem exists_hasLines (chars : List Char) : ∃ texts, HasLines chars texts := by
  induction hlength : chars.length using Nat.strongRecOn generalizing chars with
  | ind length ih =>
    by_cases hmem : '\n' ∈ chars
    · obtain ⟨line, rest, rfl, hline⟩ := List.eq_append_cons_of_mem hmem
      have hshorter : rest.length < length := by
        rw [← hlength, List.length_append, List.length_cons]
        omega
      obtain ⟨texts, htexts⟩ := ih rest.length hshorter rest rfl
      by_cases hlast : line.getLast? = some '\r'
      · obtain ⟨line', rfl⟩ := List.getLast?_eq_some_iff.1 hlast
        have hline' : '\n' ∉ line' := fun h => hline (List.mem_append_left _ h)
        rw [List.append_assoc]
        exact ⟨_, .returnFeed hline' htexts⟩
      · exact ⟨_, .feed hline hlast htexts⟩
    · by_cases hempty : chars = []
      · subst hempty
        exact ⟨[], .nil⟩
      · exact ⟨[chars], .last hmem hempty⟩

end RegexEngine.Text
