import RegexEngine.Filter
import RegexEngine.Proofs.Composition
import RegexEngine.Proofs.RoundTrip
import RegexEngine.Proofs.Succession
import RegexEngine.Proofs.Text.Lines
import RegexEngine.Proofs.Text.Pieces

/-!
# Line by line

The filter does with each line the same, whatever stands before and behind it.  So what it leaves
after whole lines and more input is put together from what it leaves after either.  If a search has
no answer the run ends there, and what has been written before is written.

* `Filter.Writes` says what is written for a line.
* `Job.lines_append` is about the lines of a text that more lines follow.
* `Filter.perLine` puts together what holds of a run.
* `Filter.run_nestedName` is a run that ends with a fault.
-/

namespace RegexEngine

/-- A match covers a piece of a line: what stands between its two ends. -/
def Match.Covers (line : List Char) (m : Match) (part : List Char) : Prop :=
  ∃ before after, line = before ++ (part ++ after) ∧ byteLength before = m.start ∧
    byteLength before + byteLength part = m.stop

namespace Yield

variable {ε ε' α β : Type}

/-- Another reason is given for where the one or the other breaks off. -/
theorem mapStop_append (f : ε → ε') (y later : Yield ε α) :
    (y.append later).mapStop f = (y.mapStop f).append (later.mapStop f) := by
  obtain ⟨items, _ | why⟩ := y <;> rfl

/-- If something can be done to each item, then to all of them. -/
theorem tryMap_eq {f : α → Except ε β} {y : Yield ε α} {results : List β}
    (h : List.Forall₂ (fun x result => f x = .ok result) y.items results) :
    y.tryMap f = { items := results, stop := y.stop } := by
  have hgo {items : List α} {results : List β}
      (h : List.Forall₂ (fun x result => f x = .ok result) items results) :
      tryMap.go f y items = { items := results, stop := y.stop } := by
    induction h with
    | nil => rfl
    | cons hx _ ih =>
      rw [tryMap.go, hx, ih]
      rfl
  exact hgo h

end Yield

namespace Filter

variable {o : Options} {p : Pattern} {a : Automaton} {only : Bool} {s : Settings}
  {arguments : List String}

/-! ## Reports -/

/-- The report on an input whose two parts have been reported on.  Behind a fault nothing is
read. -/
def Report.append (r later : Report) : Report :=
  if r.fault.isSome then r
  else
    { code := if later.code ≤ 1 then (if r.code = 0 ∨ later.code = 0 then 0 else 1) else later.code
      output := r.output ++ later.output
      diagnostics := r.diagnostics ++ later.diagnostics
      fault := later.fault }

/-- A report tells only at the end whether there is a line that cannot be read. -/
theorem Report.ofLines_append {written : Yield Stop (List Char)}
    (h : written.stop ≠ some .unreadable) (more : Yield Stop (List Char)) :
    ofLines (written.append more) = (ofLines written).append (ofLines more) := by
  obtain ⟨lines, _ | _ | fault⟩ := written
  · have houtput (ending : List Char → List Char) :
        String.ofList ((lines ++ more.items).flatMap ending) =
          String.ofList (lines.flatMap ending) ++ String.ofList (more.items.flatMap ending) := by
      rw [List.flatMap_append, String.ofList_append]
    obtain ⟨moreLines, _ | _ | fault⟩ := more <;> unfold ofLines append <;>
      simp only [Yield.append, houtput]
    · cases lines <;> cases moreLines <;> simp
    · simp [ofProblem]
    · simp
  · exact absurd rfl h
  · rfl

/-- Something has been written if the output is not empty. -/
theorem Report.code_ofLines (lines : List (List Char)) :
    (ofLines ⟨lines, none⟩).code = if (ofLines ⟨lines, none⟩).output = "" then 1 else 0 := by
  cases lines with
  | nil => rfl
  | cons line lines =>
    have houtput : (ofLines ⟨line :: lines, none⟩).output ≠ "" := by
      simp [ofLines]
    rw [if_neg houtput]
    rfl

theorem Report.code_ofLines_eq_two (written : Yield Stop (List Char)) :
    (ofLines written).code = 2 ↔ written.stop = some .unreadable := by
  obtain ⟨lines, _ | _ | fault⟩ := written
  · cases lines <;> simp [ofLines]
  · simp [ofLines, ofProblem]
  · simp [ofLines]

theorem Report.fault_ofLines (written : Yield Stop (List Char)) (fault : Fault) :
    (ofLines written).fault = some fault ↔ written.stop = some (.fault fault) := by
  obtain ⟨lines, _ | _ | fault'⟩ := written <;> simp [ofLines, ofProblem]

/-! ## What is written for a line -/

/-- What is written for a line: the line, if there is a match in it, or the pieces that the matches
cover, but for empty ones.  It breaks off where a search has no answer. -/
inductive Writes (a : Automaton) (line : List Char) : Bool → Yield Fault (List Char) → Prop
  | whole : a.isMatch (.ofList line) = .ok true → Writes a line false { items := [line] }
  | nothing : a.isMatch (.ofList line) = .ok false → Writes a line false {}
  | broken {fault : Fault} : a.isMatch (.ofList line) = .error fault →
      Writes a line false (.stopped fault)
  | parts {parts : List (List Char)} :
      List.Forall₂ (Match.Covers line) (a.findAll (.ofList line)).items parts →
        Writes a line true
          { items := parts.filter (· ≠ []), stop := (a.findAll (.ofList line)).stop }

/-- Where the ends of all matches are boundaries in order, there are pieces between them. -/
theorem exists_slices {line : List Char} {ms : List Match}
    (h : ∀ m ∈ ms, (Subject.ofList line).IsSpan m.start m.stop) :
    ∃ parts, List.Forall₂ (fun m part => (Subject.ofList line).slice m.start m.stop = .ok part) ms
        parts ∧ List.Forall₂ (Match.Covers line) ms parts := by
  induction ms with
  | nil => exact ⟨[], .nil, .nil⟩
  | cons m ms ih =>
    obtain ⟨hm, hms⟩ := List.forall_mem_cons.1 h
    obtain ⟨part, hpart⟩ := hm.exists_slice
    obtain ⟨parts, hparts, hcovers⟩ := ih hms
    exact ⟨part :: parts, .cons hpart hparts, .cons (Subject.slice_eq_ok_iff.1 hpart) hcovers⟩

section

variable (h : Automaton.ofPattern o p = .ok a) (only : Bool)

include h

/-- What is written for a line is what should be. -/
theorem Job.writes_line (line : List Char) : Writes a line only (Job.line ⟨a, only⟩ line) := by
  cases only with
  | true =>
    have hspans := Automaton.findsSpans (.inr h) (.ofList line)
    have hsuccession : a.Succession (.ofList line) 0 (a.findAll (.ofList line)) :=
      Automaton.succession_findAllFrom hspans 0
    obtain ⟨parts, hparts, hcovers⟩ :=
      exists_slices fun m hm => (hsuccession.le_start hspans m hm).2
    have hline : Job.line ⟨a, true⟩ line =
        { items := parts.filter (· ≠ []), stop := (a.findAll (.ofList line)).stop } := by
      rw [Job.line, if_pos rfl, Yield.tryMap_eq hparts]
      rfl
    rw [hline]
    exact .parts hcovers
  | false =>
    rw [Job.line, if_neg Bool.false_ne_true]
    cases hmatch : a.isMatch (.ofList line) with
    | error fault => exact .broken hmatch
    | ok found =>
      cases found with
      | true => exact .whole hmatch
      | false => exact .nothing hmatch

/-- What breaks off the work on a line is a fault of the search at one of its positions. -/
theorem Job.exists_fault {line : List Char} {fault : Fault}
    (hstop : (Job.line ⟨a, only⟩ line).stop = some fault) :
    ∃ pos, a.matchAt (.ofList line) pos = .error fault := by
  have hspans := Automaton.findsSpans (.inr h) (.ofList line)
  have hwrites := Job.writes_line h only line
  generalize Job.line ⟨a, only⟩ line = written at hwrites hstop
  cases hwrites with
  | whole => cases hstop
  | nothing => cases hstop
  | broken hmatch =>
    obtain rfl := Option.some.inj hstop
    have hleft := Automaton.leftmost_findAt hspans 0
    rw [Automaton.isMatch, Automaton.find] at hmatch
    cases hfind : a.findAt (.ofList line) 0 with
    | ok result =>
      rw [hfind] at hmatch
      cases hmatch
    | error fault' =>
      rw [hfind] at hmatch hleft
      cases hmatch
      cases hleft with
      | stopped _ hfault _ => exact ⟨_, hfault⟩
  | parts => exact (Automaton.succession_findAllFrom hspans 0).exists_fault hstop

end

/-! ## The lines of a text -/

/-- The lines of a text are worked on one by one, and then what follows them. -/
theorem Job.lines_append (job : Job) (texts : List (List Char)) (later : List (List UInt8)) :
    job.lines (texts.map Text.encode ++ later) =
      ((Yield.join (texts.map job.line)).mapStop .fault).append (job.lines later) := by
  induction texts with
  | nil => rfl
  | cons line texts ih =>
    have hdecode : Text.decode? (Text.encode line) = some line := Text.decode?_eq_some_iff.2 rfl
    rw [List.map_cons, List.cons_append, Job.lines, hdecode, ih, List.map_cons, Yield.join,
      Yield.mapStop_append, Yield.append_assoc]

/-- The lines of a text can all be read. -/
theorem Job.lines_texts (job : Job) (texts : List (List Char)) :
    job.lines (texts.map Text.encode) = (Yield.join (texts.map job.line)).mapStop .fault := by
  have hlines := job.lines_append texts []
  rwa [List.append_nil, Job.lines, Yield.append_nil] at hlines

/-- Why the work on some lines may end: all have been read, one is not a text, or a search on one
has no answer. -/
def Job.EndsBy (job : Job) (input : List (List UInt8)) : Option Stop → Prop
  | none => ∀ bytes ∈ input, Text.decode? bytes ≠ none
  | some .unreadable => ∃ bytes ∈ input, Text.decode? bytes = none
  | some (.fault fault) => ∃ bytes ∈ input, ∃ line, Text.decode? bytes = some line ∧
      (job.line line).stop = some fault

theorem Job.EndsBy.cons {job : Job} {input : List (List UInt8)} {stop : Option Stop}
    (h : job.EndsBy input stop) {bytes : List UInt8} (hbytes : Text.decode? bytes ≠ none) :
    job.EndsBy (bytes :: input) stop := by
  match stop, h with
  | none, h => exact List.forall_mem_cons.2 ⟨hbytes, h⟩
  | some .unreadable, ⟨bytes', hmem, h⟩ => exact ⟨bytes', List.mem_cons_of_mem _ hmem, h⟩
  | some (.fault fault), ⟨bytes', hmem, h⟩ => exact ⟨bytes', List.mem_cons_of_mem _ hmem, h⟩

/-- The work on lines ends by what it says. -/
theorem Job.endsBy_lines (job : Job) (input : List (List UInt8)) :
    job.EndsBy input (job.lines input).stop := by
  induction input with
  | nil => exact fun _ h => by cases h
  | cons bytes later ih =>
    rw [Job.lines]
    cases hdecode : Text.decode? bytes with
    | none => exact ⟨bytes, List.mem_cons_self, hdecode⟩
    | some line =>
      dsimp only
      rw [Yield.stop_append, Yield.stop_mapStop]
      cases hstop : (job.line line).stop with
      | none => exact ih.cons (by simp [hdecode])
      | some fault => exact ⟨bytes, List.mem_cons_self, line, hdecode, hstop⟩

/-! ## Runs -/

/-- The job of a run, if the arguments and the pattern can be read. -/
theorem Job.ofArguments_eq_ok {pattern : String} (hs : Settings.read {} arguments = .ok s)
    (hpattern : s.pattern = some pattern) (hp : Pattern.parse pattern.toList = .ok p)
    (ha : Automaton.ofPattern s.options p = .ok a) :
    ofArguments arguments = .ok ⟨a, s.onlyMatching⟩ := by
  have htext : Automaton.ofText s.options pattern.toList = .ok a := by
    rw [Automaton.ofText, hp]
    exact ha
  rw [ofArguments, hs]
  simp [hpattern, htext, bind, Except.bind, Except.mapError, pure, Except.pure]

section

variable {job : Job} (hjob : Job.ofArguments arguments = .ok job)

include hjob

/-- A run reports on the lines of its input. -/
theorem run_eq (input : List UInt8) :
    run arguments input = .ofLines (job.lines (Text.lines input)) := by
  rw [run, hjob]

/-- The report on a text. -/
theorem run_text {text : List Char} {texts : List (List Char)} (htexts : Text.HasLines text texts) :
    run arguments (Text.encode text) =
      .ofLines ((Yield.join (texts.map job.line)).mapStop .fault) := by
  rw [run_eq hjob, htexts.lines_encode, job.lines_texts]

/-- A run over whole lines of text and more input reports what runs over the two report. -/
theorem run_append {before : List UInt8} {text : List Char}
    (hdecode : Text.decode? before = some text) (hwhole : Text.WholeLines before)
    (later : List UInt8) :
    run arguments (before ++ later) = (run arguments before).append (run arguments later) := by
  obtain rfl := Text.decode?_eq_some_iff.1 hdecode
  obtain ⟨texts, htexts⟩ := Text.exists_hasLines text
  have hreadable : ((Yield.join (texts.map job.line)).mapStop Stop.fault).stop ≠
      some .unreadable := by
    cases hstop : (Yield.join (texts.map job.line)).stop <;> simp [Yield.mapStop, hstop]
  rw [run_text hjob htexts, run_eq hjob, run_eq hjob, Text.lines_append hwhole, htexts.lines_encode,
    job.lines_append, Report.ofLines_append hreadable]

end

/-- What holds of the runs with some arguments.  A run may end with a fault, because of a group that
is opened by a lookahead inside itself. -/
structure PerLine (arguments : List String) (s : Settings) (p : Pattern) (a : Automaton) :
    Prop where
  /-- A run over whole lines of text and more input reports what runs over the two report. -/
  append : ∀ before text later, Text.decode? before = some text → Text.WholeLines before →
    run arguments (before ++ later) = (run arguments before).append (run arguments later)
  /-- From a text those lines are written in which there is a match, or the pieces of all lines that
  the matches cover, up to the first fault.  The exit code says whether something is written, or
  whether there is a fault. -/
  text : ∀ input text, Text.decode? input = some text →
    ∃ lines written, Text.HasLines text lines ∧
      List.Forall₂ (fun line => Writes a line s.onlyMatching) lines written ∧
      run arguments input =
        let all := Yield.join written
        let output := String.ofList (all.items.flatMap fun line => line ++ ['\n'])
        { code := if all.stop.isSome then 101 else if output = "" then 1 else 0
          output := output
          fault := all.stop }
  /-- The exit code is 2 if there is a line that is not a text, and no fault before. -/
  unreadable : ∀ input, (run arguments input).fault = none →
    ((run arguments input).code = 2 ↔ ∃ bytes ∈ Text.lines input, Text.decode? bytes = none)
  /-- A fault is one of the search on some line, which has read a piece of the line whose ends are
  not in order.  There is none if no group is opened by a lookahead inside itself. -/
  fault : ∀ input fault, (run arguments input).fault = some fault → p.isApart = false ∧
    ∃ bytes ∈ Text.lines input, ∃ line, Text.decode? bytes = some line ∧
      Pattern.Reversed (.ofList line) fault ∧ ∃ pos, a.matchAt (.ofList line) pos = .error fault

/-- The filter works line by line, whatever its arguments ask for. -/
theorem perLine {pattern : String} (hs : Settings.read {} arguments = .ok s)
    (hpattern : s.pattern = some pattern) (hp : Pattern.parse pattern.toList = .ok p)
    (ha : Automaton.ofPattern s.options p = .ok a) : PerLine arguments s p a where
  append _ _ later hdecode hwhole :=
    run_append (Job.ofArguments_eq_ok hs hpattern hp ha) hdecode hwhole later
  text input text hdecode := by
    obtain rfl := Text.decode?_eq_some_iff.1 hdecode
    obtain ⟨lines, hlines⟩ := Text.exists_hasLines text
    refine ⟨lines, lines.map (Job.line ⟨a, s.onlyMatching⟩), hlines, ?_, ?_⟩
    · rw [List.forall₂_map_right_iff, List.forall₂_same]
      exact fun line _ => Job.writes_line ha s.onlyMatching line
    · rw [run_text (Job.ofArguments_eq_ok hs hpattern hp ha) hlines]
      generalize Yield.join (lines.map (Job.line ⟨a, s.onlyMatching⟩)) = all
      obtain ⟨items, _ | fault⟩ := all
      · have hcode := Report.code_ofLines items
        have hreport : (Report.ofLines ⟨items, none⟩) =
            { code := (Report.ofLines ⟨items, none⟩).code
              output := (Report.ofLines ⟨items, none⟩).output } := rfl
        rw [hcode] at hreport
        exact hreport
      · rfl
  unreadable input hfault := by
    rw [run_eq (Job.ofArguments_eq_ok hs hpattern hp ha)] at hfault ⊢
    have hstop := Job.endsBy_lines ⟨a, s.onlyMatching⟩ (Text.lines input)
    rw [Report.code_ofLines_eq_two]
    cases h : (Job.lines ⟨a, s.onlyMatching⟩ (Text.lines input)).stop with
    | none =>
      rw [h] at hstop
      simpa [Job.EndsBy] using hstop
    | some why =>
      rw [h] at hstop
      cases why with
      | unreadable => exact iff_of_true rfl hstop
      | fault fault =>
        rw [(Report.fault_ofLines _ fault).2 h] at hfault
        cases hfault
  fault input fault hfault := by
    rw [run_eq (Job.ofArguments_eq_ok hs hpattern hp ha), Report.fault_ofLines] at hfault
    have hstop := Job.endsBy_lines ⟨a, s.onlyMatching⟩ (Text.lines input)
    rw [hfault] at hstop
    obtain ⟨bytes, hbytes, line, hline, hstop⟩ := hstop
    obtain ⟨pos, hpos⟩ := Job.exists_fault ha s.onlyMatching hstop
    obtain ⟨-, hreversed, hapart⟩ := Automaton.fault_of_matchAt_eq_error (.inr ha) hpos
    exact ⟨hapart, bytes, hbytes, line, hline, hreversed, pos, hpos⟩

theorem perLine_letters :
    ∃ a, Settings.read {} ["-o", "-E", "a+"] = .ok { pattern := some "a+", onlyMatching := true } ∧
      Pattern.parse "a+".toList = .ok (.repeated (.text ['a']) 1 none .greedy) ∧
      Automaton.ofPattern {} (.repeated (.text ['a']) 1 none .greedy) = .ok a ∧
      PerLine ["-o", "-E", "a+"] { pattern := some "a+", onlyMatching := true }
        (.repeated (.text ['a']) 1 none .greedy) a ∧
      Text.decode? [97, 195, 169, 10] = some ['a', 'é', '\n'] ∧
      Text.WholeLines [97, 195, 169, 10] := by
  have hparse : Pattern.parse "a+".toList = .ok (.repeated (.text ['a']) 1 none .greedy) := by cbv
  have hcompile :
      (Automaton.ofPattern {} (.repeated (.text ['a']) 1 none .greedy)).toOption.isSome := by
    decide +kernel
  cases ha : Automaton.ofPattern {} (.repeated (.text ['a']) 1 none .greedy) with
  | error fault => simp [ha, Except.toOption] at hcompile
  | ok a =>
    have hdecode : Text.decode? [97, 195, 169, 10] = some ['a', 'é', '\n'] :=
      Text.decode?_eq_some_iff.2 (by decide)
    exact ⟨a, rfl, hparse, rfl, perLine rfl rfl hparse ha, hdecode, .inr rfl⟩

/-! ## A run that ends with a fault -/

/-- The pattern with a group that is opened by a lookahead inside itself can be written. -/
theorem parse_nestedName :
    Pattern.parse "(?<n>a(?=b(?<n>c)))\\k<n>".toList = .ok Automaton.nestedName := by
  have hchars : ∀ c ∈ ['n'], Token.isNameChar c := by
    intro c hc
    obtain rfl := List.mem_singleton.1 hc
    exact Token.isNameChar_of_mem (by decide)
  have hopens : Opens ['(', '?', '<', 'n', '>'] (Pattern.capture (some "n")) :=
    .named (by simp) hchars
  have hname : Token.readName ['n', '>'] = .ok ("n", []) :=
    Token.readName_of_isNameChar (by simp) hchars []
  have hreference : Token.read '\\' ['k', '<', 'n', '>'] =
      .ok (.atom (.reference (.name "n")), []) := by
    simp [Token.read, Token.readEscape, hname, Except.map]
  -- The bodies of the groups are read from the inside out.
  have hinner : Partial.readAll {} ['c'] = .ok (.text ['c']) := by cbv
  have hahead : Partial.readAll {} ['b', '(', '?', '<', 'n', '>', 'c', ')'] =
      .ok (.concat [.text ['b'], .capture (some "n") (.text ['c'])]) := by
    show Partial.readAll {} ('b' :: (['(', '?', '<', 'n', '>'] ++ (['c'] ++ ')' :: []))) = _
    rw [Partial.readAll_cons rfl rfl, Partial.readAll_group hopens hinner, Partial.readAll]
    rfl
  have houter : Partial.readAll {}
    ['a', '(', '?', '=', 'b', '(', '?', '<', 'n', '>', 'c', ')', ')'] =
      .ok (.concat [.text ['a'],
          .lookAhead (.concat [.text ['b'], .capture (some "n") (.text ['c'])])]) := by
    show Partial.readAll {}
      ('a' :: (['(', '?', '='] ++ (['b', '(', '?', '<', 'n', '>', 'c', ')'] ++ ')' :: []))) = _
    rw [Partial.readAll_cons rfl rfl, Partial.readAll_group .ahead hahead, Partial.readAll]
    rfl
  have htext : "(?<n>a(?=b(?<n>c)))\\k<n>".toList = ['(', '?', '<', 'n', '>'] ++
      (['a', '(', '?', '=', 'b', '(', '?', '<', 'n', '>', 'c', ')', ')'] ++ ')' ::
          ['\\', 'k', '<', 'n', '>']) := by
    cbv
  rw [Pattern.parse_eq_ok_iff, htext, show ({} : Partial (List Char)) = ⟨{}, []⟩ from rfl,
    Partial.readAll_group hopens houter, Partial.readAll_cons hreference rfl, Partial.readAll]
  rfl

/-- The search for a match of that pattern may have no answer. -/
theorem exists_isMatch_nestedName :
    ∃ a, Automaton.ofPattern {} Automaton.nestedName = .ok a ∧
      a.isMatch (.ofList ['a', 'b', 'c']) = .error (.badSlice 2 1) := by
  obtain ⟨a, ha⟩ := Automaton.exists_compile_nestedName
  have hpos : (Subject.ofList ['a', 'b', 'c']).isBoundary 0 := by decide
  obtain ⟨keys, -, hmatch⟩ := Automaton.exists_keys_matchAt ha (.ofList ['a', 'b', 'c']) hpos
  have hsize : (Subject.ofList ['a', 'b', 'c']).size = 3 := rfl
  rw [hsize, Automaton.head?_meaning_nestedName, ← Automaton.matchAt_promote ha] at hmatch
  refine ⟨a.promote, Automaton.ofPattern_eq_promote ha, ?_⟩
  rw [Automaton.isMatch, Automaton.find, Automaton.findAt,
    Subject.boundariesFrom_of_le (Nat.zero_le _), if_pos hpos, Automaton.matchAmong, hmatch]
  rfl

/-- The text of a pattern and a line on which the run ends with a fault, and neither with the code
of a run that has written something nor with that of one that has not. -/
theorem run_nestedName :
    ∃ a, Settings.read {} ["-E", "(?<n>a(?=b(?<n>c)))\\k<n>"] =
        .ok { pattern := some "(?<n>a(?=b(?<n>c)))\\k<n>" } ∧
      Pattern.parse "(?<n>a(?=b(?<n>c)))\\k<n>".toList = .ok Automaton.nestedName ∧
      Automaton.ofPattern {} Automaton.nestedName = .ok a ∧
      Text.decode? [97, 98, 99, 10] = some ['a', 'b', 'c', '\n'] ∧
      run ["-E", "(?<n>a(?=b(?<n>c)))\\k<n>"] [97, 98, 99, 10] =
        { code := 101, fault := some (.badSlice 2 1) } := by
  obtain ⟨a, ha, hmatch⟩ := exists_isMatch_nestedName
  have hread : Settings.read {} ["-E", "(?<n>a(?=b(?<n>c)))\\k<n>"] =
      .ok { pattern := some "(?<n>a(?=b(?<n>c)))\\k<n>" } := rfl
  have hjob := Job.ofArguments_eq_ok hread rfl parse_nestedName ha
  have hdecode : Text.decode? [97, 98, 99, 10] = some ['a', 'b', 'c', '\n'] :=
    Text.decode?_eq_some_iff.2 (by decide)
  have hlines : Text.HasLines ['a', 'b', 'c', '\n'] [['a', 'b', 'c']] :=
    @Text.HasLines.feed ['a', 'b', 'c'] [] [] (by decide) (by decide) .nil
  refine ⟨a, hread, parse_nestedName, ha, hdecode, ?_⟩
  rw [Text.decode?_eq_some_iff.1 hdecode, run_text hjob hlines, List.map_singleton, Job.line,
    if_neg Bool.false_ne_true, hmatch]
  rfl

end Filter

end RegexEngine
