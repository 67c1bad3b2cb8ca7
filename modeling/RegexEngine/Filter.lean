import RegexEngine.Match
import RegexEngine.Text.Lines

/-!
# Filtering lines

The filter reads an input line by line and writes the lines in which a pattern
matches, or only the parts that match.  `Filter.run` is the whole filter: from
its arguments and its input to what it writes and its exit code.

The work can end in the middle, at a line that is not a text or at one on which
the search has no answer.  What was found before is written all the same.
-/

namespace RegexEngine.Filter

/-! ## Arguments -/

/-- What the arguments ask for. -/
structure Settings where
  /-- The text of the pattern. -/
  pattern : Option String := none
  /-- The options of the pattern. -/
  options : Options := {}
  /-- Whether only the parts that match are written. -/
  onlyMatching : Bool := false
deriving DecidableEq, Repr

/-- Why the filter stops before the end of its input. -/
inductive Problem where
  /-- The last argument announces a pattern. -/
  | patternMissing
  /-- An argument has no meaning. -/
  | unexpected (argument : String)
  /-- No argument announces a pattern. -/
  | noPattern
  /-- The pattern cannot be compiled. -/
  | pattern (text : String) (error : PatternError)
  /-- A line of the input is not UTF-8. -/
  | unreadable
deriving DecidableEq, Repr

/-- The errors that lead to an error, itself included, the outermost one
first. -/
def causes (error : PatternError) : List String :=
  error.message ::
    match error with
    | .parse inner => [inner.message]
    | _ => []

/-- The text of a problem. -/
def Problem.message : Problem → String
  | patternMissing => "expected a pattern after '-E'"
  | unexpected argument => "unexpected argument " ++ Text.quoted argument.toList
  | noPattern => "expected '-E <pattern>'"
  | pattern text error =>
    ": ".intercalate (("cannot compile pattern " ++ Text.quoted text.toList) :: causes error)
  | unreadable => "failed to read input: stream did not contain valid UTF-8"

/-- Reads arguments.  Of several patterns the last one counts. -/
def Settings.read (s : Settings) : List String → Except Problem Settings
  | [] => .ok s
  | ["-E"] => .error .patternMissing
  | "-E" :: pattern :: arguments => { s with pattern }.read arguments
  | "-i" :: arguments =>
    { s with options := { s.options with ignoreCase := true } }.read arguments
  | "-m" :: arguments =>
    { s with options := { s.options with multiline := true } }.read arguments
  | "-s" :: arguments =>
    { s with options := { s.options with dotAll := true } }.read arguments
  | "-o" :: arguments => { s with onlyMatching := true }.read arguments
  | argument :: _ => .error (.unexpected argument)

/-- What is done to each line. -/
structure Job where
  /-- The automaton of the pattern. -/
  automaton : Automaton
  /-- Whether only the parts that match are written. -/
  onlyMatching : Bool

/-- The job that the arguments describe. -/
def Job.ofArguments (arguments : List String) : Except Problem Job := do
  let s ← Settings.read {} arguments
  match s.pattern with
  | none => throw .noPattern
  | some text =>
    let automaton ← (Automaton.ofText s.options text.toList).mapError (.pattern text)
    return { automaton, onlyMatching := s.onlyMatching }

/-! ## Lines -/

/-- Why the work ends before the last line. -/
inductive Stop where
  /-- A line is not a text. -/
  | unreadable
  /-- A search has no answer. -/
  | fault (fault : Fault)
deriving DecidableEq, Repr

/-- What is written for a line.  Empty parts are left out. -/
def Job.line (job : Job) (line : List Char) : Yield Fault (List Char) :=
  let text := Subject.ofList line
  if job.onlyMatching then
    ((job.automaton.findAll text).tryMap fun m => text.slice m.start m.stop).filter (· ≠ [])
  else
    match job.automaton.isMatch text with
    | .error fault => .stopped fault
    | .ok found => { items := if found then [line] else [] }

/-- What is written for the lines, until the work ends. -/
def Job.lines (job : Job) : List (List UInt8) → Yield Stop (List Char)
  | [] => {}
  | bytes :: later =>
    match Text.decode? bytes with
    | none => .stopped .unreadable
    | some line => ((job.line line).mapStop .fault).append (job.lines later)

/-! ## The filter -/

/-- What a run of the filter leaves. -/
structure Report where
  /-- The exit code: 0 if something was written, 1 if not, 2 after a problem and
  101 after a fault. -/
  code : Nat
  /-- What is written to the standard output. -/
  output : String := ""
  /-- What is written to the standard error. -/
  diagnostics : String := ""
  /-- The fault that has ended the run, if one has. -/
  fault : Option Fault := none
deriving DecidableEq, Repr

/-- The report of a problem. -/
def Report.ofProblem (problem : Problem) (output : String := "") : Report where
  code := 2
  output := output
  diagnostics := "error: " ++ problem.message ++ "\n"

/-- The report on a job that has been done, as far as it goes. -/
def Report.ofLines (written : Yield Stop (List Char)) : Report :=
  let output := String.ofList (written.items.flatMap fun line => line ++ ['\n'])
  match written.stop with
  | none => { code := if written.items.isEmpty then 1 else 0, output }
  | some .unreadable => .ofProblem .unreadable output
  | some (.fault fault) => { code := 101, output, fault }

/-- Runs the filter on an input. -/
def run (arguments : List String) (input : List UInt8) : Report :=
  match Job.ofArguments arguments with
  | .error problem => .ofProblem problem
  | .ok job => .ofLines (job.lines (Text.lines input))

end RegexEngine.Filter
