import CodeBridge.Json.Reader
import CodeBridge.Measure.Plateau
import CodeBridge.Measure.Table
import CodeBridge.Measure.Verdict
import CodeBridge.Text.Lines
import CodeBridge.Text.Word

/-! # Rounds

A round starts the measurements one after the other, reports what they found, writes a line to the history of
rounds, and says whether it was the last one that is needed. -/

namespace CodeBridge.Measure

/-- How a started process ended. -/
inductive Ending where
  | exited (code : Int) (output errors : String)
  | failed (fault : Fault)

/-- What a round finds around it: the processes by name, the time, and how long the coverage took. -/
structure Surroundings where
  process : String → Ending
  now : Json
  elapsed : Json

/-- The folder that is worked in with what is printed, and what is complained of. -/
structure Survey where
  desk : Desk
  complaints : String := ""

abbrev Surveying := EStateM Fault Survey

namespace Surveying

def working {α : Type} (action : Working α) : Surveying α := fun s =>
  match action s.desk with
  | .ok a desk => .ok a { s with desk := desk }
  | .error fault desk => .error fault { s with desk := desk }

def check {α : Type} (outcome : Except Fault α) : Surveying α :=
  working (Working.check outcome)

def print (line : String) : Surveying Unit :=
  working (Working.print line)

def printAll (lines : List String) : Surveying Unit :=
  lines.forM print

def complain (text : String) : Surveying Unit :=
  modify fun s => { s with complaints := s.complaints ++ text }

def folder : Surveying Folder := do
  return (← get).desk.folder

end Surveying

open Surveying

/-- The output of a process, and its exit code. -/
def outputOf (process : Ending) : Surveying (Int × String) :=
  match process with
  | .failed fault => throw fault
  | .exited code output errors => do
    complain errors
    return (code, output)

/-! ### What the measurements say -/

/-- The document that a process printed; nothing stands for an empty one. -/
def document (output : String) : Except Fault Json :=
  if output == "" then .ok (.object []) else Json.parse output

/-- Runs a measurement that may be missing. A failure is complained of, and then nothing is known. -/
def measurement {α : Type} (script name : String) (s : Surroundings) (nothing : α)
    (read : Json → Except Fault α) : Surveying α := do
  if !(← folder).contains script then return nothing
  let outcome ← match s.process script with
    | .failed fault => pure (Except.error fault)
    | .exited _ output errors => do
      complain errors
      pure (document output >>= read)
  match outcome with
  | .ok a => return a
  | .error fault => do
    complain ("[" ++ name ++ " runner: " ++ fault.described ++ "]\n")
    return nothing

/-- The percentages of own time, and the busy modules. -/
structure Times where
  percentages : List (String × Float) := []
  busy : Json := .object []

def Times.ofJson (j : Json) : Except Fault Times := do
  let members ← (← j.get "repo_time_pct").orEmpty.entries
  let percentages ← members.mapM fun m => do return (m.1, ← m.2.toFloat)
  return ⟨percentages, (← j.get "hot_ext").orEmpty⟩

/-- The findings about all workloads that have a record. -/
def findings (j : Json) : Except Fault (List (String × Finding)) := do
  let members ← (← j.get "semcheck").orEmpty.entries
  let records := members.filter fun m => match m.2 with
    | .object _ => true
    | _ => false
  records.mapM fun m => do return (m.1, ← Finding.ofJson m.2)

/-- The lines of a text, without the marks between them. -/
def splitLines (cs : List Char) : List (List Char) :=
  match cs with
  | [] => [[]]
  | c :: rest =>
    if c == '\n' then [] :: splitLines rest
    else match splitLines rest with
      | [] => [[c]]
      | first :: others => (c :: first) :: others

/-- The lines of a text that are not blank. -/
def fullLines (text : String) : List String :=
  let lines := splitLines (Text.unifyLineEnds text.toList)
  (lines.filter fun l => !(Text.trim l).isEmpty).map String.ofList

/-- The files that differ from what was checked in; a mark of three characters stands before each. -/
def modifiedFiles (s : Surroundings) : List String :=
  match s.process "git" with
  | .failed _ => []
  | .exited _ output _ => (fullLines output).map fun l => String.ofList (l.toList.drop 3)

/-- Whether a function to measure begins at the start of a line. -/
def beginsBench (cs : List Char) : Bool :=
  let start := "def bench_".toList
  start.isPrefixOf cs &&
    (((cs.drop start.length).dropWhile Text.isWord).dropWhile Text.isBlank).head? == some '('

/-- How many functions to measure a text has. -/
def countBenches (atStart : Bool) : List Char → Nat
  | [] => 0
  | c :: rest =>
    (if atStart && beginsBench (c :: rest) then 1 else 0) + countBenches (c == '\n') rest

/-! ### Sections of the report -/

/-- Below this percentage a workload spends too little time in the project's own code. -/
def lowTime : Float := 45

/-- The percentages of the workloads that did not fail. -/
def validTimes (t : Times) : List Float :=
  (t.percentages.map (·.2)).filter fun x => decide (0 ≤ x)

def isLow (x : Float) : Bool :=
  decide (0 ≤ x) && decide (x < lowTime)

def countLow (t : Times) : Nat :=
  ((validTimes t).filter isLow).length

/-- How many workloads are below the percentage, unless nothing is known. -/
def lowCount? (t : Times) : Option Int :=
  if (validTimes t).isEmpty then none else some (countLow t)

def failureLines (failures : List (String × Json)) : List String :=
  if failures.isEmpty then []
  else ["", Decimal.natText failures.length ++ " bench error(s):"] ++
    (failures.take 8).map fun (name, text) => "  " ++ name ++ ": " ++ text.shown

/-- The busy modules of a workload, in parentheses. -/
def busyText (t : Times) (name : String) : String :=
  match t.busy.member? name with
  | some (.array (first :: rest)) => " (hot: " ++ " ".intercalate ((first :: rest).map moduleText) ++ ")"
  | _ => ""
where
  moduleText (j : Json) : String :=
    match j with
    | .array [percent, name] =>
      name.shown ++ " " ++ (match percent.toFloat with
        | .ok x => Decimal.fixed 0 x
        | .error _ => percent.shown) ++ "%"
    | j => j.shown

def starred (flag : Bool) (name : String) : String :=
  (if flag then "  * " else "    ") ++ Text.left 32 name ++ " "

def timeLine (t : Times) (entry : String × Float) : String :=
  let (name, x) := entry
  let shown := if x < 0 then 0 else x
  starred (isLow x) name ++ Text.right 5 (Decimal.fixed 1 shown) ++ "%" ++
    (if x < 0 then "  <error>" else if isLow x then busyText t name else "")

def timeLines (t : Times) : List String :=
  if t.percentages.isEmpty then []
  else ["", "repo_time (target 50%; * = below 45%):"] ++
    (t.percentages.mergeSort fun a b => decide (a.2 ≤ b.2)).map (timeLine t)

def modifiedLines (files : List String) : List String :=
  if files.isEmpty then []
  else ["", "** repo modified (" ++ Decimal.natText files.length ++
      " file(s)) — revert these; only microbench.py is yours to edit:"] ++
    (files.take 10).map ("   " ++ ·)

def hints : List String :=
  ["  returns-none: run() has no return — collect and return the call results",
    "  unstable: seed RNG in setup; avoid time/uuid/id in the return",
    "  returns-input: return repo output, not the parameter value",
    "  low-repo-time: <50% of run() time is in repo code — move glue to setup",
    "  param-invariant: return something derived from run()'s work, not setup",
    "  repo-modified: revert edits to repo files (git checkout -- <path>)"]

/-- A workload with its finding and what is said of it. -/
abbrev Judged := String × Finding × Verdict

def judge (modified : Bool) (found : List (String × Finding)) : List Judged :=
  found.map fun (name, f) => (name, f, f.verdict modified)

def judgedLine (j : Judged) : String :=
  let (name, f, v) := j
  starred (!v.isGood) name ++ Text.left 16 v.label ++ " (" ++ f.kind.getD "?" ++ ", repo " ++
    Decimal.fixed 0 (f.share * 100) ++ "%) " ++ Decimal.fixed 1 f.time ++ "ms"

def badOnes (judged : List Judged) : List Judged :=
  judged.filter fun j => !j.2.2.isGood

/-- All workloads, those to mend first. -/
def judgedLines (judged : List Judged) : List String :=
  if judged.isEmpty then []
  else ["", "self-check (* = fix needed):"] ++ hints ++
    (badOnes judged ++ judged.filter fun j => j.2.2.isGood).map judgedLine

/-! ### The history -/

/-- The file of rounds. -/
def historyFile : String := ".pti_checkpoint.jsonl"

/-- What earlier rounds left behind. -/
structure History where
  /-- The number of this round. -/
  round : Nat
  /-- The rounds before, if all of them can be read. -/
  rounds? : Option (List Json)

def readHistory (f : Folder) : History :=
  let lines := match f.read historyFile with
    | .ok text => fullLines text
    | .error _ => []
  let rounds := lines.mapM fun l => do
    let j ← Json.parse l
    let _ ← j.get "ts"
    return j
  ⟨lines.length + 1, rounds.toOption⟩

/-- The time since the last round. -/
def sinceLast (now : Json) (rounds : List Json) : Json :=
  match rounds.getLast? >>= Json.member? "ts" with
  | some before =>
    match now.minus before with
    | .ok d => d.rounded 2
    | .error _ => .float 0
  | none => .float 0

/-- The counts of the rounds that have one. -/
def earlierCounts (rounds : List Json) : List Int :=
  rounds.filterMap fun r =>
    match r.member? "n_below_repo_time" with
    | some (.int n) => some n
    | _ => none

/-- What a round found. -/
structure Result where
  history : History
  percent : Float
  covered : Json
  statements : Json
  benches : Nat
  failures : Nat
  times : Times
  judged : List Judged

/-- The line of a round in the history. -/
def Result.entry (r : Result) (s : Surroundings) (rounds : List Json) : Json :=
  .object [("round", .int r.history.round), ("ts", s.now), ("wall_since_prev_s", sinceLast s.now rounds),
    ("coverage_pct", .float r.percent), ("covered_lines", r.covered), ("num_statements", r.statements),
    ("n_bench_fns", .int r.benches), ("n_bench_errors", .int r.failures), ("cov_measure_s", s.elapsed.rounded 3),
    ("repo_time_pct", .object (r.times.percentages.map fun (name, x) => (name, .float x))),
    ("n_below_repo_time", ((lowCount? r.times).map .int).getD .null),
    ("semcheck", .object (r.judged.map fun (name, _, v) => (name, .string v.label))),
    ("n_not_self_checking", .int (badOnes r.judged).length)]

/-- Adds a line to the history; one that cannot be read is left alone. -/
def remember (s : Surroundings) (r : Result) : Surveying Unit := do
  match r.history.rounds? with
  | none => return
  | some rounds =>
    let before := match (← folder).read historyFile with
      | .ok text => text
      | .error _ => ""
    working (Working.write historyFile (before ++ (r.entry s rounds).text ++ "\n"))

/-! ### A round -/

/-- From this coverage on the rounds may end. -/
def enoughCoverage : Float := 60

def fraction (part whole : Nat) : String :=
  Decimal.natText part ++ "/" ++ Decimal.natText whole

/-- The line that sums a round up. -/
def Result.summary (r : Result) (elapsed : String) : String :=
  "[round " ++ Decimal.natText r.history.round ++ ": " ++ Decimal.natText r.benches ++ " benches, " ++
    Decimal.fixed 1 r.percent ++ "% covered" ++
    (if r.times.percentages.isEmpty then ""
      else ", " ++ fraction (countLow r.times) (validTimes r.times).length ++ " below repo_time 45%") ++
    (if r.judged.isEmpty then ""
      else ", " ++ fraction (badOnes r.judged).length r.judged.length ++ " not self-checking") ++
    ", measured in " ++ elapsed ++ "s]"

def stoppingText : Stopping → String
  | .noneBelow => "0 below"
  | .noImprovement rounds best =>
    "no improvement in " ++ Decimal.natText rounds ++ " rounds; best " ++ Decimal.intText best ++ " below"

/-- Says that no further round is needed, if that is so. -/
def Result.stopLines (r : Result) : List String :=
  match lowCount? r.times with
  | none => []
  | some count =>
    if r.percent < enoughCoverage then []
    else match Stopping.reason? (earlierCounts (r.history.rounds?.getD [])) count with
      | none => []
      | some why => ["",
          ">>> STOP: repo_time converged (" ++ stoppingText why ++ "). Finalize microbench.py now. <<<"]

def coverageFile : String := "_pti_coverage.json"

/-- Zero in place of what counts as nothing. -/
def orZero (j : Json) : Json :=
  if j.truthy then j else .int 0

/-- Reports on a coverage report, and on the measurements besides it. -/
def report (s : Surroundings) (coverage : Json) : Surveying Unit := do
  let totals := (← check (coverage.get "totals")).orEmpty
  let notes := (← check (coverage.get "meta")).orEmpty
  let files := (← check (coverage.get "files")).orEmpty
  let percent ← check (do (orZero (← totals.get "percent_covered")).toFloat)
  let covered := orZero (← check (totals.get "covered_lines"))
  let statements := orZero (← check (totals.get "num_statements"))
  let failures ← check (do (← notes.get "_pti_bench_errors").orEmpty.entries)
  let benches := match (← folder).read "microbench.py" with
    | .ok text => countBenches true (Text.unifyLineEnds text.toList)
    | .error _ => 0
  let times ← measurement "_pti_repotime.py" "repotime" s {} Times.ofJson
  let found ← measurement "_pti_semcheck.py" "semcheck" s [] findings
  let modified := modifiedFiles s
  let judged := judge (!modified.isEmpty) found
  let r : Result := ⟨readHistory (← folder), percent, covered, statements, benches, failures.length, times, judged⟩
  remember s r
  let rows ← check (do (← files.entries).mapM Table.row)
  let missed ← check (statements.minus covered)
  printAll (Table.lines rows statements missed percent)
  printAll (failureLines failures ++ timeLines times ++ modifiedLines modified ++ judgedLines judged)
  printAll ["", r.summary (← check (s.elapsed.fixed 1))]
  printAll r.stopLines

/-- Runs a round. The result is the exit code. -/
def round (s : Surroundings) : Surveying Int := do
  let (code, output) ← outputOf (s.process "_pti_cov_runner.py")
  if code != 0 || !(← folder).contains coverageFile then
    printAll ["coverage measurement failed (exit " ++ Decimal.intText code ++ ")", output]
    return if code == 0 then 1 else code
  let text ← working (Working.read coverageFile)
  report s (← check (Json.parse text))
  return 0

end CodeBridge.Measure
