import CodeBridge.Json.Access
import CodeBridge.Json.Reader
import CodeBridge.Measure.SelfCheck

/-! # Coverage

All workloads are run once under a coverage tool. Its report is written to a file, and gets the failures and
the number of workloads added. -/

namespace CodeBridge.Measure

/-- What is asked of the coverage tool. -/
inductive ToolCall where
  | configure (source : String) (leftOut : Json)
  | start
  | stop
  | report (file : String)

namespace ToolCall

def text : ToolCall → String
  | .configure source leftOut => "['Coverage', " ++ (Value.dict
      [(.text "branch", .bool false), (.text "config_file", .bool false), (.text "data_file", .nothing),
        (.text "omit", leftOut.toValue), (.text "source", .list [.text source])]).quoted ++ "]"
  | start => "['start']"
  | stop => "['stop']"
  | report file => (Value.list [.text "json_report", .text file, .bool true]).quoted

end ToolCall

/-- The folder that is worked in, and the calls of the coverage tool. -/
structure Covering where
  desk : Desk
  calls : List ToolCall := []

abbrev CoverageRun := EStateM Fault Covering

namespace CoverageRun

def call (c : ToolCall) : CoverageRun Unit :=
  modify fun s => { s with calls := s.calls ++ [c] }

def working {α : Type} (action : Working α) : CoverageRun α := fun s =>
  match action s.desk with
  | .ok a desk => .ok a { s with desk := desk }
  | .error fault desk => .error fault { s with desk := desk }

def check {α : Type} (outcome : Except Fault α) : CoverageRun α :=
  working (Working.check outcome)

/-- The outcome of an action whose failure is only noted. -/
def attempt {α : Type} (action : CoverageRun α) : CoverageRun (Except Fault α) := fun s =>
  match action s with
  | .ok a s => .ok (.ok a) s
  | .error fault s => .ok (.error fault) s

end CoverageRun

open CoverageRun

/-- An absolute path without steps that lead nowhere. -/
def normalPath (path : String) : String :=
  "/" ++ Folder.name ((Folder.parts path).foldl Folder.step [])

/-- Runs all workloads, and notes the failures. -/
def runAll : List Bench → CoverageRun (List (String × Json))
  | [] => return []
  | b :: rest => do
    let outcome ← attempt (working (b.run []))
    let others ← runAll rest
    match outcome with
    | .ok _ => return others
    | .error fault => return (b.name, .string fault.described) :: others

/-- The failures and the number of the workloads of a module. -/
def runSuite : Suite → CoverageRun (List (String × Json) × Nat)
  | .error fault => return ([("<import>", .string fault.described)], 0)
  | .ok subjects => do
    let bs := benches subjects
    return (← runAll bs, bs.length)

/-- The report with a member set in its `meta`. -/
def annotate (report : Json) (notes : List (String × Json)) : Except Fault Json :=
  match report with
  | .object members =>
    match (Json.find? "meta" members).getD (.object []) with
    | .object old =>
      let new := notes.foldl (fun ms (name, v) => Json.setMember name v ms) old
      .ok (.object (Json.setMember "meta" (.object new) members))
    | .array _ => .error (.indexNotInteger "list")
    | j => .error (.noItemAssignment j.kind)
  | j => .error (.lacks j.kind "setdefault")

/-- The line that sums a report up. -/
def summary (report : Json) (benches failures : Nat) : Except Fault String := do
  let totals ← report.require "totals"
  let percent ← (← totals.require "percent_covered").fixed 1
  let covered ← totals.require "covered_lines"
  let statements ← totals.require "num_statements"
  return "coverage: " ++ percent ++ "% (" ++ covered.shown ++ "/" ++ statements.shown ++ " stmts, " ++
    Decimal.natText benches ++ " benches, " ++ Decimal.natText failures ++ " errors)"

/-- The module that holds the workloads. -/
def suiteName : String := "microbench"

/-- Loads the module of a name: there is only one. -/
def load (name : String) (suite : Suite) : Suite :=
  if name == suiteName then suite
  else .error (.raised "ModuleNotFoundError" ("No module named " ++ Text.quoted name))

/-- Measures the coverage of the files below `root`, without those that are left out, and reports it to a
file. -/
def measureCoverage (root name file : String) (leftOut : Json) (suite : Suite) (report : String) : CoverageRun Unit := do
  call (.configure (normalPath root) leftOut)
  call .start
  let (failures, count) ← runSuite (load name suite)
  call .stop
  call (.report file)
  working (Working.write file report)
  let found ← check (Json.parse (← working (Working.read file)))
  let found ← check (annotate found
    [("_pti_bench_errors", .object failures), ("_pti_n_benches", .int count)])
  working (Working.write file found.text)
  working (Working.print (← check (summary found count failures.length)))

/-- The command line: a root, a module, a file for the report, and what is left out as JSON. -/
def coverageCommand (arguments : List String) (suite : Suite) (report : String) : CoverageRun Unit :=
  match arguments with
  | root :: name :: file :: leftOut :: _ => do
    let leftOut ← check (Json.parse leftOut)
    measureCoverage root name file leftOut suite report
  | _ => throw .outOfRange

end CodeBridge.Measure
