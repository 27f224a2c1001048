import CodeBridge.Json.Access
import CodeBridge.Measure.RepoTime
import CodeBridge.Text.Align

/-! # The table of a coverage report

A line for each file, the least covered first and of equally covered ones the longest first, and a line for
their total. -/

namespace CodeBridge.Measure

structure TableRow where
  name : String
  statements : Json
  missed : Json
  percent : Float
  missing : List Json

namespace Table

/-- No name is shown longer than this. -/
def widest : Nat := 60

/-- No more files are shown than these. -/
def longest : Nat := 120

/-- No more lines are named than these. -/
def namedLines : Nat := 12

/-- The steps from the project's root to an absolute path. -/
def stepsTo (path : Path) : Path :=
  match path with
  | "repo" :: rest => rest
  | path => ".." :: path

/-- The name of a file, seen from the project. -/
def shownName (path : String) : String :=
  if path.startsWith "/" then Folder.name (stepsTo ((Folder.parts path).foldl Folder.step []))
  else path

def row (file : String × Json) : Except Fault TableRow := do
  let summary := (← file.2.get "summary").orEmpty
  let number (name : String) : Except Fault Json := do
    let j ← summary.get name
    return if j.truthy then j else .int 0
  let missing ← file.2.get "missing_lines"
  return ⟨shownName file.1, ← number "num_statements", ← number "missing_lines",
    ← (← number "percent_covered").toFloat, missing.items⟩

def statements (r : TableRow) : Float :=
  match r.statements.toFloat with
  | .ok x => x
  | .error _ => 0

/-- Whether a row may stand above another one. -/
def above (a b : TableRow) : Bool :=
  a.percent < b.percent || (a.percent == b.percent && decide (statements b ≤ statements a))

def cut (s : String) : String :=
  String.ofList (s.toList.take widest)

/-- The width of the names. -/
def width (rows : List TableRow) : Nat :=
  min widest (rows.foldl (fun w r => max w r.name.length) 4)

def columns (w : Nat) (name statements missed cover : String) : String :=
  Text.left w (cut name) ++ " " ++ Text.right 6 statements ++ " " ++ Text.right 5 missed ++ " " ++ Text.right 6 cover

def percentText (x : Float) : String :=
  Decimal.fixed 0 x ++ "%"

def missingText (missing : List Json) : String :=
  ",".intercalate ((missing.take namedLines).map Json.shown) ++ (if missing.length > namedLines then "…" else "")

def rule (w : Nat) : String :=
  String.ofList (List.replicate (w + 42) '-')

/-- The lines of the table. -/
def lines (files : List TableRow) (statements missed : Json) (percent : Float) : List String :=
  let rows := (files.mergeSort above).take longest
  let w := width rows
  [columns w "Name" "Stmts" "Miss" "Cover" ++ "  Missing", rule w] ++
    rows.map (fun r =>
      columns w r.name r.statements.shown r.missed.shown (percentText r.percent) ++ "  " ++ missingText r.missing) ++
    [rule w, columns w "TOTAL" statements.shown missed.shown (percentText percent)]

end Table

end CodeBridge.Measure
