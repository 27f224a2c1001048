import CodeBridge.Measure.SelfCheck

/-! # The time in the project's own code

For each workload the percentage of its time that the project's own code takes, and the modules outside it
that take most of the rest. -/

namespace CodeBridge.Measure

/-- Where the project lies. -/
def projectRoot : String := "/repo/"

/-- The path behind the project's root. -/
def insideProject? (path : String) : Option Path :=
  if path.startsWith projectRoot then
    some (Folder.parts (String.ofList (path.toList.drop projectRoot.length)))
  else none

def Row.isOwnInProject (row : Row) : Bool :=
  match insideProject? row.path with
  | some path => isOwn path
  | none => false

/-- A file name without its last ending. Dots at the start belong to the name. -/
def stem (name : String) : String :=
  let dots := name.toList.takeWhile (· == '.')
  let rest := name.toList.dropWhile (· == '.')
  match rest.reverse.dropWhile (· != '.') with
  | [] => name
  | _ :: before => String.ofList (dots ++ before.reverse)

/-- The module that a place belongs to. -/
def moduleOf (path : String) : String :=
  if path == "~" then "builtins" else stem ((Folder.parts path).getLast?.getD "")

/-- Adds seconds to those of a module. -/
def addSeconds (name : String) (seconds : Float) : List (String × Float) → List (String × Float)
  | [] => [(name, seconds)]
  | (key, sum) :: rest =>
    if key == name then (key, sum + seconds) :: rest else (key, sum) :: addSeconds name seconds rest

/-- The modules outside the project with their seconds, the busiest first. -/
def busyModules (p : Profile) : List (String × Float) :=
  let outside := p.rows.filter fun row => !row.isOwnInProject
  let sums := outside.foldl (fun sums row => addSeconds (moduleOf row.path) row.seconds sums) []
  sums.mergeSort fun a b => decide (b.2 ≤ a.2)

def percentage (p : Profile) (seconds : Float) : Json :=
  .float (Decimal.roundTo (p.share (100 * seconds)) 1)

/-- How many busy modules are named. -/
def namedModules : Nat := 2

/-- The mark of a workload that failed. -/
def failedPercentage : Json := .float (-1)

/-- The percentages of the workloads, and the busy modules of those that ran. -/
def repoTimes : List Bench → List Profile → List (String × Json) × List (String × Json)
  | [], _ => ([], [])
  | b :: rest, profiles =>
    match quietly (b.run []) with
    | .error _ =>
      let (times, busy) := repoTimes rest profiles
      ((b.name, failedPercentage) :: times, busy)
    | .ok _ =>
      let (p, profiles) := nextProfile profiles
      let hot := (busyModules p).take namedModules |>.map fun (name, seconds) =>
        Json.array [percentage p seconds, .string name]
      let (times, busy) := repoTimes rest profiles
      ((b.name, percentage p (p.seconds Row.isOwnInProject)) :: times, (b.name, .array hot) :: busy)

def repoTime (suite : Suite) (profiles : List Profile) : Json :=
  match suite with
  | .error fault => loadFailure fault
  | .ok subjects =>
    let (times, busy) := repoTimes (benches subjects) profiles
    .object [("repo_time_pct", .object times), ("hot_ext", .object busy)]

end CodeBridge.Measure
