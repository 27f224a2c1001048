import CodeBridge.Json.Text
import CodeBridge.Measure.Profile
import CodeBridge.Measure.Subject
import CodeBridge.Sample.Fingerprint

/-! # The self-check

Each workload is run with its defaults and with each of its parameters. The record of it tells what it
returned, whether that is the same again, and whose code the time went to. -/

namespace CodeBridge.Measure

/-- A file of the project, seen from its folder. -/
def Row.isOwnHere (row : Row) : Bool :=
  row.path != "~" && !row.path.startsWith "<" && !row.path.startsWith "/" && isOwn (Folder.parts row.path)

/-- What is known of one workload. -/
structure Record where
  kind : Json := .null
  stable : List String := []
  byParameter : List (String × Json) := []
  milliseconds : List (String × Json) := []
  ownShare : List (String × Json) := []
  compiledShare : List (String × Json) := []
  inputs : List String := []

namespace Record

def json (r : Record) : Json :=
  .object [("ret_type", r.kind), ("fp_stable", .array (r.stable.map .string)), ("fp_by_param", .object r.byParameter),
    ("repo_tt_ms", .object r.milliseconds), ("repo_frac", .object r.ownShare), ("ext_frac", .object r.compiledShare),
    ("param_fps", .array (r.inputs.map .string))]

/-- Notes whose code the time of a run went to. -/
def addProfile (r : Record) (label : String) (p : Profile) : Record :=
  let own := p.seconds Row.isOwnHere
  let compiled := p.seconds fun row => isCompiled row.path
  let note (x : Float) : Json := .float (Decimal.roundTo x 3)
  { r with
    milliseconds := Json.setMember label (note (own * 1000)) r.milliseconds
    ownShare := Json.setMember label (note (p.share own)) r.ownShare
    compiledShare := Json.setMember label (note (p.share compiled)) r.compiledShare }

/-- The record of a workload that failed. -/
def fail (r : Record) (fault : Fault) : Record :=
  { r with kind := .string ("<" ++ fault.label ++ ">") }

end Record

/-- The name of a run with these arguments. -/
def runLabel (arguments : Arguments) : String :=
  if arguments.isEmpty then "-"
  else
    let sorted := arguments.mergeSort fun a b => decide (a.1 ≤ b.1)
    ",".intercalate (sorted.map fun (name, v) => name ++ "=" ++ v.shown)

/-- The fingerprints of the arguments. -/
def argumentMarks (arguments : Arguments) : List String :=
  arguments.map fun (_, v) => (Sample.ofValue v).fingerprint

/-- Runs a workload with each of the arguments, up to the first failure. -/
def checkParameters (b : Bench) : List Arguments → Record → List Profile → Record × List Profile
  | [], r, profiles => (r, profiles)
  | arguments :: rest, r, profiles =>
    let r := { r with inputs := r.inputs ++ argumentMarks arguments }
    match quietly (b.run arguments) with
    | .error fault => (r.fail fault, profiles)
    | .ok result =>
      let label := runLabel arguments
      let (profile, profiles) := nextProfile profiles
      let r := { r with byParameter := Json.setMember label (.string result.fingerprint) r.byParameter }
      checkParameters b rest (r.addProfile label profile) profiles

/-- The record of a workload, and the profiles that are left. -/
def checkBench (b : Bench) (profiles : List Profile) : Record × List Profile :=
  match quietly (b.run []), quietly (b.run []) with
  | .ok first, .ok second =>
    let (profile, profiles) := nextProfile profiles
    let r : Record := { kind := .string first.kind, stable := [first.fingerprint, second.fingerprint] }
    checkParameters b b.params (r.addProfile "<default>" profile) profiles
  | .error fault, _ => (Record.fail {} fault, profiles)
  | _, .error fault => (Record.fail {} fault, profiles)

def checkBenches : List Bench → List Profile → List (String × Json)
  | [], _ => []
  | b :: rest, profiles =>
    let (r, profiles) := checkBench b profiles
    (b.name, r.json) :: checkBenches rest profiles

/-- What is said of a module that cannot be loaded. -/
def loadFailure (fault : Fault) : Json :=
  .object [("_import_error", .string fault.described)]

/-- The records of all workloads. -/
def selfCheck (suite : Suite) (profiles : List Profile) : Json :=
  match suite with
  | .error fault => loadFailure fault
  | .ok subjects => .object [("semcheck", .object (checkBenches (benches subjects) profiles))]

end CodeBridge.Measure
