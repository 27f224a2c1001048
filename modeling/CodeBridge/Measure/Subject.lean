import CodeBridge.Folder
import CodeBridge.Sample.Basic

/-! # Subjects

What a measurement runs: functions that set a workload up with named arguments and run it. -/

namespace CodeBridge

/-- The text of a failure that was raised with these values. -/
def Fault.raisedText (label : String) : List Value → String
  | [] => ""
  | [v] => if label == "KeyError" then v.quoted else v.shown
  | [a, b] =>
    if label.endsWith "OSError" || label == "FileNotFoundError" then "[Errno " ++ a.shown ++ "] " ++ b.shown
    else (Value.tuple [a, b]).quoted
  | vs => (Value.tuple vs).quoted

/-- The failure that was raised with these values. -/
def Fault.ofValues (label : String) (values : List Value) : Fault :=
  .raised label (raisedText label values)

/-- A failure with its class. -/
def Fault.described (fault : Fault) : String :=
  fault.label ++ ": " ++ fault.message

namespace Measure

abbrev Arguments := List (String × Value)

structure Subject where
  name : String
  /-- The arguments to run it with, besides none. -/
  params : List Arguments := []
  /-- What it gives for arguments; what is no function gives nothing. -/
  run? : Option (Arguments → Working Sample)

/-- Arguments in place of defaults: each keeps the place of its default, and new ones follow. -/
def override (defaults arguments : Arguments) : Arguments :=
  arguments.foldl (fun all (name, v) => put all name v) defaults
where
  put : Arguments → String → Value → Arguments
    | [], name, v => [(name, v)]
    | (key, old) :: rest, name, v => if key == name then (key, v) :: rest else (key, old) :: put rest name v

/-- The subjects of a module, or why it cannot be loaded. -/
abbrev Suite := Except Fault (List Subject)

/-- A function to measure. -/
structure Bench where
  name : String
  params : List Arguments
  run : Arguments → Working Sample

/-- The functions to measure, by their names. -/
def benches (subjects : List Subject) : List Bench :=
  let found := subjects.filterMap fun s =>
    if s.name.startsWith "bench_" then s.run?.map fun run => Bench.mk s.name s.params run else none
  found.mergeSort fun a b => decide (a.name ≤ b.name)

/-- The outcome of a run whose output nobody reads. -/
def quietly {α : Type} (action : Working α) : Except Fault α :=
  match action {} with
  | .ok a _ => .ok a
  | .error fault _ => .error fault

end Measure

end CodeBridge
