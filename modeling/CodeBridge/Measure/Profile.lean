import CodeBridge.Decimal.Written
import CodeBridge.Folder

/-! # Profiles

How long each file kept a run busy. The files of the project count as its own, unless they lie in a directory
of built or borrowed code, or only serve to measure. -/

namespace CodeBridge.Measure

/-- The seconds spent at one place of a file. Built-in code has the path `~`. -/
structure Row where
  path : String
  seconds : Float

structure Profile where
  rows : List Row := []
  total : Float := 0

/-- Directories of built and borrowed code. -/
def foreignDirectories : List String :=
  ["venv", ".venv", "site-packages", "build", "dist", "vendor", "third_party", "node_modules", ".tox", ".eggs"]

def isForeign (directory : String) : Bool :=
  foreignDirectories.contains directory || directory.endsWith ".egg-info"

/-- Files that only serve to measure. -/
def isHelper (name : String) : Bool :=
  name == "microbench.py" || name.startsWith "_pti_"

/-- Whether a file of the project is its own code. -/
def isOwn (path : Path) : Bool :=
  !path.dropLast.any isForeign && !isHelper (path.getLast?.getD "")

/-- Whether a place is compiled code. -/
def isCompiled (path : String) : Bool :=
  path == "~" || path.endsWith ".so" || path.endsWith ".pyd"

namespace Profile

/-- The seconds of all rows of a sort. -/
def seconds (p : Profile) (sort : Row → Bool) : Float :=
  (p.rows.filter sort).foldl (fun sum row => sum + row.seconds) 0

/-- The part of the total time, which counts as a moment if there was none. -/
def share (p : Profile) (seconds : Float) : Float :=
  let moment : Float := 1e-9
  seconds / (if p.total < moment then moment else p.total)

end Profile

/-- The next of the recorded profiles, an empty one behind the last. -/
def nextProfile : List Profile → Profile × List Profile
  | [] => (⟨[], 0⟩, [])
  | p :: rest => (p, rest)

end CodeBridge.Measure
