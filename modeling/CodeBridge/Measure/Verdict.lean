import CodeBridge.Json.Access
import CodeBridge.Json.Text

/-! # Verdicts

What the record of a workload says about it. A workload is good when it returns something of its own that is
the same again, depends on the parameter, and costs time in the project's own code. -/

namespace CodeBridge.Measure

inductive Verdict where
  | repoModified | error | returnsNone | unstable | returnsInput | lowRepoTime | tooFast | paramInvariant
  | okUnparam | ok
deriving DecidableEq, Repr

namespace Verdict

def label : Verdict → String
  | repoModified => "repo-modified"
  | error => "error"
  | returnsNone => "returns-none"
  | unstable => "unstable"
  | returnsInput => "returns-input"
  | lowRepoTime => "low-repo-time"
  | tooFast => "too-fast"
  | paramInvariant => "param-invariant"
  | okUnparam => "ok-unparam"
  | ok => "ok"

def isGood (v : Verdict) : Bool :=
  v == ok || v == okUnparam

end Verdict

/-- What a record tells of a workload. -/
structure Finding where
  /-- The kind of what it returned. -/
  kind : Option String
  /-- Fingerprints of runs with the same arguments. -/
  stable : List String
  byParameter : List String
  milliseconds : List Float
  ownShare : List Float
  /-- Fingerprints of the arguments. -/
  inputs : List String

/-- The middle of some numbers, between the two in the middle if there are two; zero of none. -/
def median (xs : List Float) : Float :=
  let sorted := xs.mergeSort fun a b => decide (a ≤ b)
  let half := sorted.length / 2
  match sorted[half]? with
  | none => 0
  | some upper =>
    if sorted.length % 2 == 1 then upper
    else match sorted[half - 1]? with
      | some lower => (lower + upper) / 2
      | none => upper

/-- The smallest of some numbers, zero of none. -/
def smallest : List Float → Float
  | [] => 0
  | x :: rest => rest.foldl (fun least y => if y < least then y else least) x

/-- Whether all texts are the same, and there is one. -/
def allSame : List String → Bool
  | [] => false
  | x :: rest => rest.all (· == x)

namespace Finding

/-- Whether a run failed, or nothing is known of it. -/
def failed (f : Finding) : Bool :=
  match f.kind with
  | none => true
  | some kind => kind.startsWith "<"

def share (f : Finding) : Float :=
  smallest f.ownShare

def time (f : Finding) : Float :=
  median f.milliseconds

/-- What is wrong with a workload, the worst first. -/
def verdict (modified : Bool) (f : Finding) : Verdict :=
  if modified then .repoModified
  else if f.failed then .error
  else if f.kind == some "NoneType" then .returnsNone
  else if !allSame f.stable then .unstable
  else if f.stable.any f.inputs.contains then .returnsInput
  else if f.share < 0.5 then .lowRepoTime
  else if f.time < 1 then .tooFast
  else if f.byParameter.length < 2 then .okUnparam
  else if allSame f.byParameter then .paramInvariant
  else .ok

def mark (j : Json) : String :=
  match j with
  | .string s => s
  | j => j.text

def numbers (j : Json) : Except Fault (List Float) := do
  (← j.orEmpty.entries).mapM fun member => member.2.toFloat

/-- Reads the record of a workload. -/
def ofJson (j : Json) : Except Fault Finding := do
  let kind ← j.get "ret_type"
  let stable ← j.get "fp_stable"
  let byParameter ← (← j.get "fp_by_param").orEmpty.entries
  let milliseconds ← numbers (← j.get "repo_tt_ms")
  let ownShare ← numbers (← j.get "repo_frac")
  let inputs ← j.get "param_fps"
  return ⟨if kind.truthy then some kind.shown else none, stable.items.map mark, byParameter.map fun m => mark m.2,
    milliseconds, ownShare, inputs.items.map mark⟩

end Finding

end CodeBridge.Measure
