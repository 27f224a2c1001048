import CodeBridge.Name.Snake
import CodeBridge.Schema.Spelling
import CodeBridge.Workload.Basic
import CodeBridge.Workload.Schemas

/-! # Workloads of names and types -/

namespace CodeBridge.Workload

open Working (check)

/-- Takes elements in turn, so many in all. -/
def inTurn {α : Type} (items : List α) (size : Int) : List α :=
  (indices size).filterMap fun i => items[i % items.length]?

def stems : List String :=
  ["SimpleName", "HTTPServerRequest", "XMLHttpRequest", "parseURLPath", "A", "ABc", "a", "ab", "already_snake",
    "Mix3dCase42Here", "EndWithCAP", "lowerUPPERlower", "X1Y2Z3"]

/-- So many names in snake case. -/
def names (size : Int) : Working Sample := do
  let all := (inTurn stems size).zipIdx.map fun (stem, i) => numbered (stem ++ "Suffix") i
  return .list ((← all.mapM fun name => check (Name.snake name)).map .text)

/-- One type of every sort that can be spelled. -/
def spelledTypes : List DataType :=
  let a : Struct := ⟨"CtStructA", [field "x" (.primitive .int32)], .bool true, .text "t"⟩
  let b : Struct := ⟨"CtStructB", [field "x" (.primitive .int32)], .bool false, .text "t"⟩
  let c : Enumeration := ⟨"CtEnumA", ["A", "B"], .int 1, .bool true, .text "e"⟩
  let d : Enumeration := ⟨"CtEnumB", ["A", "B"], .int 1, .bool false, .text "e"⟩
  Primitive.all.map .primitive ++
    [.struct a, .struct b, .enumeration c, .enumeration d, listOf (.primitive .int32), listOf (.struct a),
      arrayOf (.primitive .double), arrayOf (.enumeration d)]

def spellingSample : Spelling → Sample
  | .plain s => .text s
  | .around before behind => .tuple [.text before, .text behind]

/-- The spellings of so many types. -/
def spellings (size : Int) : Working Sample := do
  let all ← (inTurn spelledTypes size).mapM fun t => check t.spelling
  return .list (all.map spellingSample)

/-- The types around a numbered struct, by their names. -/
def construction (length : Constant) (i : Nat) : Except Fault (Struct × List Sample) := do
  let s ← StructOf.make (numbered "S" i) [field "v" (.primitive .int32)] (.bool false) (.text "t")
  let l ← DataType.listOf (.struct s) (some length)
  let a ← DataType.arrayOf (.struct s) (some length)
  let b ← DataType.listOf (.primitive .int8) none
  let set ← DataType.setOf (numbered "SS" i) (.struct s) []
  let labels := [l, a, b, set].map fun t => Sample.text t.label
  return (s, [.text (DataType.primitive .int32).shown, .list labels])

/-- What so many constructions give, how many structs a module of them has, and a constant of it. -/
def constructions (size : Int) : Working Sample := do
  let length ← check (Constant.ofValue bound (.int 8))
  let all ← (indices size).mapM fun i => check (construction length i)
  let m ← check (Module.ofItems "bench" (.constant length :: all.map fun (s, _) => .type (.struct s)))
  return .list (all.flatMap (·.2) ++ [.int m.structs.length, Sample.ofValue length.value])

end CodeBridge.Workload
