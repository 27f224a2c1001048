import CodeBridge.Schema.Basic

/-! # Schemas for workloads

Items that grow with an index: enumerations of six values, and records that take turns in being defined by a
`typedef`. -/

namespace CodeBridge.Workload

/-- A name with a number behind it. -/
def numbered (stem : String) (i : Nat) : String :=
  stem ++ Decimal.natText i

def field (name : String) (type : DataType) (comment : Option String := none) : Field :=
  ⟨name, type, comment⟩

/-- The name of the constant that bounds all sequences. -/
def bound : String := "MAX_ITEMS_0"

def listOf (element : DataType) : DataType :=
  .list element (.named bound)

def arrayOf (element : DataType) : DataType :=
  .array element bound

def isEven (i : Nat) : Value :=
  .bool (i % 2 == 0)

/-- An enumeration of six values; every second one is defined by a `typedef`. -/
def colorKind (i : Nat) : Enumeration :=
  let name := numbered "ColorKind" i
  ⟨name, (List.range 6).map fun j => numbered (name ++ "_V") j, .int 1, isEven i, .text ""⟩

/-- The enumerations for so many records. -/
def colorKinds (records : Int) : List Enumeration :=
  indicesOf (max 2 (records / 3)) |>.map colorKind
where
  indicesOf (n : Int) : List Nat := List.range n.toNat

/-- The enumeration whose turn it is at an index. -/
def kindAt (kinds : List Enumeration) (i : Nat) : DataType :=
  match kinds[i % kinds.length]? with
  | some e => .enumeration e
  | none => .missing

def point (name : String) : Struct :=
  ⟨name, [field "x" (.primitive .int32), field "y" (.primitive .int32)], .bool false, .text "t"⟩

/-- A field for each primitive, under numbered names. -/
def primitiveFields (stem : String) (primitives : List Primitive) (first : Nat := 0) : List Field :=
  primitives.zipIdx first |>.map fun (p, i) => field (numbered stem i) (.primitive p)

end CodeBridge.Workload
