import CodeBridge.Emit.Texts
import CodeBridge.Text.Escape
import CodeBridge.Workload.Basic
import CodeBridge.Workload.Schemas

/-! # Workloads of the generators

Each generates the texts of a module with so many records. Of a header the text itself is the sample, of the
others its length. -/

namespace CodeBridge.Workload

open Working (check)

def lengths (texts : String × String) : List Sample :=
  [lengthOf texts.1, lengthOf texts.2]

def texts (items : List String) : Sample :=
  .list (items.map .text)

/-! ### Headers -/

def headerConstants : List Constant :=
  [⟨bound, .int 8⟩, ⟨"PI_VAL", .float 3.14159⟩, ⟨"FLAG_ON", .bool true⟩,
    ⟨"GREETING", .text "hi \"world\"\n\t\r\x0c\x08\x07\x0b\\end"⟩]

def headerRecord (kinds : List Enumeration) (i : Nat) : Struct :=
  let inner := DataType.struct (point "InnerPoint")
  ⟨numbered "RecordType" i,
    primitiveFields "p" Primitive.all ++
      [field "tag" (kindAt kinds i), field "child" inner (some "nested\nsecond line"),
        field "items" (listOf (.primitive .int32)), field "grid" (arrayOf inner)],
    isEven i, .text (if i % 3 == 0 then "" else "t")⟩

/-- The header of the records in both styles, and the suffix of the first of them. -/
def headers (size : Int) : Working Sample := do
  let kinds := colorKinds size
  let records := (indices size).map (headerRecord kinds)
  let m : Module := ⟨"bench", headerConstants, point "InnerPoint" :: records, kinds⟩
  let knr ← check (Emit.headerText .knr m)
  let bsd ← check (Emit.headerText .bsd m)
  match records with
  | [] => throw .outOfRange
  | first :: _ =>
    let suffix ← check (DataType.struct first).typedefSuffix
    return texts [knr, bsd, Text.Escape.quote "a\"b\nc", Text.Escape.escape "x\ty", suffix]

/-! ### Classes -/

def classRecord (kind : Enumeration) (i : Nat) : Struct :=
  let inner := DataType.struct (point "InnerPoint")
  ⟨numbered "RecordType" i,
    primitiveFields "p" Primitive.all ++
      [field "tag" (.enumeration kind), field "child" inner (some "nested\nsecond line"),
        field "items" (listOf (.primitive .int32)), field "grid" (arrayOf inner),
        field "thresholds" (.map "Thresholds" (.primitive .string) (.primitive .double))],
    .bool false, .text "t"⟩

def classPoint : Struct :=
  ⟨"InnerPoint",
    [field "x" (.primitive .int32), field "y" (.primitive .int32) (some "counted downward from zero")],
    .bool false, .text "t"⟩

/-- The length of the classes, and the value that a field of each type starts with. -/
def classes (size : Int) : Working Sample := do
  let m : Module := ⟨"bench", [], classPoint :: (indices size).map (classRecord (colorKind 0)), [colorKind 0, colorKind 1]⟩
  let text ← check (Emit.classesText m)
  let types := Primitive.all.map DataType.primitive ++ [.struct classPoint]
  return .list [lengthOf text, .list (types.map fun t => Sample.ofValue t.defaultValue)]

/-! ### Conversions -/

def conversionTone : Enumeration :=
  ⟨"ColorTone", ["Green", "Blue", "Yellow", "Orange", "Purple", "Magenta", "Crimson", "White"], .int 1,
    .bool true, .text "e"⟩

def conversionPoint : Struct :=
  ⟨"ColorPoint", (point "ColorPoint").fields, .bool true, .text "t"⟩

/-- What a record holds that is converted in both directions. -/
def conversionFields : List Field :=
  let tone := DataType.enumeration conversionTone
  primitiveFields "p" ((Primitive.all.filter (·.isInteger)) ++ [.float, .double]) 1 ++
    [field "tag" tone, field "child" (.struct conversionPoint),
      field "q0" (listOf (.primitive .double)), field "q1" (listOf tone), field "q2" (arrayOf tone),
      field "q3" (listOf (.primitive .int8)), field "q4" (arrayOf (.primitive .int8))]

def conversionModule (fields : List Field) (size : Int) : Module :=
  let records := (indices size).map fun i =>
    (⟨numbered "RecordType" i, fields, isEven i, .text "t"⟩ : Struct)
  ⟨"exchange", [], conversionPoint :: records, [conversionTone]⟩

/-- The conversions of a module out of C alone. -/
def conversionsToPython (m : Module) : Emit.Sourcing Unit := do
  let path := Emit.Conversion.classPath "" m
  Emit.Sourcing.each m.enumerations (Emit.Conversion.enumerationToPython path)
  Emit.Sourcing.each m.structs (Emit.Conversion.structToPython path)

/-- The lengths of the conversions in both directions, then of those that have flags and texts too, out of C
alone, and the casts of all whole numbers. -/
def conversions (size : Int) : Working Sample := do
  let both ← check (Emit.conversionTexts "" (conversionModule conversionFields size))
  let more := [field "p0" (.primitive .boolean), field "p12" (.primitive .string)]
  let m := conversionModule (conversionFields ++ more) size
  let back ← check (Emit.outcome (conversionsToPython m *> Emit.Sourcing.result) ⟨Writer.braced, Writer.braced⟩)
  let casts ← (Primitive.all.filter (·.isInteger)).mapM fun p => check ((DataType.primitive p).cast "v")
  return .list (lengths both ++ lengths back ++ [texts casts])

/-! ### Printers -/

/-- The primitives that can be printed. -/
def printables : List Primitive :=
  [.int64, .uint64, .int32, .uint32, .int16, .uint16, .int8, .uint8, .double, .float]

def printerInner : Struct :=
  ⟨"TsInner", [field "v" (.primitive .int32)], .bool true, .text "t"⟩

def printerRecord (kinds : List Enumeration) (i : Nat) : Struct :=
  ⟨numbered "TsStruct" i,
    primitiveFields "p" printables ++
      [field "tag" (kindAt kinds i), field "child" (.struct printerInner), field "arr" (arrayOf (.struct printerInner))],
    isEven i, .text "t"⟩

/-- The lengths of the printers in both styles, and the format of every primitive. -/
def printers (size : Int) : Working Sample := do
  let kinds := colorKinds size
  let m : Module := ⟨"bench", [⟨bound, .int 8⟩], printerInner :: (indices size).map (printerRecord kinds), kinds⟩
  let knr ← check (Emit.printerTexts .knr m)
  let bsd ← check (Emit.printerTexts .bsd m)
  let codes ← printables.mapM fun p => check (DataType.primitive p).printfCode
  return .list [.list (lengths knr), .list (lengths bsd), texts codes, .text (Emit.Printers.quote "x\"y\n"),
    .text (Emit.Printers.escape "a\tb")]

end CodeBridge.Workload
