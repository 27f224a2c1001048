import CodeBridge.Name.Snake
import CodeBridge.Schema.Basic

/-! # How C spells a type

Most types are one piece of text before the member's name. A list or an array is two pieces: what stands
before the name and what stands behind it. -/

namespace CodeBridge

/-- The C spelling of a type. -/
inductive Spelling where
  | plain (text : String)
  /-- The text before a member's name and the text behind it. -/
  | around (before behind : String)
deriving DecidableEq, Repr

namespace Spelling

def value : Spelling → Value
  | plain text => .text text
  | around before behind => .tuple [.text before, .text behind]

/-- A spelling as one text. -/
def text (s : Spelling) : String :=
  s.value.shown

/-- The declaration of a member. -/
def declare (s : Spelling) (name : String) : String :=
  match s with
  | plain text => text ++ " " ++ name ++ ";"
  | around before behind => before ++ " " ++ name ++ behind ++ ";"

end Spelling

/-- The C name of a struct or enumeration: its `typedef` name, or its tag behind the keyword. -/
def cName (keyword mark name : String) (typedef : Value) : Except Fault String := do
  let tag ← Name.snake name
  return if typedef.truthy then tag ++ mark else keyword ++ tag

def StructOf.cName (s : Struct) : Except Fault String :=
  CodeBridge.cName "struct " "_t" s.name s.typedef

def Enumeration.cName (e : Enumeration) : Except Fault String :=
  CodeBridge.cName "enum " "_e" e.name e.typedef

/-- What the `typedef` of a header adds to a name. -/
def suffixText (suffix : Value) : String :=
  if suffix.truthy then "_" ++ suffix.shown else ""

namespace DataType

def spelling : DataType → Except Fault Spelling
  | missing => .error (missing.lacks "name")
  | primitive p => .ok (.plain p.declaredType)
  | struct s => .plain <$> s.cName
  | enumeration e => .plain <$> e.cName
  | list element bound =>
    match bound with
    | .unset => .error (.lacks Kind.list.label "maximum_length")
    | .unbounded => .error .unboundedList
    | .named constant => do return .around (← element.spelling).text ("[" ++ constant ++ "]")
  | array element length => do return .around (← element.spelling).text ("[" ++ length ++ "]")
  | custom name _ _ => .error (.unspelledType name)
  | set name _ _ => .error (.unspelledType name)
  | map name _ _ => .error (.unspelledType name)
  | other name _ => .error (.unspelledType name)

/-- The element type of a list or an array. -/
def element : DataType → Except Fault DataType
  | list element _ => .ok element
  | array element _ => .ok element
  | t => .error (t.lacks "element_type")

/-- The bound of a list, by the name of its constant. -/
def maximumLength : DataType → Except Fault Value
  | list _ (.named constant) => .ok (.text constant)
  | list _ .unbounded => .ok .nothing
  | t => .error (t.lacks "maximum_length")

/-- The length of an array, by the name of its constant. -/
def length : DataType → Except Fault Value
  | array _ length => .ok (.text length)
  | t => .error (t.lacks "length")

/-- What the `typedef` of a struct or enumeration adds to its name. -/
def typedefSuffix : DataType → Except Fault String
  | struct s => .ok (suffixText s.suffix)
  | enumeration e => .ok (suffixText e.suffix)
  | t => .error (t.lacks "typedef_postfix")

/-- The conversion of a 64-bit integer called `name` to an integer type. -/
def cast (t : DataType) (name : String) : Except Fault String :=
  match t with
  | primitive .int64 => .ok name
  | primitive p =>
    if p.isInteger then .ok ("(" ++ p.castType ++ ") " ++ name) else .error (.unsupportedCast t.shown)
  | custom _ castType isInteger =>
    if isInteger then .ok ("(" ++ castType ++ ") " ++ name) else .error (.unsupportedCast t.shown)
  | _ => .error (t.lacks "is_integer")

/-- The `printf` code of a primitive type. -/
def printfCode : DataType → Except Fault String
  | primitive .int64 => .ok "\"%\" PRIi64"
  | primitive .uint64 => .ok "\"%\" PRIu64"
  | primitive .int32 => .ok "\"%\" PRIi32"
  | primitive .uint32 => .ok "\"%\" PRIu32"
  | primitive .int16 => .ok "\"%\" PRIi16"
  | primitive .uint16 => .ok "\"%\" PRIu16"
  | primitive .int8 => .ok "\"%\" PRIi8"
  | primitive .uint8 => .ok "\"%\" PRIu8"
  | primitive .double => .ok "\"%f\""
  | primitive .float => .ok "\"%f\""
  | t => .error (.unsupportedPrimitive t.shown)

/-- The value that a field of a generated class starts with. -/
def defaultValue : DataType → Value
  | primitive .boolean => .text "False"
  | primitive .float => .float 0
  | primitive .double => .float 0
  | t => if t.isInteger then .int 0 else .nothing

/-- The type hint of a field in a generated class. A class that is not `written` yet stands in quotes. -/
def typeHint (written : List String) : DataType → Except Fault String
  | primitive .boolean => .ok "bool"
  | primitive .float => .ok "float"
  | primitive .double => .ok "float"
  | primitive .string => .ok "str"
  | primitive _ => .ok "int"
  | custom name _ isInteger => if isInteger then .ok "int" else .error (.unsupportedHint name)
  | list element _ => do return "list[" ++ (← element.typeHint written) ++ "]"
  | set _ _ (second :: _) => do return "set[" ++ (← second.typeHint written) ++ "]"
  | set _ _ [] => .error .outOfRange
  | map _ key value => do
    return "dict[" ++ (← key.typeHint written) ++ ", " ++ (← value.typeHint written) ++ "]"
  | missing => .error (missing.lacks "name")
  | struct s => .ok (classReference s.name)
  | enumeration e => .ok (classReference e.name)
  | array element _ => .ok (classReference ("list[" ++ element.label ++ "]"))
  | other name _ => .ok (classReference name)
where
  classReference (name : String) : String := if written.contains name then name else "'" ++ name ++ "'"

end DataType

end CodeBridge
