import CodeBridge.Schema.Primitive
import CodeBridge.Value

/-! # The schema

A module holds constants, structs and enumerations. The type of a field is a primitive, a declared struct or
enumeration, or built from other types. The constructors that can refuse (`Constant.ofValue`,
`DataType.listOf`, `Module.ofItems` and so on) are the only ones that a schema is made with. -/

namespace CodeBridge

/-- A named value. -/
structure Constant where
  name : String
  value : Value

structure Enumeration where
  name : String
  values : List String
  /-- The ordinal of the first value. -/
  first : Value
  /-- Whether the header defines it by a `typedef`. -/
  typedef : Value
  /-- What the `typedef` adds to the name. -/
  suffix : Value

/-- A field whose type is of sort `τ`. -/
structure FieldOf (τ : Type) where
  name : String
  type : τ
  comment : Option String

/-- A struct whose fields have types of sort `τ`. -/
structure StructOf (τ : Type) where
  name : String
  fields : List (FieldOf τ)
  typedef : Value
  suffix : Value

/-- How long a list may grow. -/
inductive Bound where
  /-- Nothing was said about the length. -/
  | unset
  | unbounded
  /-- At most the value of this constant. -/
  | named (constant : String)
deriving DecidableEq, Repr

inductive DataType where
  /-- No type was given. -/
  | missing
  | primitive (p : Primitive)
  /-- A primitive that the schema brings along. -/
  | custom (name castType : String) (isInteger : Bool)
  | struct (s : StructOf DataType)
  | enumeration (e : Enumeration)
  | list (element : DataType) (bound : Bound)
  /-- As many elements as the value of the constant `length`. -/
  | array (element : DataType) (length : String)
  | set (name : String) (element : DataType) (extra : List DataType)
  | map (name : String) (key value : DataType)
  /-- A type known by its name and arguments only. -/
  | other (name : String) (arguments : List DataType)

abbrev Field := FieldOf DataType

abbrev Struct := StructOf DataType

namespace DataType

def kind : DataType → Kind
  | missing => .nothing
  | primitive _ | custom .. => .primitive
  | struct _ => .struct
  | enumeration _ => .enumeration
  | list .. => .list
  | array .. => .array
  | set .. => .set
  | map .. => .map
  | other .. => .type

/-- The name of a type; a missing type has an empty one. -/
def label : DataType → String
  | missing => ""
  | primitive p => p.name
  | custom name _ _ => name
  | struct s => s.name
  | enumeration e => e.name
  | list element _ => "list[" ++ element.label ++ "]"
  | array element _ => "list[" ++ element.label ++ "]"
  | set name _ _ => name
  | map name _ _ => name
  | other name _ => name

/-- The complaint that a type has no such property. -/
def lacks (t : DataType) (property : String) : Fault :=
  .lacks t.kind.label property

/-- The name of a type, which a missing type does not have. -/
def name : DataType → Except Fault String
  | missing => .error (missing.lacks "name")
  | t => .ok t.label

/-- The types that a type is built from. -/
def arguments : DataType → List DataType
  | list element _ => [element]
  | array element _ => [element]
  | set _ element extra => element :: extra
  | map _ key value => [key, value]
  | other _ arguments => arguments
  | _ => []

/-- Whether a type is a primitive that holds integers. -/
def isInteger : DataType → Bool
  | primitive p => p.isInteger
  | custom _ _ isInteger => isInteger
  | _ => false

/-- A type as messages show it. -/
def shown : DataType → String
  | missing => "None"
  | primitive p => "PrimitiveType." ++ p.name
  | custom name _ _ => "PrimitiveType." ++ name
  | t => "<" ++ t.kind.path ++ " object at 0x>"

end DataType

namespace Constant

/-- The type of a constant with this value. -/
def typeOf? : Value → Option Primitive
  | .int _ => some .integer
  | .bool _ => some .boolean
  | .float _ => some .double
  | .text _ => some .string
  | _ => none

def ofValue (name : String) (value : Value) : Except Fault Constant :=
  match typeOf? value with
  | some _ => .ok ⟨name, value⟩
  | none => .error (.unsupportedConstant value.kind)

/-- The type of a constant; the values that `ofValue` refuses count as texts. -/
def type (c : Constant) : Primitive :=
  (typeOf? c.value).getD .string

/-- The name of a constant that gives a length. -/
def lengthName (c : Constant) : Except Fault String :=
  if c.type = .integer then .ok c.name
  else .error (.lengthNotInteger (DataType.primitive c.type).shown)

end Constant

namespace StructOf

def make (name : String) (fields : List Field) (typedef suffix : Value) : Except Fault Struct :=
  if fields.isEmpty then .error .noFields else .ok ⟨name, fields, typedef, suffix⟩

end StructOf

namespace Enumeration

def make (name : String) (values : List String) (first typedef suffix : Value) : Except Fault Enumeration :=
  if values.isEmpty then .error .noValues else .ok ⟨name, values, first, typedef, suffix⟩

end Enumeration

namespace DataType

/-- A list type; without a `maximum` nothing is said about its length. -/
def listOf (element : DataType) (maximum : Option Constant) : Except Fault DataType := do
  let _ ← element.name
  match maximum with
  | none => return list element .unset
  | some c => return list element (.named (← c.lengthName))

/-- A list type that may grow without bound. A `maximum` that is given has to be one, and is then lifted. -/
def unboundedListOf (element : DataType) (maximum : Option Constant) : Except Fault DataType := do
  let _ ← listOf element maximum
  return list element .unbounded

/-- An array type; its length has to be given. -/
def arrayOf (element : DataType) (length : Option Constant) : Except Fault DataType := do
  let _ ← element.name
  match length with
  | none => throw (missing.lacks "type")
  | some c => return array element (← c.lengthName)

def setOf (name : String) (element : DataType) (extra : List DataType) : Except Fault DataType := do
  let _ ← element.name
  return set name element extra

/-- Maps cannot be declared. -/
def mapOf (_name : String) (_key _value : DataType) : Except Fault DataType :=
  .error (.undefinedName "element_type")

end DataType

/-- What a schema consists of. The order of each sort of item is the order of declaration. -/
structure Module where
  name : String
  constants : List Constant := []
  structs : List Struct := []
  enumerations : List Enumeration := []

/-- Anything that can be offered to a module. -/
inductive Item where
  | constant (c : Constant)
  | type (t : DataType)
  | field (f : Field)
  | module (m : Module)

def Item.kind : Item → Kind
  | constant _ => .constant
  | type t => t.kind
  | field _ => .field
  | module _ => .module

namespace Module

def add (m : Module) : Item → Except Fault Module
  | .constant c => .ok ⟨m.name, m.constants ++ [c], m.structs, m.enumerations⟩
  | .type (.struct s) => .ok ⟨m.name, m.constants, m.structs ++ [s], m.enumerations⟩
  | .type (.enumeration e) => .ok ⟨m.name, m.constants, m.structs, m.enumerations ++ [e]⟩
  | item => .error (.foreignItem item.kind m.name)

def addAll (m : Module) : List Item → Except Fault Module
  | [] => .ok m
  | item :: rest => do (← m.add item).addAll rest

/-- The module with these items, each of which has to be a constant, a struct or an enumeration. -/
def ofItems (name : String) (items : List Item) : Except Fault Module :=
  addAll ⟨name, [], [], []⟩ items

end Module

end CodeBridge
