/-! # Primitive types

The thirteen types that need no declaration. -/

namespace CodeBridge

inductive Primitive where
  | boolean | integer
  | int8 | uint8 | int16 | uint16 | int32 | uint32 | int64 | uint64
  | float | double | string
deriving DecidableEq, Repr

namespace Primitive

def all : List Primitive :=
  [boolean, integer, int8, uint8, int16, uint16, int32, uint32, int64, uint64, float, double, string]

def name : Primitive → String
  | boolean => "Boolean"
  | integer => "Integer"
  | int8 => "Int8"
  | uint8 => "UInt8"
  | int16 => "Int16"
  | uint16 => "UInt16"
  | int32 => "Int32"
  | uint32 => "UInt32"
  | int64 => "Int64"
  | uint64 => "UInt64"
  | float => "Float"
  | double => "Double"
  | string => "String"

def ofName? (s : String) : Option Primitive :=
  all.find? (·.name == s)

/-- The C type that a value is cast to. -/
def castType : Primitive → String
  | boolean => "bool"
  | integer => "int"
  | int8 => "int8_t"
  | uint8 => "uint8_t"
  | int16 => "int16_t"
  | uint16 => "uint16_t"
  | int32 => "int32_t"
  | uint32 => "uint32_t"
  | int64 => "int64_t"
  | uint64 => "uint64_t"
  | float => "float"
  | double => "double"
  | string => "const char *"

/-- The C type that a member is declared with. -/
def declaredType : Primitive → String
  | integer => "int64_t"
  | p => p.castType

def isInteger : Primitive → Bool
  | integer | int8 | uint8 | int16 | uint16 | int32 | uint32 | int64 | uint64 => true
  | _ => false

end Primitive

end CodeBridge
