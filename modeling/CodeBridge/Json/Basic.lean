import CodeBridge.Value

/-! # JSON documents

Members of an object keep their order. A whole number stays whole, and `1.0` stays a double. -/

namespace CodeBridge

inductive Json where
  | null
  | bool (b : Bool)
  | int (n : Int)
  | float (x : Float)
  | string (s : String)
  | array (items : List Json)
  | object (members : List (String × Json))
deriving Inhabited

namespace Json

/-- The name of the kind of value that a document stands for. -/
def kind : Json → String
  | null => "NoneType"
  | bool _ => "bool"
  | int _ => "int"
  | float _ => "float"
  | string _ => "str"
  | array _ => "list"
  | object _ => "dict"

/-- The member with a name. -/
def find? (name : String) : List (String × Json) → Option Json
  | [] => none
  | (key, v) :: rest => if key == name then some v else find? name rest

/-- The members with one of them set: it keeps its place, or comes last if it is new. -/
def setMember (name : String) (v : Json) : List (String × Json) → List (String × Json)
  | [] => [(name, v)]
  | (key, old) :: rest => if key == name then (key, v) :: rest else (key, old) :: setMember name v rest

/-- The member of an object; nothing else has members. -/
def member? (name : String) : Json → Option Json
  | object members => find? name members
  | _ => none

mutual

def toValue : Json → Value
  | null => .nothing
  | bool b => .bool b
  | int n => .int n
  | float x => .float x
  | string s => .text s
  | array items => .list (toValues items)
  | object members => .dict (toEntries members)

def toValues : List Json → List Value
  | [] => []
  | item :: rest => toValue item :: toValues rest

def toEntries : List (String × Json) → List (Value × Value)
  | [] => []
  | (name, item) :: rest => (.text name, toValue item) :: toEntries rest

end

/-- Whether a document counts as a set flag. -/
def truthy : Json → Bool
  | null => false
  | bool b => b
  | int n => n != 0
  | float x => x != 0
  | string s => s != ""
  | array items => !items.isEmpty
  | object members => !members.isEmpty

end Json

end CodeBridge
