import CodeBridge.Decimal.Reading
import CodeBridge.Json.Basic

/-! # Members and numbers of documents

What a document must be to be used: an object for its members, a number or the text of one for a double. -/

namespace CodeBridge.Json

/-- The member of an object, `null` if it is missing. -/
def get (name : String) : Json → Except Fault Json
  | object members => .ok ((find? name members).getD null)
  | j => .error (.lacks j.kind "get")

/-- An empty object in place of what counts as nothing. -/
def orEmpty (j : Json) : Json :=
  if j.truthy then j else object []

/-- The members of an object in their order. -/
def entries : Json → Except Fault (List (String × Json))
  | object members => .ok members
  | j => .error (.lacks j.kind "items")

/-- The member of an object that has to be there. -/
def require (name : String) : Json → Except Fault Json
  | object members =>
    match find? name members with
    | some j => .ok j
    | none => .error (.missingKey name)
  | array _ => .error (.indexNotInteger "list")
  | string _ => .error (.indexNotInteger "string")
  | j => .error (.notIndexable j.kind)

def items : Json → List Json
  | array items => items
  | _ => []

def toFloat : Json → Except Fault Float
  | int n =>
    match Decimal.ofInt? n with
    | some x => .ok x
    | none => .error .floatTooSmall
  | float x => .ok x
  | bool b => .ok (if b then 1 else 0)
  | string s =>
    match Decimal.read? s with
    | some x => .ok x
    | none => .error (.notFloat s)
  | j => .error (.kindNotFloat j.kind)

/-- A number with a fixed number of places. -/
def fixed (places : Nat) : Json → Except Fault String
  | string _ => .error (.unknownFormat "str")
  | null => .error (.unformattable "NoneType")
  | array _ => .error (.unformattable "list")
  | object _ => .error (.unformattable "dict")
  | j => do return Decimal.fixed places (← j.toFloat)

/-- A number rounded to so many places; a whole number stays whole. -/
def rounded (places : Int) : Json → Json
  | float x => float (Decimal.roundTo x places)
  | j => j

/-- The difference of two numbers, whole if both are. -/
def minus : Json → Json → Except Fault Json
  | int a, int b => .ok (int (a - b))
  | a, b => do return float ((← a.toFloat) - (← b.toFloat))

/-- A document as it reads in a sentence. -/
def shown (j : Json) : String :=
  j.toValue.shown

end CodeBridge.Json
