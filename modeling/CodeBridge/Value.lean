import CodeBridge.Fault

/-! # Values

The values that constants, ordinals and flags of a schema can have, and how they read as text. A text shows
itself at the top and stands in quotes inside a list. -/

namespace CodeBridge

/-- A value of a schema or of generated text. -/
inductive Value where
  | nothing
  | bool (b : Bool)
  | int (n : Int)
  | float (x : Float)
  | text (s : String)
  | list (items : List Value)
  | tuple (items : List Value)
  | dict (entries : List (Value × Value))
  | bytes (bs : List UInt8)
deriving Inhabited

namespace Value

/-- The name of a value's kind. -/
def kind : Value → String
  | nothing => "NoneType"
  | bool _ => "bool"
  | int _ => "int"
  | float _ => "float"
  | text _ => "str"
  | list _ => "list"
  | tuple _ => "tuple"
  | dict _ => "dict"
  | bytes _ => "bytes"

/-- Whether a value counts as a set flag. -/
def truthy : Value → Bool
  | nothing => false
  | bool b => b
  | int n => n != 0
  | float x => x != 0
  | text s => s != ""
  | list items => !items.isEmpty
  | tuple items => !items.isEmpty
  | dict entries => !entries.isEmpty
  | bytes bs => !bs.isEmpty

mutual

/-- A value as it stands inside a list. -/
def quoted : Value → String
  | nothing => "None"
  | bool b => if b then "True" else "False"
  | int n => Decimal.intText n
  | float x => Decimal.floatText x
  | text s => Text.quoted s
  | list items => "[" ++ ", ".intercalate (quotedItems items) ++ "]"
  | tuple [item] => "(" ++ quoted item ++ ",)"
  | tuple items => "(" ++ ", ".intercalate (quotedItems items) ++ ")"
  | dict entries => "\x7b" ++ ", ".intercalate (quotedEntries entries) ++ "\x7d"
  | bytes bs => Text.quotedBytes bs

def quotedItems : List Value → List String
  | [] => []
  | item :: rest => quoted item :: quotedItems rest

def quotedEntries : List (Value × Value) → List String
  | [] => []
  | (key, item) :: rest => (quoted key ++ ": " ++ quoted item) :: quotedEntries rest

end

/-- A value as it stands alone. -/
def shown : Value → String
  | text s => s
  | v => v.quoted

mutual

/-- Whether a whole number in the value has more digits than can be written. -/
def holdsLongInteger : Value → Bool
  | int n => Decimal.tooLong n
  | list items => itemsHoldLongInteger items
  | tuple items => itemsHoldLongInteger items
  | dict entries => entriesHoldLongInteger entries
  | _ => false

def itemsHoldLongInteger : List Value → Bool
  | [] => false
  | item :: rest => holdsLongInteger item || itemsHoldLongInteger rest

def entriesHoldLongInteger : List (Value × Value) → Bool
  | [] => false
  | (key, item) :: rest => holdsLongInteger key || holdsLongInteger item || entriesHoldLongInteger rest

end

/-- The text of a value, refused for a whole number with too many digits. -/
def text? (v : Value) : Except Fault String :=
  if v.holdsLongInteger then .error .integerTooLong else .ok v.shown

/-- The value that follows an ordinal: numbers go up by one, and nothing else can be counted on. -/
def next : Value → Except Fault Value
  | int n => .ok (int (n + 1))
  | bool b => .ok (int (if b then 2 else 1))
  | float x => .ok (float (x + 1))
  | text _ => .error (.concatenates "str")
  | tuple _ => .error (.concatenates "tuple")
  | bytes _ => .error .bytesConcatenate
  | list _ => .error .intNotIterable
  | v => .error (.cannotAdd v.kind)

end Value

end CodeBridge
