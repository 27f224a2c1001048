import CodeBridge.Json.Basic

/-! # JSON as text

A document on one line, with a blank behind each comma and colon. Everything beyond ASCII is written by its
code, in two halves beyond the first 65536 codes. -/

namespace CodeBridge.Json

open Text (hexDigits)

def codeText (n : Nat) : List Char :=
  '\\' :: 'u' :: hexDigits 4 n

def stringChar (c : Char) : List Char :=
  match c with
  | '"' => ['\\', '"']
  | '\\' => ['\\', '\\']
  | '\n' => ['\\', 'n']
  | '\r' => ['\\', 'r']
  | '\t' => ['\\', 't']
  | '\x0c' => ['\\', 'f']
  | '\x08' => ['\\', 'b']
  | c =>
    let n := c.toNat
    if 32 ≤ n && n < 127 then [c]
    else if n < 0x10000 then codeText n
    else
      let m := n - 0x10000
      codeText (0xd800 + m / 0x400) ++ codeText (0xdc00 + m % 0x400)

def stringText (s : String) : String :=
  String.ofList ('"' :: s.toList.flatMap stringChar ++ ['"'])

def floatText (x : Float) : String :=
  if x.isNaN then "NaN"
  else match Decimal.Binary.ofFloat? x with
    | some _ => Decimal.floatText x
    | none => if Decimal.isNegative x then "-Infinity" else "Infinity"

mutual

def text : Json → String
  | null => "null"
  | bool b => if b then "true" else "false"
  | int n => Decimal.intText n
  | float x => floatText x
  | string s => stringText s
  | array items => "[" ++ ", ".intercalate (itemTexts items) ++ "]"
  | object members => "\x7b" ++ ", ".intercalate (memberTexts members) ++ "\x7d"

def itemTexts : List Json → List String
  | [] => []
  | item :: rest => item.text :: itemTexts rest

def memberTexts : List (String × Json) → List String
  | [] => []
  | (name, item) :: rest => (stringText name ++ ": " ++ item.text) :: memberTexts rest

end

end CodeBridge.Json
