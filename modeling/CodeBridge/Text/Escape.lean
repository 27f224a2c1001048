/-! # C string literals

The characters that a C string literal cannot hold as they are stand behind a backslash. -/

namespace CodeBridge.Text.Escape

/-- The letter behind the backslash, for a character that needs one. -/
def mark? (c : Char) : Option Char :=
  match c with
  | '"' => some '"'
  | '\\' => some '\\'
  | '\n' => some 'n'
  | '\r' => some 'r'
  | '\t' => some 't'
  | '\x0c' => some 'f'
  | '\x08' => some 'b'
  | '\x07' => some 'a'
  | '\x0b' => some 'v'
  | _ => none

def encodeChar (c : Char) : List Char :=
  match mark? c with
  | some m => ['\\', m]
  | none => [c]

def encode (cs : List Char) : List Char :=
  cs.flatMap encodeChar

/-- The inside of a string literal. -/
def escape (s : String) : String :=
  String.ofList (encode s.toList)

/-- A string literal. -/
def quote (s : String) : String :=
  "\"" ++ escape s ++ "\""

end CodeBridge.Text.Escape
