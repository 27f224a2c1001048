import CodeBridge.Emit.Style
import CodeBridge.Schema.Spelling
import CodeBridge.Text.Escape

/-! # The C header

Constants become macros, enumerations and structs become C types. A list has a second member for its length. -/

namespace CodeBridge.Emit.Header

open Writing

/-- The value of a constant as C text. -/
def literal : Value → Except Fault String
  | .text s => .ok (Text.Escape.quote s)
  | v => v.text?

def constant (c : Constant) : Writing Unit := do
  line ("#define " ++ c.name ++ " " ++ (← check (literal c.value)))
  line ""

/-- The values of an enumeration with their ordinals, with commas between them. -/
def ordinals (first : Bool) (ordinal : Value) : List String → Writing Unit
  | [] => pure ()
  | value :: rest => do
    if !first then line ","
    write (value ++ " = " ++ (← check ordinal.text?))
    ordinals false (← check ordinal.next) rest

def enumerationBody (e : Enumeration) : Writing Unit := do
  ordinals true e.first e.values
  line ""

/-- What stands behind the brace that closes a definition. -/
def ending (name : String) (typedef suffix : Value) : Except Fault String :=
  if typedef.truthy then do return " " ++ (← Name.snake name) ++ suffixText suffix ++ ";" else .ok ";"

/-- What stands before the brace that opens a definition. -/
def opening (keyword name : String) (typedef : Value) : Except Fault String :=
  if typedef.truthy then .ok ("typedef " ++ keyword) else do return keyword ++ " " ++ (← Name.snake name)

def enumeration (style : Style) (e : Enumeration) : Writing Unit := do
  style.before (← check (opening "enum" e.name e.typedef))
  block (enumerationBody e) (← check (ending e.name e.typedef e.suffix))
  line ""

def isList : DataType → Bool
  | .list .. => true
  | _ => false

def member (struct : String) (f : Field) : Writing Unit := do
  let spelling ← check f.type.spelling
  write (spelling.declare f.name)
  comment struct f.name f.comment fun l => " /* " ++ l ++ " */"
  if isList f.type then line ("size_t " ++ f.name ++ "_length;")

def struct (style : Style) (s : Struct) : Writing Unit := do
  style.before (← check (opening "struct" s.name s.typedef))
  block (each s.fields (member s.name)) (← check (ending s.name s.typedef s.suffix))
  line ""

/-- Writes the header of a module. -/
def run (style : Style) (m : Module) : Writing Unit := do
  each m.constants constant
  each m.enumerations (enumeration style)
  each m.structs (struct style)

end CodeBridge.Emit.Header
