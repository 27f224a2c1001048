import CodeBridge.Writer

/-! # Macro calls

A call of a support macro, with plain values and further calls as arguments. Each argument stands on a line
of its own, one level deeper than the call. -/

namespace CodeBridge

/-- A macro call, or a plain value as an argument of one. -/
inductive Macro where
  | value (v : Value)
  | call (name : String) (arguments : List Macro)

namespace Macro

def text (s : String) : Macro := .value (.text s)

open Writing in
mutual

/-- Writes a call and goes back to the level it was written at. -/
def write : Macro → Writing Unit
  | .value v => writeValues [v]
  | .call name arguments => do
    let outer ← level
    line (name ++ "(")
    indent
    writeArguments true arguments
    Writing.write ")"
    setLevel (.int outer)

/-- Writes arguments with commas between them. -/
def writeArguments (first : Bool) : List Macro → Writing Unit
  | [] => pure ()
  | argument :: rest => do
    if !first then line ","
    write argument
    writeArguments false rest

end

/-- Writes a call as a statement. -/
def writeStatement (m : Macro) : Writing Unit := do
  m.write
  Writing.line ";"

end Macro

end CodeBridge
