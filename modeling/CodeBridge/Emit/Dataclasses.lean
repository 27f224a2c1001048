import CodeBridge.Emit.Style
import CodeBridge.Schema.Spelling

/-! # Python classes

Enumerations become `Enum` classes and structs become data classes. A field whose class has not been written
yet refers to it by a quoted name. -/

namespace CodeBridge.Emit.Dataclasses

open Writing

/-- The values of an enumeration with their ordinals, one on a line. -/
def ordinals (ordinal : Value) : List String → Writing Unit
  | [] => pure ()
  | value :: rest => do
    line (value ++ " = " ++ (← check ordinal.text?))
    ordinals (← check ordinal.next) rest

def enumeration (e : Enumeration) : Writing Unit := do
  write ("class " ++ e.name ++ "(Enum):")
  block (ordinals e.first e.values)
  line ""

def member (written : List String) (struct : String) (f : Field) : Writing Unit := do
  let typeHint ← check (f.type.typeHint written)
  write (f.name ++ ": " ++ typeHint ++ " = " ++ f.type.defaultValue.shown)
  comment struct f.name f.comment fun l => " # " ++ l

def struct (written : List String) (s : Struct) : Writing Unit := do
  line "@dataclass"
  write ("class " ++ s.name ++ ":")
  block (each s.fields (member written s.name))
  line ""

/-- The classes being written, and the names of those that are complete. -/
structure State where
  writer : Writer := Writer.bare
  written : List String := []

/-- Writes with the names of the complete classes at hand. -/
def writing {α : Type} (f : List String → Writing α) : EStateM Fault State α := fun s =>
  match f s.written s.writer with
  | .ok a w => .ok a ⟨w, s.written⟩
  | .error fault w => .error fault ⟨w, s.written⟩

/-- Notes that a class is complete. -/
def complete (name : String) : EStateM Fault State Unit :=
  modify fun s => ⟨s.writer, s.written ++ [name]⟩

def runEnumerations : List Enumeration → EStateM Fault State Unit
  | [] => pure ()
  | e :: rest => do
    writing fun _ => enumeration e
    complete e.name
    runEnumerations rest

def runStructs : List Struct → EStateM Fault State Unit
  | [] => pure ()
  | s :: rest => do
    writing fun written => struct written s
    complete s.name
    runStructs rest

/-- Writes the classes of a module. -/
def run (m : Module) : EStateM Fault State Unit := do
  runEnumerations m.enumerations
  runStructs m.structs

end CodeBridge.Emit.Dataclasses
