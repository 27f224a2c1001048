import CodeBridge.Emit.Sources
import CodeBridge.Emit.Style
import CodeBridge.Schema.Spelling

/-! # Printers

For each enumeration and struct a C function that prints it through an output handler. -/

namespace CodeBridge.Emit.Printers

open Writing Sourcing

/-- The characters that a C string literal cannot hold as they are, with what stands for them. -/
def escapes : List (Char × String) :=
  [('"', "\\\""), ('\\', "\\\\"), ('\n', "\\n"), ('\r', "\\r"), ('\t', "\\t"), ('\x0c', "\\f"), ('\x08', "\\b"),
    ('\x07', "\\a"), ('\x0b', "\\v")]

def escape (text : String) : String :=
  String.join (text.toList.map fun c => (escapes.lookup c).getD (String.singleton c))

/-- A text as a string literal, for code beside the printers. -/
def quote (text : String) : String :=
  "\"" ++ escape text ++ "\""

/-- Prints a text as it is. -/
def process (text : String) : Writing Unit :=
  line ("OutputHandler_process(out, \"" ++ text ++ "\");")

/-- Prints the indentation of the printed text, `depth` levels deeper than the caller's. -/
def printIndentation (depth : String) : Writing Unit :=
  line ("OutputHandler_indent(out, indentation" ++ depth ++ ");")

def valueCase (value : String) : Writing Unit := do
  line ("case " ++ value ++ ":")
  indent
  line ("OutputHandler_process(out, \"%s\", \"" ++ value ++ "\");")
  line "break;"
  unindent

def switchBody (e : Enumeration) : Writing Unit := do
  Writing.each e.values valueCase
  line "default:"
  indent
  line ("OutputHandler_process(out, \"Unknown %s value: %d\", \"" ++ e.name ++ "\", value);")
  unindent

def enumeration (style : Style) (e : Enumeration) : Sourcing Unit := do
  let name ← check e.cName
  let signature := "void " ++ name ++ "_to_string(" ++ name ++ " value, struct OutputHandler *out)"
  inHeader (line (signature ++ ";"))
  inCode do
    style.before signature
    block do
      style.before "switch (value)"
      block (switchBody e)
    line ""

/-- Prints one element of an array; only structs have a printer to call. -/
def element (field : String) (type : DataType) : Writing Unit := do
  printIndentation " + 2"
  match type with
  | .struct s =>
    line ((← Writing.check s.cName) ++ "_to_string(value." ++ field ++ "[index], out, indentation + 2);")
  | _ => pure ()
  process ",\\n"

def fieldValue (style : Style) (f : Field) : Writing Unit :=
  match f.type with
  | .struct s => do
    line ((← Writing.check s.cName) ++ "_to_string(value." ++ f.name ++ ", out, indentation + 1);")
  | .enumeration e => do
    line ((← Writing.check e.cName) ++ "_to_string(value." ++ f.name ++ ", out);")
  | .array type length => do
    process "[\\n"
    style.before ("for (size_t index = 0; index < " ++ length ++ "; ++index)")
    block (element f.name type)
    printIndentation " + 1"
    process "]"
  | .primitive p => do
    line ("OutputHandler_process(out, " ++ (← Writing.check (DataType.primitive p).printfCode) ++
      ", value." ++ f.name ++ ");")
  | .custom name castType isInteger => do
    line ("OutputHandler_process(out, " ++
      (← Writing.check (DataType.custom name castType isInteger).printfCode) ++ ", value." ++ f.name ++ ");")
  | t => throw (.unprintableType t.shown)

def field (style : Style) (f : Field) : Writing Unit := do
  printIndentation " + 1"
  line ("OutputHandler_process(out, \"%s: \", \"" ++ f.name ++ "\");")
  fieldValue style f
  process ",\\n"

def struct (style : Style) (s : Struct) : Sourcing Unit := do
  let name ← check s.cName
  let signature :=
    "void " ++ name ++ "_to_string(" ++ name ++ " value, struct OutputHandler *out, size_t indentation)"
  inHeader (line (signature ++ ";"))
  inCode do
    style.before signature
    block do
      process (s.name ++ " \x7b\\n")
      Writing.each s.fields (field style)
      printIndentation ""
      process "\x7d"
    line ""

/-- Writes the printers of a module. -/
def run (style : Style) (m : Module) : Sourcing Unit := do
  Sourcing.each m.enumerations (enumeration style)
  Sourcing.each m.structs (struct style)

end CodeBridge.Emit.Printers
