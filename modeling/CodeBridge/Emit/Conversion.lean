import CodeBridge.Access
import CodeBridge.Emit.Sources

/-! # Conversions

For each enumeration and struct a C function that makes it from a Python object and one that makes a Python
object from it. -/

namespace CodeBridge.Emit.Conversion

open Writing Sourcing

/-- The line that loads the class called `name` of the module at `path`. -/
def loadClass (holder path name : String) : Writing Unit := do
  write ("if (" ++ holder ++ " == NULL) ")
  block (line (holder ++ " = load_class(\"" ++ path ++ "\", \"" ++ name ++ "\");"))

/-- One case of the switch over the values of an enumeration. -/
def valueCase (value : String) : Writing Unit := do
  line ("    case " ++ value ++ ":")
  line ("        return " ++ value ++ ";")

def enumerationToCBody (e : Enumeration) : Writing Unit := do
  line "int ordinal;"
  (Access.int64Attribute (.text "python_enum") "value" (.text "ordinal = (int) value")).writeStatement
  line "switch (ordinal) \x7b"
  Writing.each e.values valueCase
  line "    default:"
  line ("        fail_with_message(\"Illegal ordinal value for enum " ++ e.name ++ " [%d]\", ordinal);")
  line "\x7d"

def enumerationToC (e : Enumeration) : Sourcing Unit := do
  let signature := (← check e.cName) ++ " " ++ e.name ++ "_to_c(PyObject *python_enum)"
  inHeader (line (signature ++ ";"))
  inCode do
    write (signature ++ " ")
    block (enumerationToCBody e)
    line ""

def enumerationToPythonBody (path : String) (e : Enumeration) : Writing Unit := do
  line "static PyObject *enum_class = NULL;"
  loadClass "enum_class" path e.name
  line "PyObject *result = PyObject_CallFunction(enum_class, \"i\", value);"
  write "if (result == NULL) "
  block (line ("fail_with_message(\"Unable to convert ordinal value [%d] to enum " ++ e.name ++
    ": \", value);"))
  line "return result;"

def enumerationToPython (path : String) (e : Enumeration) : Sourcing Unit := do
  let signature := "PyObject * " ++ e.name ++ "_to_python(" ++ (← check e.cName) ++ " value)"
  inHeader (line (signature ++ ";"))
  inCode do
    write (signature ++ " ")
    block (enumerationToPythonBody path e)
    line ""

/-- The assignment of an element of a sequence. -/
def elementAssignment (target : String) (element : DataType) : Except Fault String :=
  match element with
  | .struct s => .ok (target ++ " = " ++ s.name ++ "_to_c(item_value)")
  | .enumeration e => .ok (target ++ " = " ++ e.name ++ "_to_c(item_value)")
  | .primitive .float => .ok (target ++ " = item_value")
  | .primitive .double => .ok (target ++ " = item_value")
  | .list .. => .error .nestedSequence
  | .array .. => .error .nestedSequence
  | t =>
    if t.isInteger then do return target ++ " = " ++ (← t.cast "item_value")
    else do throw (.unsupportedElement (← t.name))

/-- The statement that fills a field from the attribute of the same name. -/
def assignment (struct : String) (f : Field) : Except Fault Macro :=
  let owner := Macro.text "python_struct"
  let target := "result." ++ f.name
  match f.type with
  | .struct s => .ok (Access.withAttribute owner f.name
      (.text (target ++ " = " ++ s.name ++ "_to_c(python_value)")))
  | .enumeration e => .ok (Access.withAttribute owner f.name
      (.text (target ++ " = " ++ e.name ++ "_to_c(python_value)")))
  | .primitive .float => .ok (Access.floatAttribute owner f.name (.text (target ++ " = (float) " ++ f.name)))
  | .primitive .double => .ok (Access.floatAttribute owner f.name (.text (target ++ " = " ++ f.name)))
  | .list element bound => do
    let action ← elementAssignment (target ++ "[item_index]") element
    Access.listAttributeElements owner f.name (.list element bound) (.text action)
  | .array element length => do
    let action ← elementAssignment (target ++ "[item_index]") element
    Access.arrayAttributeElements owner f.name (.array element length) (.text action)
  | t =>
    if t.isInteger then do
      return Access.int64Attribute owner f.name (.text (target ++ " = " ++ (← t.cast f.name)))
    else do throw (.unsupportedField (← t.name) struct f.name)

def structToCBody (s : Struct) : Writing Unit := do
  line ((← Writing.check s.cName) ++ " result = \x7b0\x7d;")
  Writing.each s.fields fun f => do
    (← Writing.check (assignment s.name f)).writeStatement
  line "return result;"

def structToC (s : Struct) : Sourcing Unit := do
  let signature := (← check s.cName) ++ " " ++ s.name ++ "_to_c(PyObject *python_struct)"
  inHeader (line (signature ++ ";"))
  inCode do
    write (signature ++ " ")
    block (structToCBody s)
    line ""

/-- The statement that sets the attribute of a field's name. -/
def attributeSetting (struct : String) (f : Field) : Except Fault Macro :=
  let source := Macro.text ("c_struct." ++ f.name)
  let through (macroName : String) : Macro :=
    .call macroName [source, .text "value", Access.setAttribute f.name "value"]
  let sequence (arguments : List Macro) : Macro :=
    .call "with_array_as_pylist" (source :: arguments ++ [Access.setAttribute f.name "pylist"])
  match f.type with
  | .struct s => .ok (Access.setAttribute f.name (s.name ++ "_to_python(c_struct." ++ f.name ++ ")"))
  | .enumeration e => .ok (Access.setAttribute f.name (e.name ++ "_to_python(c_struct." ++ f.name ++ ")"))
  | .primitive .boolean => .ok (through "with_pybool")
  | .primitive .float => .ok (through "with_double_as_pyfloat")
  | .primitive .double => .ok (through "with_double_as_pyfloat")
  | .primitive .string => .ok (through "with_string_as_pystring")
  | .list element _ => do return sequence [.text ((← element.name) ++ "_to_python")]
  | .array element length => do return sequence [.text length, .text ((← element.name) ++ "_to_python")]
  | t =>
    if t.isInteger then .ok (through "with_int64_as_pylong")
    else do throw (.unsupportedField (← t.name) struct f.name)

def structToPythonBody (path : String) (s : Struct) : Writing Unit := do
  line "static PyObject *struct_class = NULL;"
  loadClass "struct_class" path s.name
  line "PyObject *result = PyObject_CallFunction(struct_class, \"\");"
  write "if (result == NULL) "
  block (line ("fail_with_message(\"Unable to instantiate struct " ++ s.name ++ "\");"))
  Writing.each s.fields fun f => do
    (← Writing.check (attributeSetting s.name f)).writeStatement
  line "return result;"

def structToPython (path : String) (s : Struct) : Sourcing Unit := do
  let signature := "PyObject * " ++ s.name ++ "_to_python(" ++ (← check s.cName) ++ " c_struct)"
  inHeader (line (signature ++ ";"))
  inCode do
    write (signature ++ " ")
    block (structToPythonBody path s)
    line ""

/-- Where the classes of a module are found. -/
def classPath (package : String) (m : Module) : String :=
  package ++ "python_" ++ m.name ++ "_protocol"

/-- Writes the conversions of a module whose classes lie in `package`. -/
def run (package : String) (m : Module) : Sourcing Unit := do
  let path := classPath package m
  Sourcing.each m.enumerations fun e => do
    enumerationToC e
    enumerationToPython path e
  Sourcing.each m.structs fun s => do
    structToC s
    structToPython path s

end CodeBridge.Emit.Conversion
