import CodeBridge.Macro
import CodeBridge.Schema.Spelling

/-! # Access to attributes

The macro calls by which generated conversions reach the attributes of an object and the elements of a
sequence. The last argument of each is the action that is done with the value. -/

namespace CodeBridge.Access

/-- A name in double quotes. -/
def quote (name : String) : String :=
  "\"" ++ name ++ "\""

/-- Does `action` with an attribute of `owner`, under the name `python_value`. -/
def withAttribute (owner : Macro) (name : String) (action : Macro) : Macro :=
  .call "with_attribute" [owner, .text (quote name), .text "python_value", action]

def int64 (object name action : Macro) : Macro :=
  .call "with_pylong_as_int64" [object, name, action]

def int64Attribute (owner : Macro) (name : String) (action : Macro) : Macro :=
  withAttribute owner name (int64 (.text "python_value") (.text name) action)

def float (object name action : Macro) : Macro :=
  .call "with_pyfloat_as_double" [object, name, action]

def floatAttribute (owner : Macro) (name : String) (action : Macro) : Macro :=
  withAttribute owner name (float (.text "python_value") (.text name) action)

/-- Does `action` with each element of a list. -/
def listElements (object : Macro) (type : DataType) (action : Macro) : Except Fault Macro := do
  let element ← type.element
  let spelling ← element.spelling
  let bound ← type.maximumLength
  return .call "with_list_elements" [object, .value spelling.value, .value bound, action]

def listAttributeElements (owner : Macro) (name : String) (type : DataType) (action : Macro) :
    Except Fault Macro := do
  return withAttribute owner name (← listElements (.text "python_value") type action)

/-- Does `action` with each element of an array. -/
def arrayElements (object : Macro) (type : DataType) (action : Macro) : Except Fault Macro := do
  let element ← type.element
  let spelling ← element.spelling
  let length ← type.length
  return .call "with_array_elements" [object, .value spelling.value, .value length, action]

def arrayAttributeElements (owner : Macro) (name : String) (type : DataType) (action : Macro) :
    Except Fault Macro := do
  return withAttribute owner name (← arrayElements (.text "python_value") type action)

/-- Sets an attribute of the object that is being built. -/
def setAttribute (name value : String) : Macro :=
  .call "set_python_attribute" [.text "result", .text (quote name), .text value]

end CodeBridge.Access
