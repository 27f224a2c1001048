import CodeBridge.Header.Classes
import CodeBridge.Header.Reader
import CodeBridge.Initializer.Evaluation
import CodeBridge.Template
import CodeBridge.Workload.Basic
import CodeBridge.Workload.Schemas

/-! # Workloads of headers and templates -/

namespace CodeBridge.Workload

open Working (check)

/-! ### Reading -/

/-- Five constants, one of each sort of value and comment. -/
def macroLines : List String :=
  ["#define LIMIT 8", "#define RATIO 2.5 // of both sides", "#define TITLE \"records\" /* shown on top */",
    "#define MASK 0x0f", "#define BARE 1"]

def enumerationLines (i : Nat) : List String :=
  [numbered "enum mode" i ++ " \x7b", numbered "    MODE" i ++ "_OFF,", numbered "    MODE" i ++ "_ON = 4, /* on */",
    numbered "    MODE" i ++ "_AUTO // by itself", "\x7d;"]

def structLines (i : Nat) : List String :=
  [numbered "struct record" i ++ " \x7b", "    int32_t count; // so many", "    double ratio; /* of them */",
    "    char *title;", "\x7d;"]

/-- A header with so many enumerations and structs. -/
def headerOf (size : Int) : String :=
  String.join ((macroLines ++ (indices size).flatMap enumerationLines ++ (indices size).flatMap structLines).map (· ++ "\n"))

/-- How many constants, enumerations and structs a header has, the length of a class of texts, and the types of
some members. -/
def readings (size : Int) : Working Sample := do
  match Header.read (.ofText Initializer.evaluate) (headerOf size).toList {} with
  | none => throw .outOfRange
  | some (.error fault, _) => throw fault
  | some (.ok _, d) =>
    let fields := (List.range 6).map (numbered "field_")
    let (notes, text) ← check (classText fields)
    notes.forM Working.print
    let types := ["bool", "int", "float", "double", "char*", "struct record"].map fun t =>
      Sample.text (Header.typeHint (some t))
    return .list [.int d.constants.length, .int d.enumerations.length, .int d.structs.length, lengthOf text, .list types]
where
  classText (fields : List String) : Except Fault (List String × String) :=
    match Header.textClass "Row" fields Writer.bare with
    | .ok notes w => .ok (notes, w.text)
    | .error fault _ => .error fault

/-! ### Templates -/

def includes (system own : List String) : String :=
  String.join (system.map fun h => "#include <" ++ h ++ ">\n") ++ "\n" ++
    String.join (own.map fun h => "#include \"" ++ h ++ "\"\n") ++ "\n"

def marker : String := "@_code;\n"

/-- The files of the module that have templates, in the order in which they are written. -/
def templates : List (String × String) :=
  [("python_tpl_protocol.py", "from dataclasses import dataclass\n\n" ++ marker),
    ("tpl_protocol.h", "#pragma once\n\n" ++ marker),
    ("tpl_conversion.h", "#pragma once\n\n" ++ marker),
    ("tpl_conversion.c", "/* Conversions between classes and structs. Generated: change the schemas instead. */\n" ++
      includes ["Python.h", "stdbool.h", "stdint.h", "stdlib.h", "string.h", "stdio.h"]
        ["tpl_protocol.h", "tpl_conversion.h", "tpl_to_string.h"] ++ marker),
    ("tpl_to_string.h", "#pragma once\n\n" ++ marker),
    ("tpl_to_string.c", "/* Printers of the structs. Generated, so change the schemas. */\n" ++
      includes ["inttypes.h", "stdio.h"] ["tpl_protocol.h", "tpl_to_string.h"] ++ marker)]

/-- Where the templates lie. -/
def templateDirectory : String := "TMP"

def templateFolder : Folder :=
  ⟨(("extra.txt", "[ " ++ marker ++ "]\n") :: templates).map fun (name, text) =>
    ([templateDirectory, name ++ ".template"], .file text), []⟩

/-- A module whose last struct has so many fields more. -/
def templateModule (size : Int) : Module :=
  let mode : Enumeration := ⟨"Mode", ["MODE_OFF", "MODE_ON", "MODE_AUTO"], .int 1, .bool true, .text "e"⟩
  let more := (indices size).map fun i => field (numbered "f" i) (.primitive .int8)
  let row : Struct := ⟨"TemplateRow",
    [field "mode" (.enumeration mode), field "center" (.struct (point "InnerPoint"))] ++ more, .bool true, .text "t"⟩
  ⟨"tpl", [⟨"LIMIT", .int 8⟩], [point "InnerPoint", row], [mode]⟩

def fileLength (name : String) : Working Sample :=
  return lengthOf (← Working.read (Folder.join templateDirectory name))

/-- The lengths of all files that the templates of a module give. -/
def fillings (size : Int) : Working Sample :=
  apart templateFolder do
    Template.greeting
    Template.write "extra" "txt" "a row of the big table" templateDirectory
    Template.writeModule (templateModule size) templateDirectory Template.defaultPackage .knr
    return .list ((← templates.mapM fun (name, _) => fileLength name) ++ [← fileLength "extra.txt"])

end CodeBridge.Workload
