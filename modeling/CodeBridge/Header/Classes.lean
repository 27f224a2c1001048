import CodeBridge.Header.Definitions
import CodeBridge.Writer

/-! # Classes for a header

The definitions of a header as Python text: constants as assignments, enumerations as `IntEnum` classes,
structs as data classes. -/

namespace CodeBridge.Header

open Writing

/-- The type hint of a member with a C type. -/
def typeHint (type : Option String) : String :=
  match type with
  | some "bool" => "bool"
  | some "char" => "int"
  | some "unsigned char" => "int"
  | some "short" => "int"
  | some "unsigned short" => "int"
  | some "int" => "int"
  | some "unsigned int" => "int"
  | some "long" => "int"
  | some "unsigned long" => "int"
  | some "float" => "float"
  | some "double" => "float"
  | some "char*" => "str"
  | some "void*" => "Any"
  | _ => "Any"

/-- Writes a comment on a line of its own, if there is one. -/
def commentLine (comment : Option String) : Writing Unit :=
  match comment with
  | some text => if text == "" then pure () else line ("# " ++ text)
  | none => pure ()

def assignment (e : Entry) : Writing Unit := do
  commentLine e.comment
  line (e.name ++ " = " ++ e.content.getD "None")

def constantLines (e : Entry) : Writing Unit := do
  assignment e
  line ""

def enumerationClass (g : Group) : Writing Unit := do
  commentLine g.comment
  write ("class " ++ g.name ++ "(IntEnum):")
  block (each g.members assignment)
  line ""

def fieldLines (e : Entry) : Writing Unit := do
  commentLine e.comment
  line (e.name ++ ": " ++ typeHint e.content)

def structClass (g : Group) : Writing Unit := do
  commentLine g.comment
  line "@dataclass"
  write ("class " ++ g.name ++ ":")
  block (each g.members fieldLines)
  line ""

/-- Writes the classes of a header behind their imports. -/
def classes (d : Definitions) : Writing Unit := do
  line "from dataclasses import dataclass"
  line "from typing import Dict, List, Union, Optional"
  line "from enum import IntEnum"
  line ""
  each d.constants constantLines
  each d.enumerations enumerationClass
  each d.structs structClass

/-- The text of the classes of a header. -/
def classesText (d : Definitions) : Except Fault String :=
  match (classes d *> result) Writer.bare with
  | .ok text _ => .ok text
  | .error fault _ => .error fault

/-- Writes a class of text fields, and gives a note for each field. -/
def textClass (name : String) (fields : List String) : Writing (List String) := do
  line ("class " ++ name ++ ":")
  block (each fields fun f => line (f ++ ": str = ''"))
  return fields.map ("Adding field: " ++ ·)

end CodeBridge.Header
