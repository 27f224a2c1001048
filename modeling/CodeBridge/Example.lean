import CodeBridge.Emit.Texts
import CodeBridge.Folder

/-! # A tiny module

An enumeration of colours and a struct that uses it, with all that is generated for them but the printers. -/

namespace CodeBridge.Example

def color : Enumeration :=
  ⟨"Color", ["Red", "Green", "Blue"], .int 1, .bool false, .text "e"⟩

def car : Struct :=
  ⟨"Car", [⟨"color", .enumeration color, none⟩, ⟨"x", .primitive .uint16, none⟩], .bool false, .text "t"⟩

def tiny : Module := ⟨"tiny", [], [car], [color]⟩

/-- Prints the classes, the header and the conversions of the tiny module. -/
def run : Working Unit := do
  Working.print (← Working.check (Emit.classesText tiny))
  Working.print (← Working.check (Emit.headerText .knr tiny))
  Working.print (← Working.check (Emit.conversionTexts "" tiny)).2

end CodeBridge.Example
